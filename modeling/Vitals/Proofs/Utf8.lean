import Mathlib.Order.Basic
import Vitals.Text.Utf8

/-!
# Bytes of a text

The encoding of a text is that of its characters in a row. An ASCII character is one byte,
every other character takes bytes from `0x80` on alone, and the order of texts is the order of
their bytes (`encode_lt_encode_iff`), since of two characters the smaller one has the smaller
byte where they first differ (`utf8EncodeChar_lt`).
-/

namespace Vitals.Utf8

/-! ## Characters in a row -/

theorem encode_ofList (chars : List Char) :
    encode (String.ofList chars) = chars.flatMap String.utf8EncodeChar := by
  rw [encode, String.toList_ofList]

theorem utf8EncodeChar_of_ascii {c : Char} (h : c.toNat < 0x80) :
    String.utf8EncodeChar c = [UInt8.ofNat c.toNat] := by
  have : c.val.toNat ≤ 0x7f := Nat.le_of_lt_succ h
  unfold String.utf8EncodeChar
  exact if_pos this

theorem le_of_mem_utf8EncodeChar {c : Char} (h : 0x80 ≤ c.toNat) {b : UInt8}
    (hb : b ∈ String.utf8EncodeChar c) : 0x80 ≤ b := by
  have hv : ¬c.val.toNat ≤ 0x7f := Nat.not_le_of_lt h
  rw [UInt8.le_iff_toNat_le]
  change 128 ≤ b.toNat
  simp only [String.utf8EncodeChar, hv, if_false] at hb
  split_ifs at hb <;> simp only [List.mem_cons, List.not_mem_nil, or_false] at hb
  · rcases hb with rfl | rfl <;> rw [UInt8.toNat_ofNat'] <;> omega
  · rcases hb with rfl | rfl | rfl <;> rw [UInt8.toNat_ofNat'] <;> omega
  · rcases hb with rfl | rfl | rfl | rfl <;> rw [UInt8.toNat_ofNat'] <;> omega

/-! ## Order -/

theorem toNat_val_lt (c : Char) : c.val.toNat < 0x110000 := by
  rcases c.valid with h | ⟨_, h⟩
  · exact Nat.lt_trans h (by decide)
  · exact h

theorem cons_ofNat_lt_cons {m n : Nat} {x y : List UInt8} (hm : m < 256) (hn : n < 256)
    (hle : m ≤ n) (heq : m = n → x < y) : UInt8.ofNat m :: x < UInt8.ofNat n :: y := by
  rw [List.cons_lt_cons_iff, UInt8.lt_iff_toNat_lt, UInt8.toNat_ofNat', UInt8.toNat_ofNat',
    Nat.mod_eq_of_lt hm, Nat.mod_eq_of_lt hn]
  rcases Nat.lt_or_eq_of_le hle with h | h
  · exact Or.inl h
  · exact Or.inr ⟨congrArg _ h, heq h⟩

/-- Of two characters the smaller one has the smaller bytes, whatever follows them. -/
theorem utf8EncodeChar_lt {c d : Char} (h : c < d) (x y : List UInt8) :
    String.utf8EncodeChar c ++ x < String.utf8EncodeChar d ++ y := by
  have hlt : c.val.toNat < d.val.toNat := UInt32.lt_iff_toNat_lt.1 h
  have hd := toNat_val_lt d
  unfold String.utf8EncodeChar
  dsimp only
  generalize c.val.toNat = m at *
  generalize d.val.toNat = n at *
  split_ifs <;> try omega
  -- Byte for byte the smaller character is at most the larger one, and not the same in all.
  all_goals
    simp only [List.cons_append, List.nil_append]
    repeat refine cons_ofNat_lt_cons (by omega) (by omega) (by omega) fun _ => ?_
    omega

theorem flatMap_utf8EncodeChar_lt {s t : List Char} (h : s < t) :
    s.flatMap String.utf8EncodeChar < t.flatMap String.utf8EncodeChar := by
  induction h with
  | @nil c t =>
    cases hc : String.utf8EncodeChar c with
    | nil => exact absurd hc String.utf8EncodeChar_ne_nil
    | cons b bytes =>
      rw [List.flatMap_cons, hc]
      exact List.nil_lt_cons _ _
  | @rel c s d t h =>
    rw [List.flatMap_cons, List.flatMap_cons]
    exact utf8EncodeChar_lt h _ _
  | @cons c s t _ ih =>
    rw [List.flatMap_cons, List.flatMap_cons]
    exact List.append_left_lt ih

/-- The order of texts is the order of their bytes. -/
theorem encode_lt_encode_iff {s t : String} : encode s < encode t ↔ s < t := by
  refine ⟨fun h => ?_, flatMap_utf8EncodeChar_lt⟩
  by_contra hst
  have hle := String.not_lt.1 hst
  have hne : s ≠ t := by
    rintro rfl
    exact List.lt_irrefl _ h
  have hts : t < s := String.not_le.1 fun hge => hne (String.le_antisymm hge hle)
  exact List.lt_asymm h (flatMap_utf8EncodeChar_lt hts)

end Vitals.Utf8
