import Mathlib.Data.List.Infix
import Vitals.Cbor.Basic

/-!
# Heads read back

A reader takes some bytes for a value if it gives the value and leaves what follows the bytes,
and says that the bytes end too early where it meets a part of them alone (`Takes`). Bytes that
break off in two things written one after the other break off in the first one or in the second
one (`BreaksOff.append`), so what is read one after the other is taken if both are
(`Takes.append`). The shortest head of every number below `2 ^ 64` is taken for its kind and its
number (`exists_head`).
-/

namespace Vitals.Cbor

/-! ## Bytes that break off -/

/-- The bytes are the beginning of a whole, and not all of it. -/
def BreaksOff (bytes whole : List UInt8) : Prop := bytes <+: whole ∧ bytes ≠ whole

theorem not_breaksOff_nil (bytes : List UInt8) : ¬BreaksOff bytes [] := by
  rintro ⟨hpre, hne⟩
  exact hne (List.prefix_nil.1 hpre)

theorem BreaksOff.length_lt {bytes whole : List UInt8} (h : BreaksOff bytes whole) :
    bytes.length < whole.length := by
  obtain ⟨hpre, hne⟩ := h
  refine Nat.lt_of_le_of_ne hpre.length_le fun hlength => ?_
  exact hne (hpre.eq_of_length hlength)

theorem BreaksOff.cons {b : UInt8} {bytes whole : List UInt8} (h : BreaksOff bytes (b :: whole)) :
    bytes = [] ∨ ∃ start, bytes = b :: start ∧ BreaksOff start whole := by
  obtain ⟨hpre, hne⟩ := h
  rcases List.prefix_cons_iff.1 hpre with rfl | ⟨start, rfl, hstart⟩
  · exact Or.inl rfl
  · refine Or.inr ⟨start, rfl, hstart, ?_⟩
    rintro rfl
    exact hne rfl

/-- Bytes that break off in two parts break off in the first one, or hold it and break off in
the second one. -/
theorem BreaksOff.append {bytes front back : List UInt8} (h : BreaksOff bytes (front ++ back)) :
    BreaksOff bytes front ∨ ∃ start, bytes = front ++ start ∧ BreaksOff start back := by
  induction front generalizing bytes with
  | nil => exact Or.inr ⟨bytes, rfl, h⟩
  | cons b front ih =>
    rcases h.cons with rfl | ⟨start, rfl, hstart⟩
    · exact Or.inl ⟨List.nil_prefix, (List.cons_ne_nil b front).symm⟩
    · rcases ih hstart with ⟨hpre, hne⟩ | ⟨rest, rfl, hrest⟩
      · exact Or.inl ⟨List.cons_prefix_cons.2 ⟨rfl, hpre⟩, by simpa using hne⟩
      · exact Or.inr ⟨rest, rfl, hrest⟩

/-! ## Readers that take what was written -/

/-- The reader takes the bytes for the value. -/
structure Takes {α : Type} (read : List UInt8 → Read α) (bytes : List UInt8) (x : α) : Prop where
  /-- What follows the bytes is left. -/
  whole (rest : List UInt8) : read (bytes ++ rest) = .ok (x, rest)
  /-- A part of the bytes is no value. -/
  part {start : List UInt8} (h : BreaksOff start bytes) : read start = .error .endOfInput

namespace Takes

variable {α β : Type} {read : List UInt8 → Read α} {bytes : List UInt8} {x : α}

/-- Nothing is taken for a value that is known without reading. -/
theorem nothing (x : α) : Takes (fun s => .ok (x, s)) [] x :=
  ⟨fun _ => rfl, fun h => absurd h (not_breaksOff_nil _)⟩

/-- A first byte and what is taken after it. -/
theorem cons {b : UInt8} (hnil : read [] = .error .endOfInput)
    (h : Takes (fun s => read (b :: s)) bytes x) : Takes read (b :: bytes) x where
  whole rest := h.whole rest
  part hstart := by
    rcases hstart.cons with rfl | ⟨rest, rfl, hrest⟩
    · exact hnil
    · exact h.part hrest

theorem map (h : Takes read bytes x) (f : α → β) :
    Takes (fun s => (read s).map fun (x, s) => (f x, s)) bytes (f x) where
  whole rest := by simp [h.whole, Except.map]
  part hstart := by simp [h.part hstart, Except.map]

/-- One thing after another. The reader of both goes on where the reader of the first one ends,
and fails with it. -/
theorem append {first : List UInt8 → Read α} {second both : List UInt8 → Read β}
    {front back : List UInt8} {x : α} {y : β} (hfirst : Takes first front x)
    (hsecond : Takes second back y)
    (hok : ∀ {s rest}, first s = .ok (x, rest) → both s = second rest)
    (herror : ∀ {s}, first s = .error .endOfInput → both s = .error .endOfInput) :
    Takes both (front ++ back) y where
  whole rest := by
    rw [List.append_assoc, hok (hfirst.whole _)]
    exact hsecond.whole rest
  part hstart := by
    rcases hstart.append with hpart | ⟨start, rfl, hrest⟩
    · exact herror (hfirst.part hpart)
    · rw [hok (hfirst.whole start)]
      exact hsecond.part hrest

end Takes

theorem takes_takeBytes (bytes : List UInt8) : Takes (takeBytes bytes.length) bytes bytes where
  whole rest := by simp [takeBytes]
  part hstart := if_pos hstart.length_lt

/-! ## Numbers -/

@[simp] theorem length_bigEndian (count n : Nat) : (bigEndian count n).length = count := by
  induction count generalizing n with
  | zero => rfl
  | succ count ih => simp [bigEndian, ih]

theorem ofBigEndian_snoc (bytes : List UInt8) (b : UInt8) :
    ofBigEndian (bytes ++ [b]) = ofBigEndian bytes * 256 + b.toNat := by
  simp [ofBigEndian]

/-- The bytes of a number that fits into them write the number. -/
theorem ofBigEndian_bigEndian {count n : Nat} (h : n < Nat.pow 256 count) :
    ofBigEndian (bigEndian count n) = n := by
  induction count generalizing n with
  | zero =>
    have hzero : n = 0 := Nat.lt_one_iff.1 h
    rw [hzero]
    rfl
  | succ count ih =>
    have hhigh : n / 256 < Nat.pow 256 count := Nat.div_lt_of_lt_mul (by
      rw [Nat.mul_comm]
      exact h)
    rw [bigEndian, ofBigEndian_snoc, ih hhigh, UInt8.toNat_ofNat']
    omega

/-- A number that is part of a head. -/
theorem takes_readNumber_small {n : Nat} (h : n < 24) : Takes (readNumber n) [] n := by
  have hread : readNumber n = fun s => .ok (n, s) := by
    funext s
    simp [readNumber, h]
  rw [hread]
  exact Takes.nothing n

/-- A number in the bytes after a head. -/
theorem takes_readNumber_bigEndian (info : Nat) {n : Nat} (hlow : 24 ≤ info) (hhigh : info < 28)
    (h : n < Nat.pow 256 (Nat.pow 2 (info - 24))) :
    Takes (readNumber info) (bigEndian (Nat.pow 2 (info - 24)) n) n := by
  have hread : readNumber info = fun s => (takeBytes (Nat.pow 2 (info - 24)) s).map
      fun taken => (ofBigEndian taken.1, taken.2) := by
    funext s
    rw [readNumber, if_neg (by omega), if_pos hhigh]
  have htake := (takes_takeBytes (bigEndian (Nat.pow 2 (info - 24)) n)).map ofBigEndian
  rw [length_bigEndian, ofBigEndian_bigEndian h] at htake
  rw [hread]
  exact htake

/-! ## Heads -/

theorem kindOf_ofNat {kind info : Nat} (hkind : kind < 8) (hinfo : info < 32) :
    kindOf (UInt8.ofNat (kind * 32 + info)) = kind := by
  rw [kindOf, UInt8.toNat_ofNat']
  omega

theorem infoOf_ofNat (kind : Nat) {info : Nat} (hinfo : info < 32) :
    infoOf (UInt8.ofNat (kind * 32 + info)) = info := by
  rw [infoOf, UInt8.toNat_ofNat']
  omega

/-- The head with a number is a byte of the kind, which says how the number goes on. -/
theorem exists_head (kind : Nat) {n : Nat} (hkind : kind < 8) (hn : n < UInt64.size) :
    ∃ b bytes, head kind n = b :: bytes ∧ kindOf b = kind ∧ infoOf b < 28 ∧
      Takes (readNumber (infoOf b)) bytes n := by
  have hfirst {info : Nat} (hinfo : info < 28) {bytes : List UInt8}
      (htakes : Takes (readNumber info) bytes n) : ∃ b rest,
      UInt8.ofNat (kind * 32 + info) :: bytes = b :: rest ∧ kindOf b = kind ∧ infoOf b < 28 ∧
        Takes (readNumber (infoOf b)) rest n := by
    have hkindOf := kindOf_ofNat hkind (show info < 32 by omega)
    have hinfoOf := infoOf_ofNat kind (show info < 32 by omega)
    refine ⟨_, bytes, rfl, hkindOf, ?_, ?_⟩
    · rwa [hinfoOf]
    · rwa [hinfoOf]
  unfold head
  -- one case for each width of the number
  split_ifs with h24 h256 h65536 h32
  · exact hfirst (by omega) (takes_readNumber_small h24)
  · exact hfirst (by omega) (takes_readNumber_bigEndian 24 (by omega) (by omega) h256)
  · exact hfirst (by omega) (takes_readNumber_bigEndian 25 (by omega) (by omega) h65536)
  · exact hfirst (by omega) (takes_readNumber_bigEndian 26 (by omega) (by omega) h32)
  · exact hfirst (by omega) (takes_readNumber_bigEndian 27 (by omega) (by omega) hn)

end Vitals.Cbor
