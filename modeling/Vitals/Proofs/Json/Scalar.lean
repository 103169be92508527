import Mathlib.Data.List.TakeDrop
import Vitals.Proofs.Json.Codec

/-!
# Written scalars read back

The digits that are written for a number are taken as they stand (`absorb_toDigits`), without a
zero before others (`head_toDigits_ne_zero`), and end where what follows a value begins
(`readNumber_toDigits`). So every integer that a number keeps exactly reads back
(`readsBack_integer`), and with it counters and points in time over their whole ranges
(`Codec.faithful_uint64`, `Codec.faithful_int64`). Texts and truth values read back, and values
that may be lacking if no value is written like `null` (`Codec.faithful_option`).
-/

set_option linter.unusedSectionVars false

namespace Vitals.Json

/-! ## Digits -/

theorem toNat_lt_of_isDigit {c : Char} (h : c.isDigit = true) :
    48 ≤ c.toNat ∧ c.toNat ≤ 57 := by
  have hval : c.val ≥ '0'.val ∧ c.val ≤ '9'.val := by simpa [Char.isDigit] using h
  exact ⟨UInt32.le_iff_toNat_le.1 hval.1, UInt32.le_iff_toNat_le.1 hval.2⟩

theorem toNat_byte_of_isDigit {c : Char} (h : c.isDigit = true) : (byte c).toNat = c.toNat := by
  have hle := (toNat_lt_of_isDigit h).2
  show c.toNat % 256 = c.toNat
  omega

theorem isDigitByte_byte {c : Char} (h : c.isDigit = true) : isDigitByte (byte c) = true := by
  obtain ⟨hlow, hhigh⟩ := toNat_lt_of_isDigit h
  rw [isDigitByte, Bool.and_eq_true_iff, decide_eq_true_iff, decide_eq_true_iff,
    UInt8.le_iff_toNat_le, UInt8.le_iff_toNat_le, toNat_byte_of_isDigit h]
  exact ⟨hlow, hhigh⟩

theorem encoded_of_digits {chars : List Char} (h : ∀ c ∈ chars, c.isDigit = true) :
    encoded chars = chars.map byte := by
  induction chars with
  | nil => rfl
  | cons c chars ih =>
    obtain ⟨hc, hchars⟩ := List.forall_mem_cons.1 h
    have hascii : c.toNat < 0x80 := Nat.lt_of_le_of_lt (toNat_lt_of_isDigit hc).2 (by decide)
    rw [encoded_cons_of_ascii hascii, ih hchars, List.map_cons]

theorem le_ofDigitChars (n : Nat) (chars : List Char) : n ≤ Nat.ofDigitChars 10 chars n := by
  rw [Nat.ofDigitChars_eq_ofDigitChars_zero]
  exact Nat.le_add_right_of_le (Nat.le_mul_of_pos_left n (Nat.pow_pos (by decide)))

/-- Digits are taken as long as their number is kept exactly. -/
theorem absorb_digits {chars : List Char} (hdigits : ∀ c ∈ chars, c.isDigit = true) {n : Nat}
    (hmax : Nat.ofDigitChars 10 chars n ≤ maxCount) :
    absorb n (chars.map byte) = (Nat.ofDigitChars 10 chars n, []) := by
  induction chars generalizing n with
  | nil => rfl
  | cons c chars ih =>
    obtain ⟨hc, hchars⟩ := List.forall_mem_cons.1 hdigits
    have hdigit : n * 10 + digitOf (byte c) = 10 * n + (c.toNat - '0'.toNat) := by
      rw [digitOf, toNat_byte_of_isDigit hc, Nat.mul_comm]
      rfl
    rw [Nat.ofDigitChars_cons] at hmax ⊢
    rw [List.map_cons, absorb, hdigit, if_pos (Nat.le_trans (le_ofDigitChars _ chars) hmax),
      ih hchars hmax]

theorem isDigit_of_mem_toDigits {n : Nat} {c : Char} (h : c ∈ Nat.toDigits 10 n) :
    c.isDigit = true :=
  Nat.isDigit_of_mem_toDigits (by decide) (by decide) h

theorem absorb_toDigits {n : Nat} (h : n ≤ maxCount) :
    absorb 0 ((Nat.toDigits 10 n).map byte) = (n, []) := by
  have hmax : Nat.ofDigitChars 10 (Nat.toDigits 10 n) 0 ≤ maxCount := by
    rwa [Nat.ofDigitChars_ten_toDigits]
  rw [absorb_digits (fun _ => isDigit_of_mem_toDigits) hmax, Nat.ofDigitChars_ten_toDigits]

/-- A number beyond zero begins with another digit than zero. -/
theorem head_toDigits_ne_zero {n : Nat} (h : 0 < n) : ∀ c ∈ (Nat.toDigits 10 n).head?, c ≠ '0' := by
  induction n using Nat.strongRecOn with
  | _ n ih =>
    intro c hc
    rcases Nat.lt_or_ge n 10 with hless | hmore
    · rw [Nat.toDigits_of_lt_base hless] at hc
      obtain rfl := Option.some.inj hc
      exact mt Nat.digitChar_eq_zero.1 (Nat.ne_of_gt h)
    · rw [Nat.toDigits_of_base_le (by decide) hmore,
        List.head?_append_of_ne_nil _ Nat.toDigits_ne_nil] at hc
      exact ih (n / 10) (by omega) (by omega) c hc

/-! ## Numbers -/

/-- No digit begins what follows a value. -/
theorem Ends.takeWhile_digits {rest : List UInt8} (h : Ends rest) (digits : List UInt8)
    (hdigits : ∀ b ∈ digits, isDigitByte b = true) :
    (digits ++ rest).takeWhile isDigitByte = digits ∧
      (digits ++ rest).dropWhile isDigitByte = rest := by
  have hrest : rest.takeWhile isDigitByte = [] ∧ rest.dropWhile isDigitByte = rest := by
    cases rest with
    | nil => exact ⟨rfl, rfl⟩
    | cons b rest =>
      have hb : isDigitByte b = false := by
        rcases h b rfl with rfl | rfl | rfl <;> decide
      simp [hb]
  rw [List.takeWhile_append_of_pos hdigits, List.dropWhile_append_of_pos hdigits, hrest.1,
    hrest.2, List.append_nil]
  exact ⟨rfl, rfl⟩

/-- The digits of a number that is kept exactly read as the number. -/
theorem readNumber_toDigits (negative : Bool) {n : Nat} (hmax : n ≤ maxCount)
    {rest : List UInt8} (hrest : Ends rest) :
    readNumber negative ((Nat.toDigits 10 n).map byte ++ rest) =
      .ok (integerOrReal negative n, rest) := by
  have hdigits : ∀ b ∈ (Nat.toDigits 10 n).map byte, isDigitByte b = true := by
    intro b hb
    obtain ⟨c, hc, rfl⟩ := List.mem_map.1 hb
    exact isDigitByte_byte (isDigit_of_mem_toDigits hc)
  obtain ⟨htake, hdrop⟩ := hrest.takeWhile_digits _ hdigits
  have habsorb := absorb_toDigits hmax
  unfold readNumber
  simp only [htake, hdrop]
  cases hwritten : (Nat.toDigits 10 n).map byte with
  | nil => exact absurd (List.map_eq_nil_iff.1 hwritten) Nat.toDigits_ne_nil
  | cons first others =>
    have hlead : ¬(first = byte '0' ∧ (!others.isEmpty) = true) := by
      rintro ⟨rfl, hothers⟩
      rcases Nat.eq_zero_or_pos n with rfl | hpos
      · obtain ⟨-, rfl⟩ := List.cons.inj hwritten
        exact absurd hothers Bool.false_ne_true
      · obtain ⟨c, chars, hchars, hc, -⟩ := List.map_eq_cons_iff.1 hwritten
        have hdigit : c.isDigit = true :=
          isDigit_of_mem_toDigits (n := n) (hchars ▸ List.mem_cons_self)
        have hnat : c.toNat = '0'.toNat := by
          rw [← toNat_byte_of_isDigit hdigit, hc]
          rfl
        exact head_toDigits_ne_zero hpos c (by rw [hchars]; rfl)
          (Char.ext (UInt32.toNat_inj.1 hnat))
    rw [hwritten] at habsorb
    simp only [if_neg hlead, habsorb]
    cases rest with
    | nil => rfl
    | cons b rest =>
      have hb : b ≠ byte '.' ∧ isExponentMark b = false := by
        rcases hrest b rfl with rfl | rfl | rfl <;> decide
      simp only [if_neg hb.1, hb.2, Bool.false_eq_true, if_false, List.isEmpty_nil, if_true]

/-! ## Scalars -/

/-- The document is written as a scalar that reads back, whatever follows. -/
structure ReadsBack (document : Json) : Prop where
  /-- It begins with a byte that begins no list and no object and is no blank. -/
  starts : ∃ b tail, document.bytes = b :: tail ∧ isBlankByte b = false ∧ b ≠ byte ']' ∧
    ¬(b = byte '[' ∨ b = byte '{') ∧
      ∀ {rest : List UInt8}, Ends rest → readScalar b (tail ++ rest) = .ok (document, rest)

theorem bytes_null : null.bytes = byte 'n' :: ['u', 'l', 'l'].map byte := by decide

theorem readsBack_flag (value : Bool) : (flag value).ReadsBack := by
  cases value with
  | false =>
    exact ⟨byte 'f', ['a', 'l', 's', 'e'].map byte, by decide, by decide, by decide, by decide,
      fun _ => rfl⟩
  | true =>
    exact ⟨byte 't', ['r', 'u', 'e'].map byte, by decide, by decide, by decide, by decide,
      fun _ => rfl⟩

theorem readsBack_text (s : String) : (text s).ReadsBack := by
  refine ⟨byte '"', textBody s, bytes_text s, by decide, by decide, by decide, fun _ => ?_⟩
  rw [readScalar, readTextBody_write]
  rfl

theorem readScalar_of_isDigitByte {b : UInt8} (h : isDigitByte b = true) (rest : List UInt8) :
    readScalar b rest = readNumber false (b :: rest) := by
  have hne : ∀ c, isDigitByte (byte c) = false → b ≠ byte c := by
    rintro c hc rfl
    exact Bool.false_ne_true (hc.symm.trans h)
  rw [readScalar, if_neg (hne 'n' (by decide)), if_neg (hne 't' (by decide)),
    if_neg (hne 'f' (by decide)), if_neg (hne '-' (by decide)), if_pos h]

/-- The integers that a number keeps exactly read back. -/
theorem readsBack_integer {n : Int} (hmin : -9223372036854775808 ≤ n) (hmax : n ≤ maxCount) :
    (integer n).ReadsBack := by
  have hbytes : encoded (Nat.toDigits 10 n.natAbs) = (Nat.toDigits 10 n.natAbs).map byte :=
    encoded_of_digits fun _ => isDigit_of_mem_toDigits
  have hcount : n.natAbs ≤ maxCount := by
    unfold maxCount at *
    omega
  by_cases hnegative : n < 0
  · have hwritten : (integer n).bytes = byte '-' :: (Nat.toDigits 10 n.natAbs).map byte := by
      rw [bytes, write, writeInteger, if_pos hnegative, encoded_cons_of_ascii (by decide), hbytes]
    have hvalue : integerOrReal true n.natAbs = integer n := by
      have hkept : ¬(n.natAbs = 0 ∨ 9223372036854775808 < n.natAbs) := by omega
      rw [integerOrReal, if_neg (by decide), if_neg hkept]
      congr 1
      omega
    refine ⟨_, _, hwritten, by decide, by decide, by decide, fun hrest => ?_⟩
    exact (readNumber_toDigits true hcount hrest).trans (by rw [hvalue])
  · have hwritten : (integer n).bytes = (Nat.toDigits 10 n.natAbs).map byte := by
      rw [bytes, write, writeInteger, if_neg hnegative, hbytes]
    have hvalue : integerOrReal false n.natAbs = integer n :=
      congrArg integer (Int.natAbs_of_nonneg (Int.not_lt.1 hnegative))
    cases hdigits : (Nat.toDigits 10 n.natAbs).map byte with
    | nil => exact absurd (List.map_eq_nil_iff.1 hdigits) Nat.toDigits_ne_nil
    | cons b tail =>
      obtain ⟨c, hc, rfl⟩ : ∃ c ∈ Nat.toDigits 10 n.natAbs, byte c = b :=
        List.mem_map.1 (hdigits ▸ List.mem_cons_self)
      have hdigit := isDigitByte_byte (isDigit_of_mem_toDigits hc)
      have hne : ∀ d, isDigitByte (byte d) = false → byte c ≠ byte d := by
        intro d hd heq
        exact Bool.false_ne_true (hd.symm.trans (heq ▸ hdigit))
      refine ⟨byte c, tail, hwritten.trans hdigits, ?_, hne ']' (by decide), ?_, fun hrest => ?_⟩
      · simp only [isBlankByte, Bool.or_eq_false_iff, beq_eq_false_iff_ne]
        exact ⟨⟨⟨hne ' ' (by decide), hne '\n' (by decide)⟩, hne '\t' (by decide)⟩,
          hne '\r' (by decide)⟩
      · exact not_or.2 ⟨hne '[' (by decide), hne '{' (by decide)⟩
      · rw [readScalar_of_isDigitByte hdigit, ← List.cons_append, ← hdigits,
          readNumber_toDigits false hcount hrest, hvalue]

namespace Codec

variable {α : Type}

/-- A type of scalars is faithful if what is written for a value reads back and is taken for the
value. -/
theorem faithful_scalar (expected : String) {ofScalar : Json → Except ShapeFault α}
    {toJson : α → Json} (hback : ∀ x, (toJson x).ReadsBack)
    (hvalue : ∀ x, ofScalar (toJson x) = .ok x) : (scalar expected ofScalar toJson).Faithful where
  starts x := by
    obtain ⟨b, tail, hbytes, hblank, hclose, -⟩ := (hback x).starts
    exact ⟨b, tail, hbytes, hblank, hclose⟩
  reads x rest hrest := by
    obtain ⟨b, tail, hbytes, hblank, -, hbracket, hread⟩ := (hback x).starts
    have hwritten : (scalar expected ofScalar toJson).written x = b :: tail := hbytes
    rw [hwritten, List.cons_append]
    simp only [scalar]
    rw [skipBlanks_cons hblank]
    simp only [if_neg hbracket, hread hrest, hvalue]

theorem faithful_string : string.Faithful :=
  faithful_scalar _ readsBack_text fun _ => rfl

theorem faithful_bool : bool.Faithful :=
  faithful_scalar _ readsBack_flag fun _ => rfl

theorem faithful_uint64 : uint64.Faithful := by
  refine faithful_scalar _ (fun n => ?_) fun n => ?_
  · have hlt := n.toNat_lt
    refine readsBack_integer (by omega) ?_
    unfold maxCount
    omega
  · have hkept : (0 : Int) ≤ n.toNat ∧ (n.toNat : Int).toNat < UInt64.size :=
      ⟨Int.natCast_nonneg _, n.toNat_lt⟩
    simp only [dif_pos hkept]
    exact congrArg Except.ok (UInt64.toNat_inj.1 rfl)

theorem faithful_int64 : int64.Faithful := by
  refine faithful_scalar _ (fun n => ?_) fun n => ?_
  · have hlow := n.le_toInt
    have hhigh := n.toInt_lt
    refine readsBack_integer (by omega) ?_
    unfold maxCount
    omega
  · have hkept : -9223372036854775808 ≤ n.toInt ∧ n.toInt < 9223372036854775808 :=
      ⟨n.le_toInt, n.toInt_lt⟩
    simp only [if_pos hkept, Int64.ofInt_toInt]

/-- Values that may be lacking are faithful if no value is written like the word for none. -/
theorem faithful_option {codec : Codec α} (h : codec.Faithful)
    (hnull : ∀ x, (codec.written x).head? ≠ some (byte 'n')) : (option codec).Faithful where
  starts x := by
    cases x with
    | none => exact ⟨byte 'n', ['u', 'l', 'l'].map byte, bytes_null, by decide, by decide⟩
    | some x => exact h.starts x
  reads x rest hrest := by
    cases x with
    | none =>
      rw [show (option codec).written none = _ from bytes_null, List.cons_append]
      simp only [option]
      rw [skipBlanks_cons (by decide)]
      rfl
    | some x =>
      obtain ⟨b, tail, hwritten, hblank, -⟩ := h.starts x
      have hb : b ≠ byte 'n' := by
        rintro rfl
        exact hnull x (by rw [hwritten]; rfl)
      have hread := h.reads x hrest
      rw [hwritten, List.cons_append] at hread
      rw [show (option codec).written (some x) = b :: tail from hwritten, List.cons_append]
      simp only [option]
      rw [skipBlanks_cons hblank]
      simp only [if_neg hb, hread]
      rfl

end Codec

end Vitals.Json
