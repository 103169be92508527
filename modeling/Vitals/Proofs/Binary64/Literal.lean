import Mathlib.Data.List.TakeWhile
import Vitals.Binary64.Literal
import Vitals.Proofs.Binary64.Rounding
import Vitals.Text.Blank

/-!
# What a literal reads as

A numeral in digits, with a point among them or without one, reads as the binary64 number nearest
to it as long as it is neither too large nor too small (`Numeral.exists_read`). Every literal of a
finite number ends in a digit or a point and has no white space in it
(`Binary64.literal_of_read`).
-/

namespace Vitals

/-! ## Digits -/

theorem digitIn?_ten {c : Char} (h : c.isDigit = true) :
    digitIn? 10 c = some (c.toNat - '0'.toNat) := by
  have hval : c.val ≥ '0'.val ∧ c.val ≤ '9'.val := by simpa [Char.isDigit] using h
  have hhigh : c.toNat ≤ 57 := UInt32.le_iff_toNat_le.1 hval.2
  have hzero : '0'.toNat = 48 := rfl
  have hless : c.toNat - '0'.toNat < 10 := by omega
  simp only [digitIn?, h, if_true]
  rw [if_pos hless]

/-- Decimal digits write the number that they write in the standard notation. -/
theorem numberIn_eq_ofDigitChars {digits : List Char} (h : ∀ c ∈ digits, c.isDigit = true) :
    numberIn 10 digits = Nat.ofDigitChars 10 digits 0 := by
  unfold numberIn Nat.ofDigitChars
  refine List.foldl_ext _ _ 0 fun n c hc => ?_
  rw [digitIn?_ten (h c hc), Option.getD_some, Nat.mul_comm]

theorem numberIn_append {first second : List Char} (hfirst : ∀ c ∈ first, c.isDigit = true)
    (hsecond : ∀ c ∈ second, c.isDigit = true) :
    numberIn 10 (first ++ second) =
      numberIn 10 first * 10 ^ second.length + numberIn 10 second := by
  rw [numberIn_eq_ofDigitChars hfirst, numberIn_eq_ofDigitChars hsecond,
    numberIn_eq_ofDigitChars (fun c hc => (List.mem_append.1 hc).elim (hfirst c) (hsecond c)),
    Nat.ofDigitChars_append, Nat.ofDigitChars_eq_ofDigitChars_zero, Nat.mul_comm]

theorem isDigit_toDigits (n : ℕ) : ∀ c ∈ Nat.toDigits 10 n, c.isDigit = true := fun _ hc =>
  Nat.isDigit_of_mem_toDigits (by decide) (by decide) hc

@[simp] theorem numberIn_toDigits (n : ℕ) : numberIn 10 (Nat.toDigits 10 n) = n := by
  rw [numberIn_eq_ofDigitChars (isDigit_toDigits n), Nat.ofDigitChars_ten_toDigits]

theorem isDigit_leftpad {digits : List Char} (h : ∀ c ∈ digits, c.isDigit = true) (places : ℕ) :
    ∀ c ∈ digits.leftpad places '0', c.isDigit = true := by
  intro c hc
  rcases List.mem_append.1 hc with hzero | hdigit
  · rw [List.eq_of_mem_replicate hzero]
    rfl
  · exact h c hdigit

/-- Zeros in front of digits do not count. -/
theorem numberIn_leftpad {digits : List Char} (h : ∀ c ∈ digits, c.isDigit = true) (places : ℕ) :
    numberIn 10 (digits.leftpad places '0') = numberIn 10 digits := by
  rw [numberIn_eq_ofDigitChars (isDigit_leftpad h places), numberIn_eq_ofDigitChars h,
    List.leftpad, Nat.ofDigitChars_append, Nat.ofDigitChars_replicate_zero, Nat.mul_zero]

/-- The number of digits tells a number up to a factor of ten. -/
theorem exists_length_toDigits {n : ℕ} (hn : 0 < n) :
    ∃ k, (Nat.toDigits 10 n).length = k + 1 ∧ 10 ^ k ≤ n ∧ n < 10 ^ (k + 1) := by
  obtain ⟨k, hk⟩ : ∃ k, (Nat.toDigits 10 n).length = k + 1 :=
    Nat.exists_eq_add_one.2 Nat.length_toDigits_pos
  refine ⟨k, hk, ?_, (Nat.length_toDigits_le_iff (by decide) k.succ_pos).1 hk.le⟩
  rcases Nat.eq_zero_or_pos k with rfl | hpos
  · exact hn
  · exact Nat.le_of_not_lt (mt (Nat.length_toDigits_le_iff (by decide) hpos).2 (by omega))

/-! ## Decimals -/

/-- Decimals that are neither too large nor too small are rounded to the nearest point of the
grid. -/
theorem Magnitude.exists_ofDecimal {coefficient places : ℕ} {q : ℚ}
    (hq : (coefficient : ℚ) / 10 ^ places = q) (hlow : q = 0 ∨ (10 : ℚ) ^ (-300 : ℤ) ≤ q)
    (hhigh : q ≤ 10 ^ (300 : ℤ)) :
    ∃ x, Magnitude.ofDecimal coefficient (-places) = some x ∧ Nearest q x := by
  rcases Nat.eq_zero_or_pos coefficient with rfl | hpos
  · refine ⟨zero, rfl, ?_⟩
    obtain rfl : 0 = q := by simpa using hq
    exact nearest_zero
  have hmin : (10 : ℚ) ^ (-300 : ℤ) ≤ q := hlow.resolve_left (by rw [← hq]; positivity)
  obtain ⟨digits, hdigits, hmore, hless⟩ := exists_length_toDigits hpos
  have hmore : (10 : ℚ) ^ digits ≤ coefficient := by exact_mod_cast hmore
  have hless : (coefficient : ℚ) < 10 ^ (digits + 1) := by exact_mod_cast hless
  have hplaces : (0 : ℚ) < 10 ^ places := by positivity
  have hsmall : (digits : ℤ) - places ≤ 300 := by
    have : (10 : ℚ) ^ ((digits : ℤ) - places) ≤ 10 ^ (300 : ℤ) := by
      rw [zpow_sub₀ (by norm_num), zpow_natCast, zpow_natCast]
      exact ((div_le_div_iff_of_pos_right hplaces).2 hmore).trans (hq.trans_le hhigh)
    exact (zpow_le_zpow_iff_right₀ (by norm_num)).1 this
  have hlarge : -300 < (digits : ℤ) + 1 - places := by
    have : (10 : ℚ) ^ (-300 : ℤ) < 10 ^ ((digits : ℤ) + 1 - places) := by
      rw [zpow_sub₀ (by norm_num), ← Nat.cast_add_one, zpow_natCast, zpow_natCast]
      exact hmin.trans_lt (hq.symm.trans_lt ((div_lt_div_iff_of_pos_right hplaces).2 hless))
    exact (zpow_lt_zpow_iff_right₀ (by norm_num)).1 this
  have hofDecimal : Magnitude.ofDecimal coefficient (-places) =
      ofQuotient coefficient (10 ^ places) := by
    unfold Magnitude.ofDecimal
    rw [hdigits]
    dsimp only
    rw [if_neg hpos.ne', if_neg (by omega), if_neg (by omega)]
    simp
  have hquotient : (coefficient : ℚ) / (10 ^ places : ℕ) = q := by
    rw [← hq]
    push_cast
    rfl
  obtain ⟨x, hx⟩ : ∃ x, ofQuotient coefficient (10 ^ places) = some x := by
    refine exists_ofQuotient (by positivity) ?_
    calc (coefficient : ℚ) / (10 ^ places : ℕ) ≤ 10 ^ (300 : ℤ) := hquotient.trans_le hhigh
      _ = ((10 : ℚ) ^ 3) ^ 100 := by rw [← pow_mul, zpow_ofNat]
      _ ≤ ((2 : ℚ) ^ 10) ^ 100 := by gcongr; norm_num
      _ = 2 ^ (1000 : ℤ) := by rw [← pow_mul, zpow_ofNat]
  exact ⟨x, hofDecimal.trans hx, hquotient ▸ nearest_ofQuotient (by positivity) hx⟩

/-! ## Numerals -/

/-- Decimal digits, and more of them after a point if there are more. -/
structure Numeral where
  whole : List Char
  fraction : List Char
  whole_ne_nil : whole ≠ []
  all_isDigit : (whole ++ fraction).all Char.isDigit = true

namespace Numeral

/-- The digits and the point as a text. -/
def text (numeral : Numeral) : List Char :=
  numeral.whole ++ (if numeral.fraction = [] then [] else '.' :: numeral.fraction)

/-- The exact value. -/
def value (numeral : Numeral) : ℚ :=
  numberIn 10 numeral.whole + numberIn 10 numeral.fraction / 10 ^ numeral.fraction.length

variable (numeral : Numeral)

theorem isDigit_whole : ∀ c ∈ numeral.whole, c.isDigit = true := fun _ hc =>
  List.all_eq_true.1 numeral.all_isDigit _ (List.mem_append_left _ hc)

theorem isDigit_fraction : ∀ c ∈ numeral.fraction, c.isDigit = true := fun _ hc =>
  List.all_eq_true.1 numeral.all_isDigit _ (List.mem_append_right _ hc)

theorem value_eq_div : (numberIn 10 (numeral.whole ++ numeral.fraction) : ℚ) /
    10 ^ numeral.fraction.length = numeral.value := by
  rw [numberIn_append numeral.isDigit_whole numeral.isDigit_fraction, value]
  push_cast
  rw [add_div, mul_div_cancel_right₀ _ (by positivity)]

theorem value_nonneg : 0 ≤ numeral.value := by
  unfold value
  positivity

/-- A numeral begins with a digit. -/
theorem exists_cons_text : ∃ d, d.isDigit = true ∧ ∃ rest, numeral.text = d :: rest := by
  obtain ⟨d, rest, hwhole⟩ := List.exists_cons_of_ne_nil numeral.whole_ne_nil
  refine ⟨d, numeral.isDigit_whole d (hwhole ▸ List.mem_cons_self), ?_⟩
  rw [text, hwhole, List.cons_append]
  exact ⟨_, rfl⟩

theorem readDecimal_text : readDecimal numeral.text =
    some (numberIn 10 (numeral.whole ++ numeral.fraction), -(numeral.fraction.length : ℤ)) := by
  have htake : (numeral.text).takeWhile Char.isDigit = numeral.whole := by
    rw [text, List.takeWhile_append_of_pos numeral.isDigit_whole]
    split_ifs <;> simp
  have hdrop : (numeral.text).dropWhile Char.isDigit =
      if numeral.fraction = [] then [] else '.' :: numeral.fraction := by
    rw [text, List.dropWhile_append_of_pos numeral.isDigit_whole]
    split_ifs <;> simp
  have hsplit : splitFraction (if numeral.fraction = [] then [] else '.' :: numeral.fraction) =
      (numeral.fraction, []) := by
    split_ifs with h
    · rw [h]
      rfl
    · have hall := numeral.isDigit_fraction
      rw [splitFraction, List.takeWhile_eq_self_iff.2 hall, List.dropWhile_eq_nil_iff.2 hall]
  unfold readDecimal
  simp only [htake, hdrop, hsplit]
  simp [numeral.whole_ne_nil, readExponent]

/-- A numeral that is neither too large nor too small reads as the number nearest to it. -/
theorem exists_read (hlow : numeral.value = 0 ∨ (10 : ℚ) ^ (-300 : ℤ) ≤ numeral.value)
    (hhigh : numeral.value ≤ 10 ^ (300 : ℤ)) :
    ∃ x, Binary64.read numeral.text = .ok (.finite false x) ∧
      Magnitude.Nearest numeral.value x := by
  obtain ⟨x, hx, hnearest⟩ := Magnitude.exists_ofDecimal numeral.value_eq_div hlow hhigh
  refine ⟨x, ?_, hnearest⟩
  obtain ⟨d, hdigit, rest, htext⟩ := numeral.exists_cons_text
  have hsign : splitSign numeral.text = (false, numeral.text) := by
    rw [htext]
    unfold splitSign
    split
    · next h => simp [(List.cons.inj h).1] at hdigit
    · next h => simp [(List.cons.inj h).1] at hdigit
    · rfl
  have hne : numeral.text.isEmpty = false := by rw [htext, List.isEmpty_cons]
  unfold Binary64.read
  simp only [hne, hsign, numeral.readDecimal_text, Binary64.ofDecimal, hx, Bool.false_eq_true,
    if_false, Binary64.ofSize]

end Numeral

/-! ## The text of a finite number -/

/-- A literal has no white space in it and ends in a digit or a point. -/
structure IsLiteral (text : List Char) : Prop where
  not_blank {c : Char} (h : c ∈ text) : isBlank c = false
  ends : ∃ c ∈ text.getLast?, c.isDigit = true ∨ c = '.'

theorem not_blank_of_isDigit {c : Char} (h : c.isDigit = true) : isBlank c = false := by
  have hval : c.val ≥ '0'.val ∧ c.val ≤ '9'.val := by simpa [Char.isDigit] using h
  have hlow : 48 ≤ c.toNat := UInt32.le_iff_toNat_le.1 hval.1
  have hhigh : c.toNat ≤ 57 := UInt32.le_iff_toNat_le.1 hval.2
  simp only [isBlank, Bool.or_eq_false_iff, Bool.and_eq_false_iff, decide_eq_false_iff_not,
    beq_eq_false_iff_ne]
  omega

theorem isLiteral_digits {digits : List Char} (hne : digits ≠ [])
    (h : ∀ c ∈ digits, c.isDigit = true) : IsLiteral digits where
  not_blank hc := not_blank_of_isDigit (h _ hc)
  ends := ⟨digits.getLast hne, List.getLast?_eq_getLast_of_ne_nil hne,
    Or.inl (h _ (List.getLast_mem hne))⟩

/-- Characters other than white space in front leave a literal a literal. -/
theorem IsLiteral.append {text : List Char} (h : IsLiteral text) (front : List Char)
    (hfront : ∀ c ∈ front, isBlank c = false) : IsLiteral (front ++ text) where
  not_blank hc := (List.mem_append.1 hc).elim (hfront _) h.not_blank
  ends := by
    obtain ⟨c, hc, hend⟩ := h.ends
    exact ⟨c, by rw [List.getLast?_append, Option.mem_def.1 hc]; rfl, hend⟩

theorem isLiteral_splitSign {text : List Char} (h : IsLiteral (splitSign text).2) :
    IsLiteral text := by
  unfold splitSign at h
  split at h
  · exact h.append ['+'] (List.forall_mem_singleton.2 rfl)
  · exact h.append ['-'] (List.forall_mem_singleton.2 rfl)
  · exact h

theorem isLiteral_decimal? {text : List Char} {n : ℕ} (h : decimal? text = some n) :
    IsLiteral text := by
  unfold decimal? at h
  split_ifs at h with hnone
  simp only [Bool.or_eq_true, Bool.not_eq_true', not_or, Bool.not_eq_false] at hnone
  exact isLiteral_digits (by simpa using hnone.1) (List.all_eq_true.1 hnone.2)

/-- The exponent of a literal is left out or ends in a digit. -/
theorem readExponent_eq_some {text : List Char} {e : ℤ} (h : readExponent text = some e) :
    text = [] ∨ IsLiteral text := by
  cases text with
  | nil => exact Or.inl rfl
  | cons mark text =>
    by_cases hmark : (mark == 'e' || mark == 'E') = true
    · obtain ⟨_, hexponent, -⟩ := Option.map_eq_some_iff.1 ((if_pos hmark).symm.trans h)
      obtain ⟨n, hn, -⟩ := Option.bind_eq_some_iff.1 hexponent
      refine Or.inr ((isLiteral_splitSign (isLiteral_decimal? hn)).append [mark] ?_)
      simp only [Bool.or_eq_true, beq_iff_eq] at hmark
      rcases hmark with rfl | rfl <;> exact List.forall_mem_singleton.2 rfl
    · exact absurd ((if_neg hmark).symm.trans h) (by simp)

/-- What `splitFraction` takes apart, put together again. -/
theorem splitFraction_spec {text fraction rest : List Char}
    (h : splitFraction text = (fraction, rest)) :
    (∀ c ∈ fraction, c.isDigit = true) ∧
      (text = '.' :: (fraction ++ rest) ∨ (fraction = [] ∧ text = rest)) := by
  unfold splitFraction at h
  split at h
  · next text =>
    obtain ⟨rfl, rfl⟩ := Prod.mk.inj h
    exact ⟨fun c hc => List.mem_takeWhile_imp hc,
      Or.inl (by rw [List.takeWhile_append_dropWhile])⟩
  · obtain ⟨rfl, rfl⟩ := Prod.mk.inj h
    exact ⟨by simp, Or.inr ⟨rfl, rfl⟩⟩

theorem isLiteral_readDecimal {text : List Char} {p : ℕ × ℤ} (h : readDecimal text = some p) :
    IsLiteral text := by
  obtain ⟨whole, hwhole⟩ : ∃ whole, whole = text.takeWhile Char.isDigit := ⟨_, rfl⟩
  obtain ⟨fraction, rest, hsplit⟩ :
      ∃ fraction rest, splitFraction (text.dropWhile Char.isDigit) = (fraction, rest) := ⟨_, _, rfl⟩
  obtain ⟨hfraction, hafter⟩ := splitFraction_spec hsplit
  have hdigits : ∀ c ∈ whole, c.isDigit = true := fun c hc =>
    List.mem_takeWhile_imp (hwhole ▸ hc)
  have hfront : ∀ c ∈ whole, isBlank c = false := fun c hc => not_blank_of_isDigit (hdigits c hc)
  unfold readDecimal at h
  simp only [hsplit, ← hwhole] at h
  split_ifs at h with hempty
  obtain ⟨e, he, -⟩ := Option.map_eq_some_iff.1 h
  rw [← @List.takeWhile_append_dropWhile _ Char.isDigit text, ← hwhole]
  rcases readExponent_eq_some he with rfl | hrest
  · rcases hafter with hafter | ⟨rfl, hafter⟩
    · rw [hafter, List.append_nil]
      refine IsLiteral.append ?_ _ hfront
      rcases List.eq_nil_or_concat fraction with rfl | ⟨_, _, rfl⟩
      · exact ⟨fun hc => List.mem_singleton.1 hc ▸ rfl, '.', rfl, Or.inr rfl⟩
      · exact (isLiteral_digits (by simp) hfraction).append ['.']
          (List.forall_mem_singleton.2 rfl)
    · rw [hafter, List.append_nil]
      exact isLiteral_digits (by simpa using hempty) hdigits
  · refine IsLiteral.append ?_ _ hfront
    rcases hafter with hafter | ⟨-, hafter⟩
    · rw [hafter]
      exact (hrest.append _ fun c hc => not_blank_of_isDigit (hfraction c hc)).append ['.']
        (List.forall_mem_singleton.2 rfl)
    · rwa [hafter]

/-- What reads as a finite number is a literal. -/
theorem Binary64.literal_of_read {text : List Char} {negative : Bool} {x : Magnitude}
    (h : Binary64.read text = .ok (.finite negative x)) : IsLiteral text := by
  unfold Binary64.read at h
  split_ifs at h
  dsimp only at h
  cases hdecimal : readDecimal (splitSign text).2 with
  | some p => exact isLiteral_splitSign (isLiteral_readDecimal hdecimal)
  | none =>
    -- the words for the other numbers
    simp only [hdecimal] at h
    split_ifs at h <;> simp at h

end Vitals
