import Vitals.Proofs.Duration.Grammar

/-!
# How exactly a duration is read

The number in front of a unit is rounded to a binary64 number, its product with the unit is
rounded once more, and the whole nanoseconds are kept. So a numeral that makes a whole number of
nanoseconds, `2 ^ 53` of them at most, is read exactly if it is a binary64 number itself, such as
every whole number and `2.5`. Any other may miss by one nanosecond, and only to the side to which
the numeral was rounded (`Duration.parse_numeral`).
-/

namespace Vitals

open Magnitude

namespace Duration

/-! ## Two roundings and the whole nanoseconds -/

section

variable {q : ℚ} {unit n : ℕ} {count product : Magnitude}

/-- A number that makes a nanosecond or more is not too small to be rounded. -/
theorem le_of_mul_eq (hunit : 0 < unit) (hmax : unit ≤ 2 ^ 53) (hvalue : q * unit = n)
    (hn : 0 < n) : (2 : ℚ) ^ (-53 : ℤ) ≤ q := by
  have hpos : (0 : ℚ) < unit := by exact_mod_cast hunit
  refine le_of_mul_le_mul_right ?_ hpos
  calc (2 : ℚ) ^ (-53 : ℤ) * unit ≤ 2 ^ (-53 : ℤ) * (2 ^ 53 : ℕ) := by gcongr
    _ = 1 := by norm_num
    _ ≤ q * unit := by
      rw [hvalue]
      exact_mod_cast hn

/-- What the rounding of the number makes is less than the `2 ^ 53`-rd part of the nanoseconds. -/
theorem abs_mul_sub_lt (hcount : Nearest q count) (hunit : 0 < unit) (hmax : unit ≤ 2 ^ 53)
    (hvalue : q * unit = n) {bound : ℚ} (hbound : 0 < bound) (hn : n ≤ bound * 2 ^ 53) :
    |count.value * unit - n| < bound := by
  have hpos : (0 : ℚ) < unit := by exact_mod_cast hunit
  rw [← hvalue, ← sub_mul, abs_mul, abs_of_pos hpos]
  rcases Nat.eq_zero_or_pos n with rfl | hnpos
  · obtain rfl : q = 0 := by simpa [hpos.ne'] using hvalue
    rw [hcount.eq_of_onGrid onGrid_zero, sub_self, abs_zero, zero_mul]
    exact hbound
  · have hnormal : (2 : ℚ) ^ (-1022 : ℤ) ≤ q :=
      (zpow_le_zpow_right₀ one_le_two (by decide)).trans (le_of_mul_eq hunit hmax hvalue hnpos)
    calc |count.value - q| * unit < q / 2 ^ 53 * unit :=
          mul_lt_mul_of_pos_right (hcount.abs_sub_lt hnormal) hpos
      _ = n / 2 ^ 53 := by rw [← hvalue, mul_div_right_comm]
      _ ≤ bound := (div_le_iff₀ (by positivity)).2 hn

/-- The product is no farther from the exact number of nanoseconds than twice what the rounding of
the number makes. -/
theorem abs_product_sub_le (hproduct : Nearest (count.value * unit) product) (hmax : n ≤ 2 ^ 53) :
    |product.value - n| ≤ 2 * |count.value * unit - n| := by
  have hnear := hproduct.le_abs (onGrid_natCast hmax)
  have htriangle := abs_sub_le product.value (count.value * unit) n
  rw [abs_sub_comm (n : ℚ)] at hnear
  linarith

/-- The rounded product stays on the side of the exact one on which the number was rounded. -/
theorem le_product (hproduct : Nearest (count.value * unit) product) (hmax : n ≤ 2 ^ 53)
    (hvalue : q * unit = n) (hle : q ≤ count.value) : (n : ℚ) ≤ product.value := by
  refine hproduct.le_of_ge (onGrid_natCast hmax) ?_
  rw [← hvalue]
  exact mul_le_mul_of_nonneg_right hle (Nat.cast_nonneg _)

theorem product_le (hproduct : Nearest (count.value * unit) product) (hmax : n ≤ 2 ^ 53)
    (hvalue : q * unit = n) (hle : count.value ≤ q) : product.value ≤ n := by
  refine hproduct.le_of_le (onGrid_natCast hmax) ?_
  rw [← hvalue]
  exact mul_le_mul_of_nonneg_right hle (Nat.cast_nonneg _)

/-- The product of a binary64 number is exact. -/
theorem product_eq (hcount : Nearest q count) (hproduct : Nearest (count.value * unit) product)
    (hmax : n ≤ 2 ^ 53) (hvalue : q * unit = n) (hgrid : OnGrid q) : product.value = n := by
  rw [hcount.eq_of_onGrid hgrid, hvalue] at hproduct
  exact hproduct.eq_of_onGrid (onGrid_natCast hmax)

/-- The whole nanoseconds of the product miss by one at most. -/
theorem floor_product_near (hcount : Nearest q count)
    (hproduct : Nearest (count.value * unit) product) (hunit : 0 < unit) (hunitMax : unit ≤ 2 ^ 53)
    (hvalue : q * unit = n) (hmax : n ≤ 2 ^ 53) :
    n ≤ ⌊product.value⌋₊ + 1 ∧ ⌊product.value⌋₊ ≤ n + 1 := by
  have hnmax : (n : ℚ) ≤ 2 ^ 53 := by exact_mod_cast hmax
  have hclose := abs_mul_sub_lt hcount hunit hunitMax hvalue one_pos (by rwa [one_mul])
  have hdistance := abs_product_sub_le hproduct hmax
  constructor
  · rcases n with - | n
    · exact Nat.zero_le _
    · -- the number before the exact one is on the grid and still below the product
      have hbelow : (n : ℚ) ≤ count.value * unit := by
        have := (abs_lt.1 hclose).1
        push_cast at this
        linarith
      have := Nat.le_floor (hproduct.le_of_ge (onGrid_natCast (by omega)) hbelow)
      omega
  · have hless : product.value < ((n + 2 : ℕ) : ℚ) := by
      push_cast
      linarith [le_abs_self (product.value - n)]
    exact Nat.lt_succ_iff.1 ((Nat.floor_lt product.value_nonneg).2 hless)

/-- Up to `2 ^ 52` there is never one too many. -/
theorem floor_product_le (hcount : Nearest q count)
    (hproduct : Nearest (count.value * unit) product) (hunit : 0 < unit) (hunitMax : unit ≤ 2 ^ 53)
    (hvalue : q * unit = n) (hmax : n ≤ 2 ^ 52) : ⌊product.value⌋₊ ≤ n := by
  have hnmax : (n : ℚ) ≤ 1 / 2 * 2 ^ 53 := by
    calc (n : ℚ) ≤ 2 ^ 52 := by exact_mod_cast hmax
      _ = 1 / 2 * 2 ^ 53 := by norm_num
  have hclose := abs_mul_sub_lt hcount hunit hunitMax hvalue one_half_pos hnmax
  have hdistance := abs_product_sub_le hproduct (hmax.trans (by norm_num))
  have hless : product.value < ((n + 1 : ℕ) : ℚ) := by
    push_cast
    linarith [le_abs_self (product.value - n)]
  exact Nat.lt_succ_iff.1 ((Nat.floor_lt product.value_nonneg).2 hless)

end

/-! ## Numerals with a unit -/

section

variable (numeral : Numeral) {ending before between after : List Char} {unit n : ℕ}

/-- White space around a numeral with a unit is left out. -/
theorem trim_numeral (hunit : (ending, unit) ∈ units) (hbefore : ∀ c ∈ before, isBlank c = true)
    (hafter : ∀ c ∈ after, isBlank c = true) :
    trim (before ++ (numeral.text ++ between ++ ending) ++ after) =
      numeral.text ++ between ++ ending := by
  obtain ⟨hne, hunitBlank⟩ := not_blank_of_mem_units _ hunit
  obtain ⟨d, hd, rest, htext⟩ := numeral.exists_cons_text
  refine trim_append hbefore hafter (by simp [hne]) (fun c hc => ?_) fun c hc => ?_
  · rw [htext, List.cons_append, List.cons_append, List.head?_cons] at hc
    obtain rfl := Option.some.inj hc
    exact not_blank_of_isDigit hd
  · rw [List.getLast?_append_of_ne_nil _ hne] at hc
    simpa using List.all_eq_true.1 hunitBlank c (List.mem_of_mem_getLast? hc)

/-- A numeral that makes up to `2 ^ 53` nanoseconds is rounded to the number nearest to it. -/
theorem exists_count (hunit : (ending, unit) ∈ units) (hvalue : numeral.value * unit = n)
    (hmax : n ≤ 2 ^ 53) : ∃ count, Binary64.read numeral.text = .ok (.finite false count) ∧
      Nearest numeral.value count := by
  obtain ⟨hpos, hunitMax⟩ := unit_pos _ hunit
  have hlow : numeral.value = 0 ∨ (10 : ℚ) ^ (-300 : ℤ) ≤ numeral.value := by
    rcases Nat.eq_zero_or_pos n with rfl | hn
    · have hzero : numeral.value = 0 ∨ unit = 0 := by simpa using hvalue
      exact Or.inl (hzero.resolve_right hpos.ne')
    · refine Or.inr (le_trans ?_ (le_of_mul_eq hpos hunitMax hvalue hn))
      calc (10 : ℚ) ^ (-300 : ℤ) ≤ 10 ^ (-16 : ℤ) := zpow_le_zpow_right₀ (by norm_num) (by decide)
        _ ≤ 2 ^ (-53 : ℤ) := by norm_num
  have hhigh : numeral.value ≤ 10 ^ (300 : ℤ) := by
    calc numeral.value ≤ numeral.value * unit :=
          le_mul_of_one_le_right numeral.value_nonneg (by exact_mod_cast hpos)
      _ ≤ 2 ^ 53 := hvalue.trans_le (by exact_mod_cast hmax)
      _ ≤ 10 ^ (16 : ℤ) := by norm_num
      _ ≤ 10 ^ (300 : ℤ) := zpow_le_zpow_right₀ (by norm_num) (by decide)
  exact numeral.exists_read hlow hhigh

/-- The rounded product of a rounded number with its unit is neither too large for a binary64
number nor for a duration. -/
theorem exists_product {q : ℚ} {count factor : Magnitude} (hunit : (ending, unit) ∈ units)
    (hcount : Nearest q count) (hfactor : factor.value = unit) (hvalue : q * unit = n)
    (hmax : n ≤ 2 ^ 53) : ∃ product, count.mul factor = some product ∧
      Nearest (count.value * unit) product ∧ wholeNanos (some product) = ⌊product.value⌋₊ := by
  obtain ⟨hpos, hunitMax⟩ := unit_pos _ hunit
  have hnmax : (n : ℚ) ≤ 2 ^ 53 := by exact_mod_cast hmax
  have hclose := abs_mul_sub_lt hcount hpos hunitMax hvalue one_pos (by rwa [one_mul])
  obtain ⟨product, hproduct⟩ : ∃ product, count.mul factor = some product := by
    refine exists_mul ?_
    rw [hfactor]
    calc count.value * unit ≤ 2 ^ 53 + 1 := by linarith [(abs_lt.1 hclose).2]
      _ ≤ 2 ^ (54 : ℤ) := by norm_num
      _ ≤ 2 ^ (1000 : ℤ) := zpow_le_zpow_right₀ one_le_two (by decide)
  have hnearest : Nearest (count.value * unit) product := hfactor ▸ nearest_mul hproduct
  have hdistance := abs_product_sub_le hnearest hmax
  refine ⟨product, hproduct, hnearest, min_eq_left (Nat.floor_le_of_le ?_)⟩
  calc product.value ≤ 2 ^ 53 + 2 := by linarith [le_abs_self (product.value - n)]
    _ ≤ longest := by norm_num [longest]

/-- A numeral that makes up to `2 ^ 53` nanoseconds is read, whatever white space is around it. -/
theorem exists_parse_numeral (hunit : (ending, unit) ∈ units)
    (hbefore : ∀ c ∈ before, isBlank c = true) (hbetween : ∀ c ∈ between, isBlank c = true)
    (hafter : ∀ c ∈ after, isBlank c = true) (hvalue : numeral.value * unit = n)
    (hmax : n ≤ 2 ^ 53) :
    ∃ count product, Nearest numeral.value count ∧ Nearest (count.value * unit) product ∧
      parse (String.ofList (before ++ (numeral.text ++ between ++ ending) ++ after)) =
        .ok ⟨⌊product.value⌋₊⟩ := by
  obtain ⟨count, hread, hcount⟩ := exists_count numeral hunit hvalue hmax
  obtain ⟨factor, hfactor, hfactorValue⟩ := exists_factor hunit
  obtain ⟨product, hproduct, hnearest, hwhole⟩ :=
    exists_product hunit hcount hfactorValue hvalue hmax
  have hcounts : Counts (String.ofList (before ++ (numeral.text ++ between ++ ending) ++ after))
      ending unit count := by
    refine ⟨hunit, numeral.text, between, false, ?_, hbetween, hread, by simp⟩
    rw [String.toList_ofList]
    exact trim_numeral numeral hunit hbefore hafter
  refine ⟨count, product, hcount, hnearest, ?_⟩
  rw [hcounts.parse_eq hfactor, hproduct, hwhole]

/-- A numeral that makes a whole number of nanoseconds, `2 ^ 53` at most, is rounded to a binary64
number, its product with the unit is rounded, and the whole nanoseconds of that are kept. They miss
by one nanosecond at most, by one too many only beyond `2 ^ 52`, and only to the side to which the
numeral was rounded; so they are exact if the numeral is a binary64 number itself. -/
theorem parse_numeral (hunit : (ending, unit) ∈ units)
    (hbefore : ∀ c ∈ before, isBlank c = true) (hbetween : ∀ c ∈ between, isBlank c = true)
    (hafter : ∀ c ∈ after, isBlank c = true) (hvalue : numeral.value * unit = n)
    (hmax : n ≤ 2 ^ 53) :
    ∃ count product d, Nearest numeral.value count ∧ Nearest (count.value * unit) product ∧
      parse (String.ofList (before ++ (numeral.text ++ between ++ ending) ++ after)) = .ok d ∧
      d.nanos = ⌊product.value⌋₊ ∧ n ≤ d.nanos + 1 ∧ d.nanos ≤ n + 1 ∧
      (n ≤ 2 ^ 52 → d.nanos ≤ n) ∧ (numeral.value ≤ count.value → n ≤ d.nanos) ∧
      (count.value ≤ numeral.value → d.nanos ≤ n) ∧ (OnGrid numeral.value → d.nanos = n) := by
  obtain ⟨count, product, hcount, hproduct, hparse⟩ :=
    exists_parse_numeral numeral hunit hbefore hbetween hafter hvalue hmax
  obtain ⟨hpos, hunitMax⟩ := unit_pos _ hunit
  obtain ⟨hlow, hhigh⟩ := floor_product_near hcount hproduct hpos hunitMax hvalue hmax
  refine ⟨count, product, _, hcount, hproduct, hparse, rfl, hlow, hhigh, fun hsmall => ?_,
    fun hle => ?_, fun hle => ?_, fun hgrid => ?_⟩
  · exact floor_product_le hcount hproduct hpos hunitMax hvalue hsmall
  · exact Nat.le_floor (le_product hproduct hmax hvalue hle)
  · exact Nat.floor_le_of_le (product_le hproduct hmax hvalue hle)
  · show ⌊product.value⌋₊ = n
    rw [product_eq hcount hproduct hmax hvalue hgrid, Nat.floor_natCast]

/-- Beyond `2 ^ 52` nanoseconds a numeral that is rounded up may make one too many. -/
example : parse "8388608.000000001s" = .ok ⟨8388608000000002⟩ := by rfl

/-- Two and a half is a binary64 number, so that two seconds and a half are read exactly. -/
theorem parse_numeral_twoAndAHalf :
    (⟨['2'], ['5'], by decide, by decide⟩ : Numeral).value * (1000000000 : ℕ) =
        (2500000000 : ℕ) ∧
      parse " 2.5 s " = .ok ⟨2500000000⟩ := by
  have hvalue : (⟨['2'], ['5'], by decide, by decide⟩ : Numeral).value = 5 / 2 := by
    have htwo : numberIn 10 ['2'] = 2 := by decide
    have hfive : numberIn 10 ['5'] = 5 := by decide
    norm_num [Numeral.value, htwo, hfive]
  have hexact : (⟨['2'], ['5'], by decide, by decide⟩ : Numeral).value * (1000000000 : ℕ) =
      (2500000000 : ℕ) := by
    rw [hvalue]
    norm_num
  have hseconds : (['s'], 1000000000) ∈ units := by decide
  have hblank : ∀ c ∈ [' '], isBlank c = true := List.forall_mem_singleton.2 rfl
  obtain ⟨-, -, d, -, -, hparse, -, -, -, -, -, -, hgrid⟩ :=
    parse_numeral _ hseconds hblank hblank hblank hexact (by norm_num)
  have hd : d = ⟨2500000000⟩ :=
    congrArg Duration.mk (hgrid ⟨5, -1, by norm_num, by decide, by rw [hvalue]; norm_num⟩)
  exact ⟨hexact, hd ▸ hparse⟩

/-- The binary64 number nearest to four and a tenth is below it, and so is its product : a
nanosecond is lost. -/
theorem parse_fourPointOne :
    (⟨['4'], ['1'], by decide, by decide⟩ : Numeral).value * (1000000000 : ℕ) =
        (4100000000 : ℕ) ∧
      parse "4.1s" = .ok ⟨4099999999⟩ := by
  have hfour : numberIn 10 ['4'] = 4 := by decide
  have hone : numberIn 10 ['1'] = 1 := by decide
  refine ⟨?_, by rfl⟩
  norm_num [Numeral.value, hfour, hone]

end

end Duration

end Vitals
