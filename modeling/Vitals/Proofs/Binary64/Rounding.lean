import Mathlib.Algebra.Order.Field.Power
import Mathlib.Algebra.Order.Floor.Semifield
import Mathlib.Data.Int.Log
import Mathlib.Data.Rat.Floor
import Mathlib.Tactic.FieldSimp
import Mathlib.Tactic.Linarith
import Mathlib.Tactic.Positivity
import Mathlib.Tactic.Ring
import Vitals.Binary64.Basic

/-!
# Rounding to the nearest binary64 number

The numbers with 53 bits form a grid that is finer the nearer they are to zero
(`Magnitude.OnGrid`), and `Magnitude.ofQuotient` gives a point of the grid to which no other is
nearer (`Magnitude.nearest_ofQuotient`); so do the product and the sum. Everything else follows
from that : points of the grid are kept (`Nearest.eq_of_onGrid`), rounding does not pass a point of
the grid (`Nearest.le_of_le`, `Nearest.le_of_ge`), and what rounding changes is less than the
`2 ^ 53`-rd part (`Nearest.abs_sub_lt`).
-/

namespace Vitals

/-! ## Integers -/

section

variable (num : ℕ) {den : ℕ}

/-- What is rounded to an integer changes by a half at most. -/
theorem abs_roundHalfEven_sub_le (hden : 0 < den) :
    |(roundHalfEven num den : ℚ) - num / den| ≤ 1 / 2 := by
  have hpos : (0 : ℚ) < den := by exact_mod_cast hden
  have hsplit : (num : ℚ) = den * (num / den : ℕ) + (num % den : ℕ) := by
    exact_mod_cast (Nat.div_add_mod num den).symm
  have hlow : (0 : ℚ) ≤ (num % den : ℕ) := by positivity
  have hhigh : ((num % den : ℕ) : ℚ) ≤ den := by exact_mod_cast (Nat.mod_lt num hden).le
  have hscaled : |(roundHalfEven num den : ℚ) * den - num| ≤ 1 / 2 * den := by
    rw [hsplit, abs_le]
    unfold roundHalfEven
    dsimp only
    split_ifs with hless hmore
    · have : ((2 * (num % den) : ℕ) : ℚ) ≤ den := by exact_mod_cast hless.le
      push_cast at this
      constructor <;> linarith
    · have : (den : ℚ) ≤ (2 * (num % den) : ℕ) := by exact_mod_cast hmore.le
      push_cast at this ⊢
      constructor <;> linarith
    · -- exactly half way, so that either neighbour will do
      have : ((2 * (num % den) : ℕ) : ℚ) = den := by
        exact_mod_cast (by omega : 2 * (num % den) = den)
      push_cast at this
      have hparity : num / den % 2 = 0 ∨ num / den % 2 = 1 := by omega
      rcases hparity with h | h <;> rw [h] <;> push_cast <;> constructor <;> linarith
  rw [← mul_le_mul_iff_of_pos_right hpos, ← abs_of_pos hpos, ← abs_mul, abs_of_pos hpos,
    sub_mul, div_mul_cancel₀ _ hpos.ne']
  exact hscaled

/-- No integer is nearer than the rounded one. -/
theorem abs_roundHalfEven_sub_le_abs (hden : 0 < den) (k : ℤ) :
    |(roundHalfEven num den : ℚ) - num / den| ≤ |(k : ℚ) - num / den| := by
  by_cases hk : (roundHalfEven num den : ℤ) = k
  · rw [← hk, Int.cast_natCast]
  · have happart : (1 : ℚ) ≤ |(k : ℚ) - roundHalfEven num den| := by
      have : (1 : ℤ) ≤ |k - roundHalfEven num den| := Int.one_le_abs (by omega)
      exact_mod_cast this
    have hhalf := abs_roundHalfEven_sub_le num hden
    have htriangle := abs_sub_le (k : ℚ) (num / den) (roundHalfEven num den)
    rw [abs_sub_comm (num / den : ℚ)] at htriangle
    linarith

end

namespace Magnitude

/-! ## Values -/

/-- The number itself. -/
def value (x : Magnitude) : ℚ := x.mant * 2 ^ x.exp

theorem two_zpow_eq (e : ℤ) : (2 : ℚ) ^ e = (2 ^ e.toNat : ℕ) / (2 ^ (-e).toNat : ℕ) := by
  rcases le_total 0 e with h | h
  · obtain ⟨n, rfl⟩ := Int.eq_ofNat_of_zero_le h
    simp
  · obtain ⟨n, hn⟩ := Int.eq_ofNat_of_zero_le (Int.neg_nonneg_of_nonpos h)
    obtain rfl : e = -(n : ℤ) := by omega
    simp

theorem value_eq_div (x : Magnitude) : x.value = x.num / x.den := by
  simp only [value, num, den, two_zpow_eq, Nat.pow_eq, Nat.cast_mul]
  ring

theorem value_nonneg (x : Magnitude) : 0 ≤ x.value := by
  unfold value
  positivity

@[simp] theorem value_zero : zero.value = 0 := by simp [value, zero]

theorem isZero_iff {x : Magnitude} : x.isZero = true ↔ x.value = 0 := by
  simp [isZero, value, zpow_ne_zero]

theorem floor_eq (x : Magnitude) : x.floor = ⌊x.value⌋₊ := by
  rw [floor, value_eq_div, Nat.floor_div_eq_div]

/-- Decimals that are displayed miss by a half of the last place at most. -/
theorem abs_unitsOf_sub_le (places : ℕ) (x : Magnitude) :
    |(x.unitsOf places : ℚ) - x.value * 10 ^ places| ≤ 1 / 2 := by
  have hscaled : ((x.num * Nat.pow 10 places : ℕ) : ℚ) / x.den = x.value * 10 ^ places := by
    rw [value_eq_div, Nat.cast_mul, mul_div_right_comm, Nat.pow_eq, Nat.cast_pow, Nat.cast_ofNat]
  rw [← hscaled]
  exact abs_roundHalfEven_sub_le _ x.den_pos

/-! ## The grid -/

/-- The number has 53 bits at most, none of them below `2 ^ -1074`. -/
def OnGrid (q : ℚ) : Prop := ∃ (m : ℕ) (e : ℤ), m ≤ 2 ^ 53 ∧ -1074 ≤ e ∧ q = m * 2 ^ e

theorem onGrid_natCast {n : ℕ} (h : n ≤ 2 ^ 53) : OnGrid n := ⟨n, 0, h, by omega, by simp⟩

theorem onGrid_zero : OnGrid 0 := by simpa using onGrid_natCast (Nat.zero_le _)

/-- A point of the grid is a whole number of steps, unless it is on a finer part of the grid, all
of which is below `2 ^ 52` steps. -/
theorem OnGrid.steps_or_le {r : ℚ} (h : OnGrid r) (e : ℤ) :
    (∃ k : ℤ, r = k * 2 ^ e) ∨ -1074 < e ∧ r ≤ 2 ^ (e + 52) := by
  obtain ⟨m, e', hm, hleast, rfl⟩ := h
  rcases le_or_gt e e' with hcoarse | hfine
  · obtain ⟨k, rfl⟩ := Int.le.dest hcoarse
    refine Or.inl ⟨m * 2 ^ k, ?_⟩
    rw [zpow_add₀ two_ne_zero, zpow_natCast]
    push_cast
    ring
  · refine Or.inr ⟨by omega, ?_⟩
    calc (m : ℚ) * 2 ^ e' ≤ 2 ^ 53 * 2 ^ (e - 1) := by
          gcongr
          · exact_mod_cast hm
          · norm_num
          · omega
      _ = 2 ^ (e + 52) := by
        rw [← zpow_natCast, ← zpow_add₀ two_ne_zero]
        congr 1
        omega

/-- The magnitude is a point of the grid, and no point of the grid is nearer to the number. -/
structure Nearest (q : ℚ) (x : Magnitude) : Prop where
  onGrid : OnGrid x.value
  le_abs {r : ℚ} (hr : OnGrid r) : |x.value - q| ≤ |r - q|

theorem nearest_zero : Nearest 0 zero := ⟨by simpa using onGrid_zero, fun _ => by simp⟩

section

variable {q r : ℚ} {x : Magnitude}

/-- Points of the grid are kept. -/
theorem Nearest.eq_of_onGrid (h : Nearest q x) (hq : OnGrid q) : x.value = q := by
  have := h.le_abs hq
  rw [sub_self, abs_zero] at this
  linarith [abs_nonpos_iff.1 this]

/-- Rounding up does not pass a point of the grid. -/
theorem Nearest.le_of_le (h : Nearest q x) (hr : OnGrid r) (hle : q ≤ r) : x.value ≤ r := by
  have := h.le_abs hr
  rw [abs_of_nonneg (sub_nonneg.2 hle)] at this
  linarith [le_abs_self (x.value - q)]

/-- Rounding down does not pass a point of the grid. -/
theorem Nearest.le_of_ge (h : Nearest q x) (hr : OnGrid r) (hle : r ≤ q) : r ≤ x.value := by
  have := h.le_abs hr
  rw [abs_of_nonpos (sub_nonpos.2 hle)] at this
  linarith [neg_abs_le (x.value - q)]

/-- The number changes by half a step of its grid at most. -/
theorem Nearest.abs_sub_le_half (h : Nearest q x) (hq : 0 ≤ q) {e : ℤ} (he : -1074 ≤ e)
    (hlt : q < 2 ^ (e + 53)) : |x.value - q| ≤ 2 ^ e / 2 := by
  have hstep : (0 : ℚ) < 2 ^ e := by positivity
  have hbelow : (⌊q / 2 ^ e⌋₊ : ℚ) * 2 ^ e ≤ q := by
    rw [← le_div_iff₀ hstep]
    exact Nat.floor_le (by positivity)
  have habove : q < ((⌊q / 2 ^ e⌋₊ + 1 : ℕ) : ℚ) * 2 ^ e := by
    rw [← div_lt_iff₀ hstep]
    exact_mod_cast Nat.lt_floor_add_one (q / 2 ^ e)
  have hmax : ⌊q / 2 ^ e⌋₊ < 2 ^ 53 := by
    rw [Nat.floor_lt (by positivity), div_lt_iff₀ hstep]
    have := hlt
    rw [zpow_add₀ two_ne_zero] at this
    push_cast
    linarith [this]
  have hlow := h.le_abs ⟨⌊q / 2 ^ e⌋₊, e, hmax.le, he, rfl⟩
  have hhigh := h.le_abs ⟨⌊q / 2 ^ e⌋₊ + 1, e, hmax, he, rfl⟩
  rw [abs_of_nonpos (sub_nonpos.2 hbelow)] at hlow
  rw [abs_of_nonneg (sub_nonneg.2 habove.le)] at hhigh
  push_cast at hhigh
  linarith

/-- The change is less than the `2 ^ 53`-rd part of the number. -/
theorem Nearest.abs_sub_lt (h : Nearest q x) (hq : 2 ^ (-1022 : ℤ) ≤ q) :
    |x.value - q| < q / 2 ^ 53 := by
  have hpos : 0 < q := lt_of_lt_of_le (by positivity) hq
  obtain ⟨e, he⟩ : ∃ e : ℤ, Int.log 2 q = e + 52 := ⟨Int.log 2 q - 52, by omega⟩
  have hlow : (2 : ℚ) ^ (e + 52) ≤ q := by
    rw [← he]
    exact_mod_cast Int.zpow_log_le_self (by decide) hpos
  have hhigh : q < 2 ^ (e + 53) := by
    have := Int.lt_zpow_succ_log_self (by decide : 1 < 2) q
    rw [he, add_assoc] at this
    exact_mod_cast this
  have hleast : -1074 ≤ e := by
    have : (2 : ℚ) ^ (-1022 : ℤ) < 2 ^ (e + 53) := hq.trans_lt hhigh
    rw [zpow_lt_zpow_iff_right₀ (by norm_num)] at this
    omega
  rcases hlow.eq_or_lt with heq | hlt
  · -- the least number of its binade is on the grid
    rw [h.eq_of_onGrid ⟨2 ^ 52, e, by norm_num, hleast, by
      rw [← heq, zpow_add₀ two_ne_zero]; push_cast; ring⟩, sub_self, abs_zero]
    positivity
  · calc |x.value - q| ≤ 2 ^ e / 2 := h.abs_sub_le_half hpos.le hleast hhigh
      _ = 2 ^ (e + 52) / 2 ^ 53 := by
        rw [zpow_add₀ two_ne_zero]
        norm_num
        ring
      _ < q / 2 ^ 53 := by
        rw [div_lt_div_iff_of_pos_right (by positivity)]
        exact hlt

end

/-! ## Quotients -/

section

variable {num den : ℕ} {x : Magnitude}

/-- The lengths of two numbers in bits tell their quotient up to a factor of four. -/
theorem quotient_log2 (hnum : 0 < num) (hden : 0 < den) :
    (2 : ℚ) ^ ((num.log2 : ℤ) - den.log2 - 1) ≤ num / den ∧
      (num / den : ℚ) < 2 ^ ((num.log2 : ℤ) - den.log2 + 1) := by
  have hdenpos : (0 : ℚ) < den := by exact_mod_cast hden
  have hnumlow : (2 : ℚ) ^ (num.log2 : ℤ) ≤ num := by
    exact_mod_cast Nat.log2_self_le hnum.ne'
  have hnumhigh : (num : ℚ) < 2 ^ ((num.log2 : ℤ) + 1) := by exact_mod_cast Nat.lt_log2_self
  have hdenlow : (2 : ℚ) ^ (den.log2 : ℤ) ≤ den := by
    exact_mod_cast Nat.log2_self_le hden.ne'
  have hdenhigh : (den : ℚ) < 2 ^ ((den.log2 : ℤ) + 1) := by exact_mod_cast Nat.lt_log2_self
  rw [le_div_iff₀ hdenpos, div_lt_iff₀ hdenpos]
  constructor
  · calc (2 : ℚ) ^ ((num.log2 : ℤ) - den.log2 - 1) * den
        ≤ 2 ^ ((num.log2 : ℤ) - den.log2 - 1) * 2 ^ ((den.log2 : ℤ) + 1) := by gcongr
      _ = 2 ^ (num.log2 : ℤ) := by
        rw [← zpow_add₀ two_ne_zero]
        congr 1
        omega
      _ ≤ num := hnumlow
  · calc (num : ℚ) < 2 ^ ((num.log2 : ℤ) + 1) := hnumhigh
      _ = 2 ^ ((num.log2 : ℤ) - den.log2 + 1) * 2 ^ (den.log2 : ℤ) := by
        rw [← zpow_add₀ two_ne_zero]
        congr 1
        omega
      _ ≤ 2 ^ ((num.log2 : ℤ) - den.log2 + 1) * den := by gcongr

/-- The exponent that gives the numbers of a binade 53 bits, or the least one. -/
theorem binade_spec {q : ℚ} {e : ℤ} (hlow : (2 : ℚ) ^ e ≤ q) (hhigh : q < 2 ^ (e + 1)) :
    q < 2 ^ (max (-1074) (e - 52) + 53) ∧
      (max (-1074) (e - 52) = -1074 ∨ (2 : ℚ) ^ (max (-1074) (e - 52) + 52) ≤ q) := by
  refine ⟨hhigh.trans_le (zpow_le_zpow_right₀ one_le_two (by omega)), ?_⟩
  rcases le_total (e - 52) (-1074) with hmin | hmin
  · exact Or.inl (max_eq_left hmin)
  · exact Or.inr ((zpow_le_zpow_right₀ one_le_two (by omega)).trans hlow)

/-- The exponent puts a quotient below `2 ^ 53` steps, and at `2 ^ 52` of them or more unless it
is the least exponent. -/
theorem exponentFor_spec (hnum : 0 < num) (hden : 0 < den) :
    -1074 ≤ exponentFor num den ∧ (num / den : ℚ) < 2 ^ (exponentFor num den + 53) ∧
      (exponentFor num den = -1074 ∨ (2 : ℚ) ^ (exponentFor num den + 52) ≤ num / den) := by
  have hdenpos : (0 : ℚ) < den := by exact_mod_cast hden
  obtain ⟨hlow, hhigh⟩ := quotient_log2 hnum hden
  obtain ⟨estimate, hestimate⟩ : ∃ e : ℤ, (num.log2 : ℤ) - den.log2 = e := ⟨_, rfl⟩
  rw [hestimate] at hlow hhigh
  have hatLeast : den * Nat.pow 2 estimate.toNat ≤ num * Nat.pow 2 (-estimate).toNat ↔
      (2 : ℚ) ^ estimate ≤ num / den := by
    rw [two_zpow_eq, div_le_div_iff₀ (by positivity) hdenpos, ← Nat.cast_mul, ← Nat.cast_mul,
      Nat.cast_le, Nat.mul_comm den]
    rfl
  unfold exponentFor
  simp only [hestimate]
  refine ⟨le_max_left _ _, ?_⟩
  by_cases h : (2 : ℚ) ^ estimate ≤ num / den
  · simp only [hatLeast.2 h, decide_true, if_true]
    exact binade_spec h hhigh
  · simp only [mt hatLeast.1 h, decide_false, Bool.false_eq_true, if_false]
    exact binade_spec hlow (by rw [sub_add_cancel]; exact lt_of_not_ge h)

/-- The nearest number of steps, measured in numbers. -/
theorem abs_scaled_sub_le (num : ℕ) (hden : 0 < den) (e k : ℤ) :
    |(scaled num den e : ℚ) * 2 ^ e - num / den| ≤ |k * 2 ^ e - (num / den : ℚ)| := by
  have hstep : (0 : ℚ) < 2 ^ e := by positivity
  have hquotient : ((num * Nat.pow 2 (-e).toNat : ℕ) : ℚ) / (den * Nat.pow 2 e.toNat : ℕ) =
      num / den / 2 ^ e := by
    simp only [two_zpow_eq, Nat.pow_eq, Nat.cast_mul]
    field_simp
  have hmeasure (i : ℚ) : |i * 2 ^ e - num / den| = |i - num / den / 2 ^ e| * 2 ^ e := by
    rw [← abs_of_pos hstep, ← abs_mul, abs_of_pos hstep, sub_mul, div_mul_cancel₀ _ hstep.ne']
  have hden' : 0 < den * Nat.pow 2 e.toNat := Nat.mul_pos hden (Nat.two_pow_pos _)
  have hnearest := abs_roundHalfEven_sub_le_abs (num * Nat.pow 2 (-e).toNat) hden' k
  rw [hquotient] at hnearest
  rw [hmeasure, hmeasure]
  exact mul_le_mul_of_nonneg_right hnearest hstep.le

/-- A quotient that is not zero is rounded to its nearest number of steps. -/
theorem value_of_ofQuotient (hnum : num ≠ 0) (h : ofQuotient num den = some x) :
    x.value = scaled num den (exponentFor num den) * 2 ^ exponentFor num den := by
  unfold ofQuotient at h
  simp only [if_neg hnum] at h
  split_ifs at h with hcarry
  · rw [hcarry, ← Option.some.inj h, value]
    simp only [leastFull, zpow_add₀ (two_ne_zero : (2 : ℚ) ≠ 0), zpow_one]
    push_cast
    ring
  · rw [← Option.some.inj h, value]

/-- No quotient up to `2 ^ 1000` is too large. -/
theorem exists_ofQuotient (hden : 0 < den) (hmax : (num / den : ℚ) ≤ 2 ^ (1000 : ℤ)) :
    ∃ x, ofQuotient num den = some x := by
  rcases Nat.eq_zero_or_pos num with rfl | hnum
  · exact ⟨zero, rfl⟩
  obtain ⟨-, -, hleast⟩ := exponentFor_spec hnum hden
  have hexp : exponentFor num den ≤ 948 := by
    rcases hleast with h | h
    · omega
    · have := (zpow_le_zpow_iff_right₀ (by norm_num : (1 : ℚ) < 2)).1 (h.trans hmax)
      omega
  have hbound : (if scaled num den (exponentFor num den) = 2 * leastFull
      then (⟨leastFull, exponentFor num den + 1⟩ : Magnitude)
      else ⟨scaled num den (exponentFor num den), exponentFor num den⟩).exp ≤ 971 := by
    split_ifs
    · exact (by omega : exponentFor num den + 1 ≤ 971)
    · exact (by omega : exponentFor num den ≤ 971)
  exact ⟨_, (if_neg hnum.ne').trans (if_pos hbound)⟩

/-- Quotients are rounded to the nearest point of the grid. -/
theorem nearest_ofQuotient (hden : 0 < den) (h : ofQuotient num den = some x) :
    Nearest (num / den) x := by
  rcases Nat.eq_zero_or_pos num with rfl | hnum
  · obtain rfl : zero = x := Option.some.inj h
    simpa using nearest_zero
  obtain ⟨hmin, hhigh, hleast⟩ := exponentFor_spec hnum hden
  have hscaled := abs_scaled_sub_le num hden (exponentFor num den)
  rw [← value_of_ofQuotient hnum.ne' h] at hscaled
  have hvalue := value_of_ofQuotient hnum.ne' h
  generalize exponentFor num den = e at *
  have hstep : (0 : ℚ) < 2 ^ e := by positivity
  refine ⟨⟨_, e, ?_, hmin, hvalue⟩, ?_⟩
  · -- `2 ^ 53` steps are above the quotient, so the nearest number of steps is not above them
    have hfull := hscaled (2 ^ 53)
    have hle : (num / den : ℚ) ≤ ((2 ^ 53 : ℤ) : ℚ) * 2 ^ e := by
      rw [zpow_add₀ two_ne_zero] at hhigh
      push_cast
      linarith
    rw [abs_of_nonneg (sub_nonneg.2 hle)] at hfull
    have hvalueLe : x.value ≤ ((2 ^ 53 : ℤ) : ℚ) * 2 ^ e :=
      (sub_le_sub_iff_right _).1 ((le_abs_self _).trans hfull)
    rw [hvalue, mul_le_mul_iff_of_pos_right hstep] at hvalueLe
    exact_mod_cast hvalueLe
  · intro r hr
    rcases hr.steps_or_le e with ⟨k, rfl⟩ | ⟨hfine, hbelow⟩
    · exact hscaled k
    · -- the least point of the binade is between the other one and the quotient
      have hbinade : (2 : ℚ) ^ (e + 52) ≤ num / den := hleast.resolve_left (by omega)
      have hleastFull := hscaled (2 ^ 52)
      have hsteps : ((2 ^ 52 : ℤ) : ℚ) * 2 ^ e = 2 ^ (e + 52) := by
        rw [zpow_add₀ two_ne_zero]
        push_cast
        ring
      rw [hsteps, abs_of_nonpos (sub_nonpos.2 hbinade)] at hleastFull
      linarith [neg_abs_le (r - num / den)]

end

/-! ## Arithmetic -/

section

variable {x y z : Magnitude}

theorem nearest_ofNat {n : ℕ} (h : ofNat n = some x) : Nearest n x := by
  simpa using nearest_ofQuotient Nat.one_pos h

/-- Numbers up to `2 ^ 53` have a magnitude. -/
theorem exists_ofNat {n : ℕ} (hn : n ≤ 2 ^ 53) : ∃ x, ofNat n = some x ∧ x.value = n := by
  have hmax : ((n : ℕ) / (1 : ℕ) : ℚ) ≤ 2 ^ (1000 : ℤ) := by
    rw [Nat.cast_one, div_one]
    calc (n : ℚ) ≤ 2 ^ 53 := by exact_mod_cast hn
      _ = 2 ^ (53 : ℤ) := by norm_num
      _ ≤ 2 ^ (1000 : ℤ) := zpow_le_zpow_right₀ one_le_two (by decide)
  obtain ⟨x, hx⟩ := exists_ofQuotient Nat.one_pos hmax
  exact ⟨x, hx, (nearest_ofNat hx).eq_of_onGrid (onGrid_natCast hn)⟩

theorem nearest_mul (h : x.mul y = some z) : Nearest (x.value * y.value) z := by
  have := nearest_ofQuotient (Nat.mul_pos x.den_pos y.den_pos) h
  rwa [Nat.cast_mul, Nat.cast_mul, ← div_mul_div_comm, ← value_eq_div, ← value_eq_div] at this

theorem exists_mul (hmax : x.value * y.value ≤ 2 ^ (1000 : ℤ)) : ∃ z, x.mul y = some z := by
  refine exists_ofQuotient (Nat.mul_pos x.den_pos y.den_pos) ?_
  rwa [Nat.cast_mul, Nat.cast_mul, ← div_mul_div_comm, ← value_eq_div, ← value_eq_div]

theorem add_quotient (x y : Magnitude) :
    ((x.num * y.den + y.num * x.den : ℕ) : ℚ) / (x.den * y.den : ℕ) = x.value + y.value := by
  have hx : (x.den : ℚ) ≠ 0 := by exact_mod_cast x.den_pos.ne'
  have hy : (y.den : ℚ) ≠ 0 := by exact_mod_cast y.den_pos.ne'
  rw [value_eq_div, value_eq_div, div_add_div _ _ hx hy]
  push_cast
  ring

theorem nearest_add (h : x.add y = some z) : Nearest (x.value + y.value) z := by
  rw [← add_quotient]
  exact nearest_ofQuotient (Nat.mul_pos x.den_pos y.den_pos) h

theorem exists_add (hmax : x.value + y.value ≤ 2 ^ (1000 : ℤ)) : ∃ z, x.add y = some z :=
  exists_ofQuotient (Nat.mul_pos x.den_pos y.den_pos) ((add_quotient x y).trans_le hmax)

end

end Magnitude

end Vitals
