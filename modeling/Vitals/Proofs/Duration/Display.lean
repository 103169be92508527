import Vitals.Proofs.Duration.Precision

/-!
# Displayed durations read back

A duration is displayed as a numeral with a unit, so `Duration.parse` reads every one that is
displayed (`Duration.parse_display`). A duration that is displayed without loss reads back as it
was. Any other is less than one step of the display away : microseconds and milliseconds are cut
off, and the hundredths of a second are the nearest (`Duration.hundredths_near`) to a number of
seconds that was rounded itself (`Duration.seconds_near`).
-/

namespace Vitals

open Magnitude

/-! ## Displayed numerals -/

namespace Numeral

/-- The numeral of a number. -/
def ofNat (n : ℕ) : Numeral where
  whole := Nat.toDigits 10 n
  fraction := []
  whole_ne_nil := Nat.toDigits_ne_nil
  all_isDigit := by
    rw [List.append_nil]
    exact List.all_eq_true.2 (isDigit_toDigits n)

@[simp] theorem text_ofNat (n : ℕ) : (ofNat n).text = Nat.toDigits 10 n := by simp [text, ofNat]

@[simp] theorem value_ofNat (n : ℕ) : (ofNat n).value = n := by
  have hnil : numberIn 10 [] = 0 := rfl
  simp [value, ofNat, hnil]

/-- The numeral of a number of hundredths, with two digits after the point. -/
def ofHundredths (n : ℕ) : Numeral where
  whole := Nat.toDigits 10 (n / 100)
  fraction := (Nat.toDigits 10 (n % 100)).leftpad 2 '0'
  whole_ne_nil := Nat.toDigits_ne_nil
  all_isDigit := List.all_eq_true.2 fun c hc => (List.mem_append.1 hc).elim
    (isDigit_toDigits _ c) (isDigit_leftpad (isDigit_toDigits _) 2 c)

theorem length_fraction_ofHundredths (n : ℕ) : (ofHundredths n).fraction.length = 2 := by
  have hlength : (Nat.toDigits 10 (n % 100)).length ≤ 2 :=
    (Nat.length_toDigits_le_iff (by decide) (by decide)).2 (Nat.mod_lt n (by decide))
  simp only [ofHundredths, List.leftpad, List.length_append, List.length_replicate]
  omega

theorem text_ofHundredths (n : ℕ) : (ofHundredths n).text =
    Nat.toDigits 10 (n / 100) ++ '.' :: (Nat.toDigits 10 (n % 100)).leftpad 2 '0' := by
  have hne : (ofHundredths n).fraction ≠ [] :=
    List.ne_nil_of_length_eq_add_one (length_fraction_ofHundredths n)
  rw [text, if_neg hne]
  rfl

@[simp] theorem value_ofHundredths (n : ℕ) : (ofHundredths n).value = n / 100 := by
  have hsplit : (n : ℚ) = 100 * (n / 100 : ℕ) + (n % 100 : ℕ) := by
    exact_mod_cast (Nat.div_add_mod n 100).symm
  rw [value, length_fraction_ofHundredths]
  simp only [ofHundredths, numberIn_leftpad (isDigit_toDigits _), numberIn_toDigits]
  linarith

end Numeral

namespace Duration

section

variable {ending : List Char} {unit : ℕ}

/-- Whole numbers of a unit are read exactly. -/
theorem parse_whole (n : ℕ) (hunit : (ending, unit) ∈ units) (hmax : n * unit ≤ 2 ^ 53) :
    parse (String.ofList (Nat.toDigits 10 n ++ ending)) = .ok ⟨n * unit⟩ := by
  have hblank : ∀ c ∈ ([] : List Char), isBlank c = true := by simp
  have hvalue : (Numeral.ofNat n).value * unit = (n * unit : ℕ) := by simp
  obtain ⟨count, product, hcount, hproduct, hparse⟩ :=
    exists_parse_numeral (Numeral.ofNat n) hunit hblank hblank hblank hvalue hmax
  have hgrid : OnGrid (Numeral.ofNat n).value := by
    rw [Numeral.value_ofNat]
    exact onGrid_natCast ((Nat.le_mul_of_pos_right n (unit_pos _ hunit).1).trans hmax)
  rw [product_eq hcount hproduct hmax hvalue hgrid, Nat.floor_natCast] at hparse
  simpa using hparse

/-- Hundredths of seconds are read, and miss by a nanosecond at most. -/
theorem parse_hundredths (n : ℕ) (hmax : n * 10000000 ≤ 2 ^ 53) :
    ∃ d, parse (String.ofList ((Numeral.ofHundredths n).text ++ ['s'])) = .ok d ∧
      n * 10000000 ≤ d.nanos + 1 ∧ d.nanos ≤ n * 10000000 + 1 := by
  have hblank : ∀ c ∈ ([] : List Char), isBlank c = true := by simp
  have hunit : (['s'], 1000000000) ∈ units := by decide
  have hvalue : (Numeral.ofHundredths n).value * (1000000000 : ℕ) = (n * 10000000 : ℕ) := by
    rw [Numeral.value_ofHundredths]
    push_cast
    ring
  obtain ⟨count, product, hcount, hproduct, hparse⟩ :=
    exists_parse_numeral (Numeral.ofHundredths n) hunit hblank hblank hblank hvalue hmax
  refine ⟨_, by simpa using hparse, ?_⟩
  exact floor_product_near hcount hproduct (by decide) (by decide) hvalue hmax

end

/-! ## What is displayed -/

section

variable {d : Duration}

theorem nanos_eq (d : Duration) :
    (d.nanos : ℚ) / 1000000000 = d.secs + (d.subsecNanos : ℚ) / (perSecond : ℕ) := by
  have hsplit : (d.nanos : ℚ) = (perSecond : ℕ) * d.secs + d.subsecNanos := by
    exact_mod_cast (Nat.div_add_mod d.nanos perSecond).symm
  rw [hsplit, perSecond]
  push_cast
  ring

theorem secs_le (hmax : d.nanos ≤ 2 ^ 53) : d.secs ≤ 9007199 := by
  unfold secs perSecond
  omega

theorem subsec_le (d : Duration) : (d.subsecNanos : ℚ) / (perSecond : ℕ) ≤ 1 := by
  rw [div_le_one (by norm_num [perSecond])]
  exact_mod_cast (Nat.mod_lt d.nanos (by decide : 0 < perSecond)).le

/-- The part of a second is rounded, and so is its sum with the whole seconds. -/
theorem exists_seconds (hmax : d.nanos ≤ 2 ^ 53) :
    ∃ fraction : Magnitude, Nearest (d.subsecNanos / (perSecond : ℕ)) fraction ∧
      Nearest (d.secs + fraction.value) d.seconds := by
  have hsecs := secs_le hmax
  have hpart := subsec_le d
  obtain ⟨whole, hwhole, hwholeValue⟩ := exists_ofNat (hsecs.trans (by norm_num))
  obtain ⟨fraction, hfraction⟩ := exists_ofQuotient (by decide : 0 < perSecond)
    (hpart.trans (one_le_zpow₀ one_le_two (by decide)))
  have hnearest := nearest_ofQuotient (by decide) hfraction
  have hone : OnGrid 1 := by simpa using onGrid_natCast (by norm_num : 1 ≤ 2 ^ 53)
  obtain ⟨sum, hsum⟩ : ∃ sum, whole.add fraction = some sum := by
    refine exists_add ?_
    have hsecs' : (d.secs : ℚ) ≤ 9007199 := by exact_mod_cast hsecs
    calc whole.value + fraction.value ≤ 9007199 + 1 := by
          rw [hwholeValue]
          exact add_le_add hsecs' (hnearest.le_of_le hone hpart)
      _ ≤ 2 ^ (24 : ℤ) := by norm_num
      _ ≤ 2 ^ (1000 : ℤ) := zpow_le_zpow_right₀ one_le_two (by decide)
  have hseconds : d.seconds = sum := by simp [seconds, hwhole, hfraction, hsum]
  refine ⟨fraction, hnearest, ?_⟩
  rw [hseconds, ← hwholeValue]
  exact nearest_add hsum

/-- The duration in seconds is rounded twice, which changes it by less than the hundred millionth
part of a second. -/
theorem seconds_near (hmax : d.nanos ≤ 2 ^ 53) (hsecond : perSecond ≤ d.nanos)
    (hpart : d.subsecNanos ≠ 0) :
    |d.seconds.value - (d.nanos : ℚ) / 1000000000| < 1 / 100000000 := by
  obtain ⟨fraction, hfraction, hsum⟩ := exists_seconds hmax
  have hsecsLow : (1 : ℚ) ≤ d.secs := by
    exact_mod_cast Nat.div_pos hsecond (by decide : 0 < perSecond)
  have hsecsHigh : (d.secs : ℚ) ≤ 9007199 := by exact_mod_cast secs_le hmax
  have hpartLow : 1 / 1000000000 ≤ (d.subsecNanos : ℚ) / (perSecond : ℕ) := by
    have : (1 : ℚ) ≤ d.subsecNanos := by exact_mod_cast Nat.pos_of_ne_zero hpart
    norm_num only [perSecond]
    linarith
  have hpartHigh := subsec_le d
  have hnormal {q : ℚ} (hq : 1 / 1000000000 ≤ q) : (2 : ℚ) ^ (-1022 : ℤ) ≤ q :=
    calc (2 : ℚ) ^ (-1022 : ℤ) ≤ 2 ^ (-30 : ℤ) := zpow_le_zpow_right₀ one_le_two (by decide)
      _ ≤ 1 / 1000000000 := by norm_num
      _ ≤ q := hq
  have hpartError := abs_lt.1 (hfraction.abs_sub_lt (hnormal hpartLow))
  have hsumError := abs_lt.1 (hsum.abs_sub_lt (hnormal (by linarith [fraction.value_nonneg])))
  rw [nanos_eq, abs_lt]
  norm_num at hpartError hsumError ⊢
  constructor <;> linarith

/-- The hundredths that are displayed are less than five thousandths of a second and a little
away. -/
theorem hundredths_near (hmax : d.nanos ≤ 2 ^ 53) (hsecond : perSecond ≤ d.nanos)
    (hpart : d.subsecNanos ≠ 0) :
    d.seconds.unitsOf 2 * 10000000 ≤ 2 ^ 53 ∧
      d.seconds.unitsOf 2 * 10000000 < d.nanos + 5000011 ∧
      d.nanos < d.seconds.unitsOf 2 * 10000000 + 5000011 := by
  have hseconds := abs_lt.1 (seconds_near hmax hsecond hpart)
  have hdisplayed := abs_le.1 (abs_unitsOf_sub_le 2 d.seconds)
  have hnanos : (d.nanos : ℚ) ≤ 2 ^ 53 := by exact_mod_cast hmax
  refine ⟨?_, ?_, ?_⟩
  · have hless : (d.seconds.unitsOf 2 : ℚ) < (900719926 : ℕ) := by
      push_cast
      linarith
    have : d.seconds.unitsOf 2 < 900719926 := by exact_mod_cast hless
    omega
  · have hless : ((d.seconds.unitsOf 2 * 10000000 : ℕ) : ℚ) < (d.nanos + 5000011 : ℕ) := by
      push_cast
      linarith
    exact_mod_cast hless
  · have hless : (d.nanos : ℚ) < (d.seconds.unitsOf 2 * 10000000 + 5000011 : ℕ) := by
      push_cast
      linarith
    exact_mod_cast hless

theorem toString_append (n : ℕ) (ending : String) :
    toString n ++ ending = String.ofList (Nat.toDigits 10 n ++ ending.toList) := by
  rw [Nat.toString_eq_ofList_toDigits, String.ofList_append, String.ofList_toList]

theorem twoDecimals_append (x : Magnitude) (ending : String) :
    twoDecimals x ++ ending =
      String.ofList ((Numeral.ofHundredths (x.unitsOf 2)).text ++ ending.toList) := by
  apply String.toList_injective
  rw [Numeral.text_ofHundredths]
  simp only [twoDecimals, String.toList_append, String.toList_ofList,
    Nat.toString_eq_ofList_toDigits, List.append_assoc]
  rfl

/-! ## Read back -/

/-- Below a millisecond the whole microseconds are read back. -/
theorem parse_display_micros (h : d.nanos < 1000000) :
    parse d.display = .ok ⟨d.nanos / 1000 * 1000⟩ := by
  rcases Nat.eq_zero_or_pos d.nanos with hzero | hpos
  · have hdisplay : d.display = toString 0 ++ "s" := if_pos hzero
    rw [hdisplay, toString_append, hzero]
    exact (parse_whole 0 (by decide : (['s'], 1000000000) ∈ units) (by norm_num)).trans rfl
  · have hdisplay : d.display = toString (d.nanos / 1000) ++ "µs" := by
      rw [display, if_neg hpos.ne', if_pos h]
      rfl
    rw [hdisplay, toString_append]
    exact parse_whole _ (by decide : (['µ', 's'], 1000) ∈ units) (by omega)

/-- Below a second the whole milliseconds are read back. -/
theorem parse_display_millis (hlow : 1000000 ≤ d.nanos) (h : d.nanos < perSecond) :
    parse d.display = .ok ⟨d.nanos / 1000000 * 1000000⟩ := by
  have hdisplay : d.display = toString d.millis ++ "ms" := by
    rw [display, if_neg (by omega), if_neg (by omega), if_pos h]
    rfl
  rw [hdisplay, toString_append]
  refine parse_whole _ (by decide : (['m', 's'], 1000000) ∈ units) ?_
  unfold millis perSecond at *
  omega

/-- Whole seconds are read back. -/
theorem parse_display_secs (hmax : d.nanos ≤ 2 ^ 53) (hlow : perSecond ≤ d.nanos)
    (h : d.subsecNanos = 0) : parse d.display = .ok d := by
  have hdisplay : d.display = toString d.secs ++ "s" := by
    unfold perSecond at hlow
    rw [display, if_neg (by omega), if_neg (by omega), if_neg (by unfold perSecond; omega),
      if_pos h]
    rfl
  have hnanos : d.secs * 1000000000 = d.nanos :=
    Nat.div_mul_cancel (Nat.dvd_of_mod_eq_zero h)
  rw [hdisplay, toString_append]
  refine (parse_whole _ (by decide : (['s'], 1000000000) ∈ units) (by omega)).trans ?_
  rw [hnanos]

/-- Of any other duration the nearest hundredths of a second are read back. -/
theorem parse_display_hundredths (hmax : d.nanos ≤ 2 ^ 53) (hlow : perSecond ≤ d.nanos)
    (h : d.subsecNanos ≠ 0) : ∃ e, parse d.display = .ok e ∧
      e.nanos < d.nanos + 10000000 ∧ d.nanos < e.nanos + 10000000 := by
  obtain ⟨hfits, habove, hbelow⟩ := hundredths_near hmax hlow h
  obtain ⟨e, he, hless, hmore⟩ := parse_hundredths _ hfits
  have hdisplay : d.display = twoDecimals d.seconds ++ "s" := by
    unfold perSecond at hlow
    rw [display, if_neg (by omega), if_neg (by omega), if_neg (by unfold perSecond; omega),
      if_neg h]
  rw [hdisplay, twoDecimals_append]
  exact ⟨e, he, by omega, by omega⟩

/-- The display of the duration loses nothing. -/
def IsWhole (d : Duration) : Prop :=
  d.nanos = 0 ∨ d.nanos < 1000000 ∧ 1000 ∣ d.nanos ∨ d.nanos < perSecond ∧ 1000000 ∣ d.nanos ∨
    perSecond ∣ d.nanos

/-- The nanoseconds between two durations. -/
def apart (d e : Duration) : ℕ := (d.nanos - e.nanos) + (e.nanos - d.nanos)

/-- Durations of up to `2 ^ 53` nanoseconds are read when they are displayed. They are read as they
were if the display loses nothing, and are less than one step of the display away otherwise :
a microsecond below a millisecond, a millisecond below a second, and ten milliseconds from there
on. -/
theorem parse_display (hmax : d.nanos ≤ 2 ^ 53) :
    ∃ e, parse d.display = .ok e ∧ (d.IsWhole → e = d) ∧
      (d.nanos < 1000000 → d.apart e < 1000) ∧
      (1000000 ≤ d.nanos → d.nanos < perSecond → d.apart e < 1000000) ∧
      (perSecond ≤ d.nanos → d.apart e < 10000000) := by
  rcases Nat.lt_or_ge d.nanos 1000000 with hmicros | hmicros
  · refine ⟨_, parse_display_micros hmicros, fun hwhole => ?_, fun _ => ?_, ?_, ?_⟩
    · have hself : d.nanos / 1000 * 1000 = d.nanos := by
        simp only [IsWhole, perSecond] at hwhole
        omega
      exact congrArg mk hself
    all_goals
      simp only [apart, perSecond]
      omega
  rcases Nat.lt_or_ge d.nanos perSecond with hmillis | hmillis
  · refine ⟨_, parse_display_millis hmicros hmillis, fun hwhole => ?_, ?_, fun _ _ => ?_, ?_⟩
    · have hself : d.nanos / 1000000 * 1000000 = d.nanos := by
        simp only [IsWhole, perSecond] at hwhole hmillis
        omega
      exact congrArg mk hself
    all_goals
      simp only [apart]
      omega
  by_cases hsecs : d.subsecNanos = 0
  · refine ⟨d, parse_display_secs hmax hmillis hsecs, fun _ => rfl, ?_, ?_, ?_⟩
    all_goals
      simp only [apart]
      omega
  · obtain ⟨e, he, hless, hmore⟩ := parse_display_hundredths hmax hmillis hsecs
    refine ⟨e, he, fun hwhole => absurd ?_ hsecs, ?_, ?_, fun _ => ?_⟩
    · simp only [IsWhole, subsecNanos, perSecond] at *
      omega
    all_goals
      simp only [apart, perSecond] at *
      omega

/-- One second and a half that lacks a nanosecond is displayed as one second and a half. -/
theorem parse_display_almostHalf :
    (⟨1499999999⟩ : Duration).nanos ≤ 2 ^ 53 ∧
      (⟨1499999999⟩ : Duration).display = "1.50s" ∧
      ∃ e, parse (⟨1499999999⟩ : Duration).display = .ok e ∧
        (⟨1499999999⟩ : Duration).apart e < 10000000 := by
  have hmax : (⟨1499999999⟩ : Duration).nanos ≤ 2 ^ 53 := by decide
  obtain ⟨e, he, -, -, -, hapart⟩ := parse_display hmax
  exact ⟨hmax, by rfl, e, he, hapart (by decide)⟩

end

end Duration

end Vitals
