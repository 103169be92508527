import Mathlib.Algebra.Order.Floor.Div
import Mathlib.Order.Bounds.Basic
import Vitals.Collector.Config

/-!
# How far back a reader of the history gets

A reader gets an hour of scrapes unless it is said how many, the fewest that make up the hour
(`Duration.SpansHour`). They are counted at the whole milliseconds between two scrapes, at one
millisecond at least (`CollectorConfig.spansHour_counted`). So the count is right for every
interval of whole milliseconds. Below a millisecond the reader gets less than the hour, and where
a part of a millisecond is left out the count may be higher than what makes up the hour
(`CollectorConfig.effectiveMaxWindow_hour`).
-/

namespace Vitals

namespace Duration

/-- The time that a reader of the history gets. -/
def hour : Duration := ofSecs 3600

/-- The least number of intervals, one at least, that make up an hour. -/
def SpansHour (interval : Duration) (count : Nat) : Prop :=
  IsLeast {n | 1 ≤ n ∧ hour.nanos ≤ n * interval.nanos} count

theorem hour_nanos : hour.nanos = 3600000 * 1000000 := rfl

theorem nanos_pos {d : Duration} (h : d.isZero = false) : 0 < d.nanos := by
  simp only [isZero, beq_eq_false_iff_ne] at h
  exact Nat.pos_of_ne_zero h

/-- The least number makes up the hour, and one interval less does not. -/
theorem spansHour_iff {interval : Duration} {count : Nat} (hcount : 1 ≤ count) :
    interval.SpansHour count ↔
      hour.nanos ≤ count * interval.nanos ∧ (count - 1) * interval.nanos < hour.nanos := by
  constructor
  · rintro ⟨⟨-, hspan⟩, hleast⟩
    refine ⟨hspan, ?_⟩
    by_contra hless
    rcases Nat.eq_or_lt_of_le hcount with rfl | hmore
    · simp [hour_nanos] at hless
    · have := hleast ⟨(by omega : 1 ≤ count - 1), Nat.le_of_not_lt hless⟩
      omega
  · rintro ⟨hspan, hless⟩
    refine ⟨⟨hcount, hspan⟩, fun n hn => ?_⟩
    by_contra hlt
    have hle : n * interval.nanos ≤ (count - 1) * interval.nanos :=
      Nat.mul_le_mul_right _ (by omega)
    exact absurd hn.2 (by omega)

end Duration

namespace CollectorConfig

open Duration

variable {config : CollectorConfig}

/-- The interval between two scrapes as it is counted : in whole milliseconds, and one at
least. -/
def countedInterval (config : CollectorConfig) : Duration :=
  .ofMillis (max config.scrapeInterval.millis 1)

theorem countedInterval_of_le (h : 1000000 ≤ config.scrapeInterval.nanos) :
    config.countedInterval.nanos ≤ config.scrapeInterval.nanos := by
  simp only [countedInterval, ofMillis, millis]
  omega

theorem countedInterval_of_lt (h : config.scrapeInterval.nanos < 1000000) :
    config.countedInterval.nanos = 1000000 := by
  simp only [countedInterval, ofMillis, millis]
  omega

theorem countedInterval_of_dvd (hzero : 0 < config.scrapeInterval.nanos)
    (h : 1000000 ∣ config.scrapeInterval.nanos) :
    config.countedInterval = config.scrapeInterval := by
  have hnanos : max config.scrapeInterval.millis 1 * 1000000 = config.scrapeInterval.nanos := by
    simp only [millis]
    omega
  exact congrArg Duration.mk hnanos

/-- Unless it is said how many, a reader gets no more scrapes than make up an hour of counted
intervals. -/
theorem effectiveMaxWindow_le_iff (hmax : config.maxWindow = none) {n : Nat} (hn : 1 ≤ n) :
    config.effectiveMaxWindow ≤ n ↔ hour.nanos ≤ n * config.countedInterval.nanos := by
  have hceil : config.effectiveMaxWindow =
      max (historySpan ⌈/⌉ max config.scrapeInterval.millis 1) 1 := by
    rw [effectiveMaxWindow, hmax, Nat.ceilDiv_eq_add_pred_div, Nat.add_sub_assoc (le_max_right _ 1)]
  have hpos : 0 < max config.scrapeInterval.millis 1 := by omega
  rw [hceil, max_le_iff, and_iff_left hn, ceilDiv_le_iff_le_mul hpos, countedInterval, ofMillis,
    ← Nat.mul_assoc, hour_nanos, Nat.mul_comm n]
  exact (Nat.mul_le_mul_right_iff (by decide)).symm

theorem one_le_effectiveMaxWindow (hmax : config.maxWindow = none) :
    1 ≤ config.effectiveMaxWindow := by
  rw [effectiveMaxWindow, hmax]
  exact le_max_right _ _

/-- Unless it is said how many, a reader gets the fewest scrapes that make up an hour of counted
intervals. -/
theorem spansHour_counted (hmax : config.maxWindow = none) :
    config.countedInterval.SpansHour config.effectiveMaxWindow :=
  ⟨⟨one_le_effectiveMaxWindow hmax,
    (effectiveMaxWindow_le_iff hmax (one_le_effectiveMaxWindow hmax)).1 le_rfl⟩,
    fun _ hn => (effectiveMaxWindow_le_iff hmax hn.1).2 hn.2⟩

/-- An interval of less than a millisecond counts as one, so the scrapes that a reader gets make
up less than the hour. -/
theorem effectiveMaxWindow_mul_lt (hmax : config.maxWindow = none)
    (h : config.scrapeInterval.nanos < 1000000) :
    config.effectiveMaxWindow * config.scrapeInterval.nanos < hour.nanos := by
  have hwindow : config.effectiveMaxWindow ≤ 3600000 := by
    rw [effectiveMaxWindow_le_iff hmax (by decide), countedInterval_of_lt h]
    exact le_rfl
  calc config.effectiveMaxWindow * config.scrapeInterval.nanos
      ≤ 3600000 * config.scrapeInterval.nanos := Nat.mul_le_mul_right _ hwindow
    _ < hour.nanos := by rw [hour_nanos]; omega

/-- What a reader of the history gets unless it is said : the fewest scrapes that make up an hour
of counted intervals. They make up an hour exactly if the interval is no less than a millisecond,
they are the fewest that do exactly if one scrape less does not make up the hour either, and they
are the fewest wherever the interval is a whole number of milliseconds. -/
theorem effectiveMaxWindow_hour (hvalid : config.fault? = none) (hmax : config.maxWindow = none) :
    config.countedInterval.SpansHour config.effectiveMaxWindow ∧
      (hour.nanos ≤ config.effectiveMaxWindow * config.scrapeInterval.nanos ↔
        1000000 ≤ config.scrapeInterval.nanos) ∧
      (config.scrapeInterval.SpansHour config.effectiveMaxWindow ↔
        1000000 ≤ config.scrapeInterval.nanos ∧
          (config.effectiveMaxWindow - 1) * config.scrapeInterval.nanos < hour.nanos) ∧
      (1000000 ∣ config.scrapeInterval.nanos →
        config.scrapeInterval.SpansHour config.effectiveMaxWindow) := by
  have hinterval : config.scrapeInterval.isZero = false := by
    by_contra hzero
    simp [fault?, Bool.eq_true_of_not_eq_false hzero] at hvalid
  have hcounted := spansHour_counted hmax
  have hspan : hour.nanos ≤ config.effectiveMaxWindow * config.scrapeInterval.nanos ↔
      1000000 ≤ config.scrapeInterval.nanos := by
    refine ⟨fun h => ?_, fun h => ?_⟩
    · by_contra hless
      exact absurd h (Nat.not_le_of_lt (effectiveMaxWindow_mul_lt hmax (by omega)))
    · exact hcounted.1.2.trans (Nat.mul_le_mul_left _ (countedInterval_of_le h))
  refine ⟨hcounted, hspan, ?_, fun hdvd => ?_⟩
  · rw [spansHour_iff (one_le_effectiveMaxWindow hmax), hspan]
  · rwa [← countedInterval_of_dvd (nanos_pos hinterval) hdvd]

/-- Seven seconds and a nanosecond are counted as seven seconds, and the count of the hour is
right all the same. -/
theorem effectiveMaxWindow_hour_sevenSeconds :
    ({ scrapeInterval := ⟨7000000001⟩ } : CollectorConfig).fault? = none ∧
      ({ scrapeInterval := ⟨7000000001⟩ } : CollectorConfig).maxWindow = none ∧
      (⟨7000000001⟩ : Duration).SpansHour 515 :=
  ⟨rfl, rfl, (@effectiveMaxWindow_hour { scrapeInterval := ⟨7000000001⟩ } rfl rfl).2.2.1.2
    ⟨by decide, by decide⟩⟩

/-- Half a millisecond is counted as a whole one, so a reader gets half of the scrapes that make up
an hour. -/
theorem effectiveMaxWindow_halfMillisecond :
    ({ scrapeInterval := ⟨500000⟩ } : CollectorConfig).fault? = none ∧
      ({ scrapeInterval := ⟨500000⟩ } : CollectorConfig).effectiveMaxWindow = 3600000 ∧
      (⟨500000⟩ : Duration).SpansHour 7200000 ∧ ¬(⟨500000⟩ : Duration).SpansHour 3600000 := by
  refine ⟨rfl, rfl, (spansHour_iff (by decide)).2 (by decide), fun h => ?_⟩
  exact absurd ((spansHour_iff (by decide)).1 h).1 (by decide)

end CollectorConfig

end Vitals
