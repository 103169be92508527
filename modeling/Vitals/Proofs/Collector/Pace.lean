import Mathlib.Data.List.Chain
import Mathlib.Data.List.Infix
import Vitals.Proofs.Collector.Order

/-!
# The pace of a loop that scrapes

A loop that scrapes is due at once when it is started, and one interval after the last deadline
from then on ; a loop that is more than `Loop.slack` late counts from the present. It waits for
its tick to end, which takes no longer than a call may take. `Pace` says of the ticks of such a
loop when they begin, `Awaits` what the loop holds of it between them, and `Pace.append` and
`Awaits.append` that both last when a tick begins at the deadline or, if that has passed, at the
end of the tick before. Every move of the collector keeps this (`Run.Paced.step`), so that it holds
for every loop and every course (`Run.pace_play`).
-/

set_option linter.unusedSectionVars false

namespace Vitals

/-- The ticks that a pair of loops began. -/
def ticksOf (session : Nat) (ticks : List TickAt) : List TickAt :=
  ticks.filter (·.session = some session)

theorem mem_ticksOf {session : Nat} {ticks : List TickAt} {early : TickAt} :
    early ∈ ticksOf session ticks ↔ early ∈ ticks ∧ early.session = some session := by
  rw [ticksOf, List.mem_filter, decide_eq_true_iff]

/-- The tick has ended by the time at which the next deadline is, if that has not been moved. -/
def TickAt.InTime (interval : Nat) (tick : TickAt) : Prop := tick.ends ≤ tick.time + interval

/-! ## The ticks of one loop -/

/-- How a tick of a loop follows the tick before it, where a call may take `limit`. -/
structure Follows (interval limit : Nat) (tick next : TickAt) : Prop where
  ends_le : tick.ends ≤ next.time
  apart : tick.time + interval ≤ next.time + Loop.slack
  close : next.time ≤ tick.time + max interval limit

/-- When the ticks of a loop begin that was started at `start`. -/
structure Pace (interval limit start : Nat) (ticks : List TickAt) : Prop where
  chain : ticks.IsChain (Follows interval limit)
  /-- The first tick begins at once, and the loop does not drift as long as no tick takes longer
  than the interval. -/
  grid : ∀ (k : Nat) (tick : TickAt), ticks[k]? = some tick →
    (∀ prior ∈ ticks.take k, prior.InTime interval) → tick.time = start + k * interval

/-- When the last tick ends ; if there is none, when the loop was started. -/
def restsFrom (start : Nat) (ticks : List TickAt) : Nat :=
  (ticks.getLast?.map TickAt.ends).getD start

/-- What a loop that has begun these ticks holds at `now`. -/
structure Awaits (interval start : Nat) (ticks : List TickAt) (now : Nat) (loop : Loop) :
    Prop where
  /-- A loop that waits for no tick does not let its deadline pass. -/
  idle : loop.busy = false → now ≤ max (restsFrom start ticks) loop.deadline
  le : ∀ last ∈ ticks.getLast?, loop.deadline ≤ last.time + interval
  ge : ∀ last ∈ ticks.getLast?, last.time + interval ≤ loop.deadline + Loop.slack
  grid : (∀ prior ∈ ticks.dropLast, prior.InTime interval) →
    loop.deadline = start + ticks.length * interval

theorem Pace.nil {interval limit start : Nat} : Pace interval limit start [] where
  chain := List.isChain_nil
  grid _ _ h := absurd h nofun

section

variable {interval limit start now : Nat} {ticks : List TickAt} {loop : Loop} {tick : TickAt}

@[simp] theorem restsFrom_nil (start : Nat) : restsFrom start [] = start := rfl

@[simp] theorem restsFrom_append (start : Nat) (ticks : List TickAt) (last : TickAt) :
    restsFrom start (ticks ++ [last]) = last.ends := by
  rw [restsFrom, List.getLast?_concat]
  rfl

/-- If all ticks were in time, then the loop begins the next one at its deadline. -/
theorem Awaits.now_eq (h : Awaits interval start ticks now loop)
    (hpace : Pace interval limit start ticks) (hfree : loop.busy = false)
    (hdue : loop.deadline ≤ now) (hintime : ∀ prior ∈ ticks, prior.InTime interval) :
    now = loop.deadline ∧ loop.deadline = start + ticks.length * interval := by
  have hdeadline := h.grid fun prior hprior => hintime prior (List.mem_of_mem_dropLast hprior)
  -- the last tick began on the grid and took no longer than the interval
  have hrests : restsFrom start ticks ≤ loop.deadline := by
    rw [hdeadline]
    rcases List.eq_nil_or_concat' ticks with rfl | ⟨before, last, rfl⟩
    · exact Nat.le_add_right start _
    · have hlast : last.time = start + before.length * interval :=
        hpace.grid before.length last (by simp) fun prior hprior =>
          hintime prior (List.mem_of_mem_take hprior)
      have hends : last.ends ≤ last.time + interval := hintime last (by simp)
      rw [restsFrom_append, List.length_append, List.length_singleton, Nat.add_one_mul]
      omega
  have hidle := h.idle hfree
  exact ⟨by omega, hdeadline⟩

/-- A tick that begins when its loop is due keeps the pace. -/
theorem Pace.append (hpace : Pace interval limit start ticks)
    (h : Awaits interval start ticks tick.time loop) (hfree : loop.busy = false)
    (hdue : loop.deadline ≤ tick.time) (hended : ∀ last ∈ ticks.getLast?, last.ends ≤ tick.time)
    (hlimit : ∀ last ∈ ticks.getLast?, last.ends ≤ last.time + limit) :
    Pace interval limit start (ticks ++ [tick]) where
  chain := by
    refine List.isChain_append.2 ⟨hpace.chain, List.isChain_singleton tick, ?_⟩
    intro last hlast next hnext
    obtain rfl := Option.some.inj hnext
    have hidle := h.idle hfree
    have hle := h.le last hlast
    have hge := h.ge last hlast
    have hends := hlimit last hlast
    have hrests : restsFrom start ticks = last.ends := by
      rw [restsFrom, hlast]
      rfl
    -- the deadline is within the slack of one interval after the last tick, and nothing but the
    -- end of that tick holds the loop up
    exact ⟨hended last hlast, by omega, by omega⟩
  grid k other hother hintime := by
    rcases Nat.lt_or_ge k ticks.length with hk | hk
    · rw [List.getElem?_append_left hk] at hother
      rw [List.take_append_of_le_length hk.le] at hintime
      exact hpace.grid k other hother hintime
    · obtain rfl : k = ticks.length := by
        have hlt := (List.getElem?_eq_some_iff.1 hother).1
        rw [List.length_append, List.length_singleton] at hlt
        omega
      rw [List.getElem?_concat_length] at hother
      obtain rfl := Option.some.inj hother
      rw [List.take_append_of_le_length (Nat.le_refl _), List.take_length] at hintime
      obtain ⟨hnow, hdeadline⟩ := h.now_eq hpace hfree hdue hintime
      exact hnow.trans hdeadline

/-- The loop that has begun a tick holds the time of the next one. -/
theorem Awaits.append (h : Awaits interval start ticks tick.time loop)
    (hpace : Pace interval limit start ticks) (hfree : loop.busy = false)
    (hdue : loop.deadline ≤ tick.time) (hinterval : loop.interval = interval) :
    Awaits interval start (ticks ++ [tick]) tick.time (loop.begun tick.time) where
  idle hbusy := absurd hbusy Bool.noConfusion
  le last hlast := by
    rw [List.getLast?_concat] at hlast
    obtain rfl := Option.some.inj hlast
    simp only [Loop.begun, hinterval]
    split <;> omega
  ge last hlast := by
    rw [List.getLast?_concat] at hlast
    obtain rfl := Option.some.inj hlast
    simp only [Loop.begun, hinterval]
    split <;> omega
  grid hintime := by
    rw [List.dropLast_concat] at hintime
    obtain ⟨hnow, hdeadline⟩ := h.now_eq hpace hfree hdue hintime
    -- so the tick begins at the deadline, which is not moved
    have hontime : ¬loop.deadline + Loop.slack < tick.time := by omega
    simp only [Loop.begun, hinterval, if_neg hontime]
    rw [hdeadline, List.length_append, List.length_singleton, Nat.add_one_mul, Nat.add_assoc]

/-- The first tick begins when the loop is started. -/
theorem Pace.head (hpace : Pace interval limit start ticks) (h : ticks.head? = some tick) :
    tick.time = start := by
  rw [List.head?_eq_getElem?] at h
  have htime := hpace.grid 0 tick h nofun
  rwa [Nat.zero_mul, Nat.add_zero] at htime

/-- What the loop holds is of its deadline, and of the time only while it waits for no tick. -/
theorem Awaits.congr (h : Awaits interval start ticks now loop) {other : Loop} {time : Nat}
    (hdeadline : other.deadline = loop.deadline)
    (hidle : other.busy = false → time ≤ max (restsFrom start ticks) loop.deadline) :
    Awaits interval start ticks time other where
  idle := hdeadline ▸ hidle
  le := hdeadline ▸ h.le
  ge := hdeadline ▸ h.ge
  grid := hdeadline ▸ h.grid

end

namespace Run

variable {ρ : Type} [Discovery ρ] {run next : Run ρ} {begun ended : List TickAt}
  {session start : Nat}

/-! ## The ticks of a loop in a course -/

namespace InCourse

/-- A tick of a pair of loops that is under way is the last that the pair began. -/
theorem getLast?_of_mem (h : run.InCourse begun ended) {tick : Tick} (htick : tick ∈ run.ticks)
    (hsession : tick.session = some session) :
    ∃ last, (ticksOf session begun).getLast? = some last ∧
      Continues run.epoch run.now last tick := by
  obtain ⟨early, hearly, hcontinues⟩ := h.ledger.underway tick htick
  obtain ⟨before, after, hticks⟩ := List.append_of_mem htick
  have htickets := Orderly.tickets_split hticks
  have hnone := Orderly.filter_of_single (htickets ▸ h.orderly.single) hsession
  rw [List.filter_append, List.append_eq_nil_iff] at hnone
  have hticket : tick.ticket.2 = some session := hsession
  have hinOrder := h.orderly.inOrder session
  rw [htickets, List.filter_append, List.filter_cons_of_pos (by simpa using hticket), hnone.1,
    hnone.2] at hinOrder
  have hlast : ((ticksOf session begun).map (·.number)).getLast? = some tick.number := by
    rw [ticksOf, ← hinOrder, List.nil_append, List.map_singleton, List.getLast?_concat]
    rfl
  rw [List.getLast?_map, Option.map_eq_some_iff] at hlast
  obtain ⟨last, hlast, hnumber⟩ := hlast
  have hmem := (mem_ticksOf.1 (List.mem_of_getLast? hlast)).1
  obtain rfl := h.ledger.eq_of_number hmem hearly (hnumber.trans hcontinues.number)
  exact ⟨last, hlast, hcontinues⟩

theorem length_filter_le_one (h : run.InCourse begun ended) (session : Nat) :
    (run.ticks.filter (·.session = some session)).length ≤ 1 := by
  have hsingle : (run.ticks.filter (·.session = some session)).Pairwise fun _ _ => False := by
    have hsingle := (List.pairwise_map.1 h.orderly.single).sublist
      (List.filter_sublist (p := fun tick : Tick => decide (tick.session = some session)))
    refine hsingle.imp_of_mem fun htick hother happart => ?_
    exact happart session (of_decide_eq_true (List.mem_filter.1 htick).2)
      (of_decide_eq_true (List.mem_filter.1 hother).2)
  generalize run.ticks.filter (·.session = some session) = ticks at hsingle
  match ticks, hsingle with
  | [], _ => exact Nat.zero_le 1
  | [_], _ => exact Nat.le_refl 1
  | _ :: other :: _, hsingle =>
    exact absurd List.mem_cons_self ((List.pairwise_cons.1 hsingle).1 other)

/-- A pair of loops that has no tick under way has ended its last tick. -/
theorem ends_le_now (h : run.InCourse begun ended) (hnone : ∀ ticket ∈ run.tickets,
    ticket.2 ≠ some session) {last : TickAt} (hlast : last ∈ ticksOf session begun) :
    last.ends ≤ run.now := by
  have hinOrder := h.orderly.inOrder session
  have hempty : run.tickets.filter (·.2 = some session) = [] :=
    List.filter_eq_nil_iff.2 fun ticket hticket => by simpa using hnone ticket hticket
  rw [hempty, List.map_nil, List.append_nil] at hinOrder
  have hnumber : last.number ∈ (ended.filter (·.session = some session)).map (·.number) :=
    hinOrder ▸ List.mem_map_of_mem hlast
  obtain ⟨late, hlate, hsame⟩ := List.mem_map.1 hnumber
  have hlate := (List.mem_filter.1 hlate).1
  obtain ⟨htime, -⟩ := h.ledger.time_eq_ends (mem_ticksOf.1 hlast).1 hlate hsame
  exact htime ▸ h.ledger.past late hlate

end InCourse

/-- The pair of loops was started at `start`, and its ticks have kept the pace since. -/
structure Paced (session start : Nat) (begun : List TickAt) (run : Run ρ) : Prop where
  started : session < run.sessions
  pace : Pace run.config.scrapeInterval.millisUp run.config.callTimeout.millisUp start
    (ticksOf session begun)
  awaits : ∀ loop ∈ run.loops, loop.session = session → loop.task = .scrape →
    Awaits run.config.scrapeInterval.millisUp start (ticksOf session begun) run.now loop

namespace Paced

theorem ticksOf_append_none (begun : List TickAt) {early : TickAt}
    (h : early.session ≠ some session) :
    ticksOf session (begun ++ [early]) = ticksOf session begun := by
  simp [ticksOf, h]

theorem ticksOf_append_some (begun : List TickAt) {early : TickAt}
    (h : early.session = some session) :
    ticksOf session (begun ++ [early]) = ticksOf session begun ++ [early] := by
  simp [ticksOf, h]

/-- The loop has the deadline of a loop that scraped for the pair, and has not let it pass if it
waits for no tick. -/
def Stems (run : Run ρ) (session start : Nat) (ticks : List TickAt) (now : Nat) (loop : Loop) :
    Prop :=
  ∃ origin ∈ run.loops, origin.session = session ∧ origin.task = .scrape ∧
    loop.deadline = origin.deadline ∧
      (loop.busy = false → now ≤ max (restsFrom start ticks) origin.deadline)

/-- The pace is one of the loops that scrape and of their ticks. -/
theorem congr (h : run.Paced session start begun) {later : List TickAt}
    (hconfig : next.config = run.config) (hsessions : run.sessions ≤ next.sessions)
    (hticks : ticksOf session later = ticksOf session begun)
    (hloops : ∀ loop ∈ next.loops, loop.session = session → loop.task = .scrape →
      Stems run session start (ticksOf session begun) next.now loop) :
    next.Paced session start later where
  started := Nat.lt_of_lt_of_le h.started hsessions
  pace := by rw [hconfig, hticks]; exact h.pace
  awaits loop hloop hsession htask := by
    obtain ⟨origin, horigin, hsame, htask', hdeadline, hidle⟩ := hloops loop hloop hsession htask
    rw [hconfig, hticks]
    exact (h.awaits origin horigin hsame htask').congr hdeadline hidle

/-- A loop that is still there as it was has the deadline that it had. -/
theorem stems_of_mem (h : run.Paced session start begun) {loop : Loop} (hloop : loop ∈ run.loops)
    (hsession : loop.session = session) (htask : loop.task = .scrape) :
    Stems run session start (ticksOf session begun) run.now loop :=
  ⟨loop, hloop, hsession, htask, rfl, (h.awaits loop hloop hsession htask).idle⟩

theorem same (h : run.Paced session start begun) (hconfig : next.config = run.config)
    (hnow : next.now = run.now) (hloops : next.loops = run.loops)
    (hsessions : next.sessions = run.sessions) : next.Paced session start begun :=
  h.congr hconfig (Nat.le_of_eq hsessions.symm) rfl fun _ hloop hsession htask =>
    hnow ▸ h.stems_of_mem (hloops ▸ hloop) hsession htask

/-- Time does not pass beyond the deadline of a loop that waits for no tick. -/
theorem pass (h : run.Paced session start begun) {time : Nat} (hclear : run.ClearUntil time) :
    { run with now := time }.Paced session start begun :=
  h.congr rfl (Nat.le_refl _) rfl fun loop hloop hsession htask =>
    ⟨loop, hloop, hsession, htask, rfl, fun hfree => by
      have hidle := (h.awaits loop hloop hsession htask).idle hfree
      have hbound := hclear.loops loop hloop hfree
      exact Nat.le_trans hbound (Nat.max_le.2 ⟨hidle, Nat.le_max_right _ _⟩)⟩

/-- A tick begins that the pair did not begin. -/
theorem manual (h : run.Paced session start begun) (early : TickAt)
    (hother : early.session ≠ some session) : run.Paced session start (begun ++ [early]) :=
  h.congr rfl (Nat.le_refl _) (ticksOf_append_none begun hother) fun _ hloop =>
    h.stems_of_mem hloop

/-- Loops that do not scrape are none of this. -/
theorem others (h : run.Paced session start begun) {before after : List Loop} {loop : Loop}
    (more : List Loop) (hloops : run.loops = before ++ loop :: after)
    (hmore : ∀ other ∈ more, other.task ≠ .scrape) :
    { run with loops := before ++ after ++ more }.Paced session start begun := by
  refine h.congr rfl (Nat.le_refl _) rfl fun other hother hsession htask => ?_
  rcases Orderly.mem_or_mem hloops hother with hother | hother
  · exact h.stems_of_mem hother hsession htask
  · exact absurd htask (hmore other hother)

/-- A loop begins a tick, of this pair or of another. -/
theorem fireScrape (h : run.Paced session start begun) (hcourse : run.InCourse begun ended)
    {before after : List Loop} {loop : Loop} (hloops : run.loops = before ++ loop :: after)
    (hdue : loop.isDue run.now) (htask : loop.task = .scrape) :
    { run with loops := before ++ after ++ [loop.begun run.now] }.Paced
      session start (begun ++ [TickAt.mk run.now (run.nextTick (some loop.session))]) := by
  have hmem : loop ∈ run.loops := by simp [hloops]
  by_cases hsession : loop.session = session
  · obtain rfl := hsession
    have hawaits := h.awaits loop hmem rfl htask
    have hfree : loop.busy = false := by simpa [Loop.isDue] using (Bool.and_eq_true_iff.1 hdue).1
    have hdeadline : loop.deadline ≤ run.now := by simpa using (Bool.and_eq_true_iff.1 hdue).2
    have hticks : ticksOf loop.session
        (begun ++ [TickAt.mk run.now (run.nextTick (some loop.session))]) =
          ticksOf loop.session begun ++ [TickAt.mk run.now (run.nextTick (some loop.session))] :=
      ticksOf_append_some begun rfl
    have hends : ∀ last ∈ (ticksOf loop.session begun).getLast?, last.ends ≤ run.now :=
      fun last hlast => hcourse.ends_le_now
        (fun ticket => hcourse.orderly.ne_of_isDue hmem hdue htask) (List.mem_of_getLast? hlast)
    have hlimit : ∀ last ∈ (ticksOf loop.session begun).getLast?,
        last.ends ≤ last.time + run.config.callTimeout.millisUp := fun last hlast =>
      hcourse.bounded last (mem_ticksOf.1 (List.mem_of_getLast? hlast)).1
    exact {
      started := h.started
      pace := by
        rw [hticks]
        exact h.pace.append hawaits hfree hdeadline hends hlimit
      -- the pair has no other loop that scrapes
      awaits := fun other hother hsame htask' => by
        rw [hticks]
        obtain rfl : other = loop.begun run.now := by
          by_contra hne
          have hapart : (before ++ after ++ [loop.begun run.now]).Pairwise Loop.Apart :=
            hcourse.orderly.apart_begun (some (loop.begun run.now)) hloops fun last hlast => by
              obtain rfl := Option.some.inj hlast
              exact ⟨rfl, rfl⟩
          exact hapart.forall hother (by simp) hne ⟨hsame, htask'.trans htask.symm⟩
        have hinterval := hcourse.orderly.interval loop hmem
        rw [htask] at hinterval
        exact Awaits.append hawaits h.pace hfree hdeadline hinterval }
  · refine h.congr rfl (Nat.le_refl _) (ticksOf_append_none begun ?_)
      fun other hother hsame htask' => ?_
    · exact fun hown => hsession (Option.some.inj hown)
    · rcases Orderly.mem_or_mem hloops hother with hother | hother
      · exact h.stems_of_mem hother hsame htask'
      · obtain rfl := List.mem_singleton.1 hother
        exact absurd hsame hsession

/-- A tick ends, and the loop that waited for it is due at its deadline or at once. -/
theorem finish (h : run.Paced session start begun) (hcourse : run.InCourse begun ended)
    {tick : Tick} (htick : tick ∈ run.ticks) (hover : tick.isOver) :
    { run with loops := run.loopsAfter .scrape tick.session }.Paced session start begun := by
  refine h.congr rfl (Nat.le_refl _) rfl fun loop hloop hsession htask => ?_
  cases hown : tick.session with
  | none =>
    rw [hown] at hloop
    exact h.stems_of_mem hloop hsession htask
  | some other =>
    rw [hown] at hloop
    rcases mem_freeLoop.1 hloop with ⟨hloop, -⟩ | ⟨waiting, hwaiting, ⟨hsame, -⟩, hfree⟩
    · exact h.stems_of_mem hloop hsession htask
    · obtain ⟨rfl, -⟩ := Loop.free_eq_some hfree
      obtain rfl := hsame.symm.trans hsession
      refine ⟨waiting, hwaiting, hsession, htask, rfl, fun _ => ?_⟩
      obtain ⟨last, hlast, hcontinues⟩ := hcourse.getLast?_of_mem htick hown
      obtain ⟨-, hends⟩ := hcontinues.of_isOver hover
      refine Nat.le_trans ?_ (Nat.le_max_left _ _)
      rw [restsFrom, hlast]
      exact Nat.le_of_eq hends

/-- A refresh ends, for which no loop that scrapes has waited. -/
theorem endRescan (h : run.Paced session start begun) (owner : Nat) :
    { run with loops := (run.freeLoop owner .refresh).loops }.Paced session start begun := by
  refine h.congr rfl (Nat.le_refl _) rfl fun loop hloop hsession htask => ?_
  rcases mem_freeLoop.1 hloop with ⟨hloop, -⟩ | ⟨waiting, -, ⟨-, hrefresh, -⟩, hfree⟩
  · exact h.stems_of_mem hloop hsession htask
  · obtain ⟨rfl, -⟩ := Loop.free_eq_some hfree
    exact absurd (htask.symm.trans hrefresh) nofun

/-- Another pair of loops is started. -/
theorem arm (h : run.Paced session start begun) : run.arm.Paced session start begun := by
  refine h.congr rfl (Nat.le_succ _) rfl fun loop hloop hsession htask => ?_
  rcases mem_arm hloop with hloop | ⟨hnew, -⟩
  · exact h.stems_of_mem hloop hsession htask
  · exact absurd (hsession.symm.trans hnew) (Nat.ne_of_lt h.started)

/-- A pair of loops is told something. -/
theorem tell (h : run.Paced session start begun) (other : Nat) (signal : Signal) :
    (run.tell other signal).Paced session start begun := by
  refine h.congr rfl (Nat.le_refl _) rfl fun loop hloop hsession htask => ?_
  obtain ⟨origin, horigin, rfl | rfl⟩ := origin_of_mem_tell hloop
  · exact h.stems_of_mem horigin hsession htask
  · exact ⟨origin, horigin, hsession, htask, rfl, (h.awaits origin horigin hsession htask).idle⟩

/-- Every move keeps the pace. -/
theorem step (h : run.Paced session start begun) (hcourse : run.InCourse begun ended)
    {fired : Option Loop} {early late : Option TickAt} {told : Option (Nat × Signal)}
    (hstep : Step run fired early late told next) :
    next.Paced session start (begun ++ early.toList) := by
  cases hstep with
  | same hsame | settle hsame =>
    simpa using h.same hsame.config hsame.now hsame.loops hsame.sessions
  | pass time _ hclear hsame =>
    simpa using (h.pass hclear).same hsame.config hsame.now hsame.loops hsame.sessions
  | scrape hsame =>
    exact (h.manual ⟨run.now, run.nextTick none⟩ nofun).same hsame.config hsame.now hsame.loops
      hsame.sessions
  | fireScrape hloops hdue htask hsame =>
    exact (h.fireScrape hcourse hloops hdue htask).same hsame.config hsame.now hsame.loops
      hsame.sessions
  | @fireRefresh _ _ _ loop hloops _ htask hsame =>
    have hothers := h.others ((loop.begun run.now).free run.now).toList hloops fun kept hkept => by
      obtain ⟨rfl, -⟩ := Loop.free_eq_some (Option.mem_toList.1 hkept)
      exact ne_of_eq_of_ne htask nofun
    simpa using hothers.same hsame.config hsame.now hsame.loops hsame.sessions
  | @fireRescan _ _ _ loop _ hloops _ htask hsame =>
    have hothers := h.others [loop.begun run.now] hloops fun kept hkept => by
      obtain rfl := List.mem_singleton.1 hkept
      exact ne_of_eq_of_ne htask nofun
    simpa using hothers.same hsame.config hsame.now hsame.loops hsame.sessions
  | @endRescan _ _ _ _ owner _ _ hsame =>
    simpa using (h.endRescan owner).same hsame.config hsame.now hsame.loops hsame.sessions
  | leave hloops _ _ hsame =>
    have hothers := h.others [] hloops (List.forall_mem_nil _)
    rw [List.append_nil] at hothers
    simpa using hothers.same hsame.config hsame.now hsame.loops hsame.sessions
  | finish hticks hover hsame =>
    have hmem := hticks ▸ List.mem_append_right _ List.mem_cons_self
    simpa using (h.finish hcourse hmem hover).same hsame.config hsame.now hsame.loops
      hsame.sessions
  | arm hsame => simpa using h.arm.same hsame.config hsame.now hsame.loops hsame.sessions
  | tell other signal _ hsame =>
    simpa using (h.tell other signal).same hsame.config hsame.now hsame.loops hsame.sessions

/-- A loop that has been told nothing begins a tick in time. -/
theorem now_le (h : run.Paced session start begun) (hcourse : run.InCourse begun ended)
    {loop : Loop} (hloop : loop ∈ run.loops) (hsession : loop.session = session)
    (htask : loop.task = .scrape) :
    (ticksOf session begun = [] → run.now ≤ start) ∧
      ∀ last ∈ (ticksOf session begun).getLast?, run.now ≤ last.time +
        max run.config.scrapeInterval.millisUp run.config.callTimeout.millisUp := by
  have hawaits := h.awaits loop hloop hsession htask
  have hlimit : ∀ last ∈ (ticksOf session begun).getLast?,
      last.ends ≤ last.time + run.config.callTimeout.millisUp := fun last hlast =>
    hcourse.bounded last (mem_ticksOf.1 (List.mem_of_getLast? hlast)).1
  cases hbusy : loop.busy with
  | false =>
    have hidle := hawaits.idle hbusy
    refine ⟨fun hnone => ?_, fun last hlast => ?_⟩
    · have hdeadline := hawaits.grid (by simp [hnone])
      rw [hnone] at hidle hdeadline
      rw [restsFrom_nil, hdeadline] at hidle
      simpa using hidle
    · have hle := hawaits.le last hlast
      have hends := hlimit last hlast
      rw [restsFrom, hlast, Option.map_some, Option.getD_some] at hidle
      omega
  | true =>
    -- the tick that the loop waits for is its last one and ends in time
    have hawaited := hcourse.orderly.waits loop hloop hbusy
    unfold Awaited at hawaited
    rw [htask] at hawaited
    obtain ⟨number, hticket⟩ := hawaited
    obtain ⟨tick, htick, heq⟩ := List.mem_map.1 hticket
    have hown : tick.session = some session := hsession ▸ congrArg Prod.snd heq
    obtain ⟨last, hlast, hcontinues⟩ := hcourse.getLast?_of_mem htick hown
    refine ⟨fun hnone => absurd (hnone ▸ hlast) nofun, fun other hother => ?_⟩
    obtain rfl := Option.some.inj (hlast.symm.trans hother)
    have hends := hlimit last hlast
    have hnow := hcontinues.now_le
    omega

end Paced

theorem paced_arm (h : run.InCourse begun ended) : run.arm.Paced run.sessions run.now begun := by
  have hnone : ticksOf run.sessions begun = [] :=
    List.filter_eq_nil_iff.2 fun early hearly hown =>
      Nat.lt_irrefl _ (h.known early hearly _ (of_decide_eq_true hown))
  refine ⟨Nat.lt_succ_self run.sessions, hnone ▸ Pace.nil, fun loop hloop hsession htask => ?_⟩
  rcases mem_arm hloop with hloop | ⟨-, -, -, hdeadline⟩
  · exact absurd hsession (Nat.ne_of_lt (h.orderly.started loop hloop))
  · rw [hnone]
    exact {
      idle := fun _ => Nat.le_max_left _ _
      le := nofun
      ge := nofun
      grid := fun _ => by simpa using hdeadline htask }

/-! ## Loops that have been told nothing -/

/-- The loop of a pair that has a task goes on. -/
def Listens (session : Nat) (task : Task) (run : Run ρ) : Prop :=
  ∃ loop ∈ run.loops, loop.session = session ∧ loop.task = task ∧ loop.signal = .none

/-- A pair of loops that is started has been told nothing. -/
theorem Listens.of_start (run : Run ρ) (task : Task) :
    (run.move .start).Listens run.sessions task := by
  cases task with
  | scrape => exact ⟨_, List.mem_append_right _ List.mem_cons_self, rfl, rfl, rfl⟩
  | refresh =>
    exact ⟨_, List.mem_append_right _ (List.mem_cons_of_mem _ List.mem_cons_self), rfl, rfl, rfl⟩

/-- A loop that has been told nothing goes on when its task is over. -/
theorem Listens.freeLoop {task : Task} (h : run.Listens session task) (owner : Nat) (finished : Task) :
    (run.freeLoop owner finished).Listens session task := by
  obtain ⟨loop, hloop, hsession, htask, hsignal⟩ := h
  by_cases hwaits : loop.session = owner ∧ loop.task = finished ∧ loop.busy
  · exact ⟨_, mem_freeLoop.2 (Or.inr ⟨loop, hloop, hwaits, Loop.free_of_none hsignal⟩), hsession,
      htask, hsignal⟩
  · exact ⟨loop, mem_freeLoop.2 (Or.inl ⟨hloop, hwaits⟩), hsession, htask, hsignal⟩

theorem Listens.step {task : Task} {fired : Option Loop} {early late : Option TickAt}
    {told : Option (Nat × Signal)} (h : run.Listens session task)
    (hstep : Step run fired early late told next)
    (htold : ∀ signal, told ≠ some (session, signal)) : next.Listens session task := by
  have hfreed := h.freeLoop
  obtain ⟨loop, hloop, hsession, htask, hsignal⟩ := h
  -- a loop that is due goes on, if it has been told nothing, or it is another one
  have hmoved : ∀ {before after : List Loop} {other : Loop} (kept : Option Loop),
      run.loops = before ++ other :: after →
        (other.signal = .none → ∃ last ∈ kept, last.session = other.session ∧
          last.task = other.task ∧ last.signal = .none) →
          ∃ last ∈ before ++ after ++ kept.toList, last.session = session ∧ last.task = task ∧
            last.signal = .none := by
    intro before after other kept hloops hkept
    rw [hloops] at hloop
    rcases List.mem_append.1 hloop with hmem | hmem
    · exact ⟨loop, by simp [hmem], hsession, htask, hsignal⟩
    · rcases List.mem_cons.1 hmem with rfl | hmem
      · obtain ⟨last, hlast, hsame, htask', hsignal'⟩ := hkept hsignal
        exact ⟨last, List.mem_append_right _ (Option.mem_toList.2 hlast), hsame.trans hsession,
          htask'.trans htask, hsignal'⟩
      · exact ⟨loop, by simp [hmem], hsession, htask, hsignal⟩
  cases hstep with
  | same hsame | pass _ _ _ hsame | settle hsame | scrape hsame =>
    exact ⟨loop, hsame.loops ▸ hloop, hsession, htask, hsignal⟩
  | @fireScrape _ _ _ other hloops _ _ hsame | @fireRescan _ _ _ other _ hloops _ _ hsame =>
    rw [Listens, hsame.loops]
    exact hmoved (some (other.begun run.now)) hloops fun hnone => ⟨_, rfl, rfl, rfl, hnone⟩
  | @fireRefresh _ _ _ other hloops _ _ hsame =>
    rw [Listens, hsame.loops]
    refine hmoved _ hloops fun hnone => ?_
    have hbegun : (other.begun run.now).signal = .none := hnone
    exact ⟨_, Loop.free_of_none hbegun, rfl, rfl, hnone⟩
  | leave hloops _ htold' hsame =>
    have hleft := hmoved none hloops fun hnone => absurd hnone htold'
    rw [Option.toList_none, List.append_nil] at hleft
    rw [Listens, hsame.loops]
    exact hleft
  | @endRescan _ _ _ _ owner _ _ hsame =>
    rw [Listens, hsame.loops]
    exact hfreed owner .refresh
  | @finish _ _ _ tick _ _ hsame =>
    rw [Listens, hsame.loops]
    cases tick.session with
    | none => exact ⟨loop, hloop, hsession, htask, hsignal⟩
    | some owner => exact hfreed owner .scrape
  | arm hsame =>
    have hloops := hsame.loops
    exact ⟨loop, hloops ▸ List.mem_append_left _ hloop, hsession, htask, hsignal⟩
  | tell other signal _ hsame =>
    have hother : loop.session ≠ other := fun hown =>
      htold signal (by rw [← hown, hsession])
    exact ⟨loop, hsame.loops ▸ mem_tell.2 (Or.inl ⟨hloop, hother⟩), hsession, htask, hsignal⟩

theorem Listens.play {task : Task} (h : run.Listens session task) (moves : List (Move ρ))
    (htold : ∀ move ∈ moves, ∀ signal, move.told? ≠ some (session, signal)) :
    (run.play moves).Listens session task := by
  induction moves generalizing run with
  | nil => exact h
  | cons move moves ih =>
    exact ih (h.step (run.step_move move) (htold move List.mem_cons_self)) fun other hother =>
      htold other (List.mem_cons_of_mem _ hother)

theorem told?_eq_some {move : Move ρ} {session : Nat} {signal : Signal}
    (h : move.told? = some (session, signal)) : move = .stop session ∨ move = .drop session := by
  cases move with
  | stop other =>
    obtain ⟨rfl, -⟩ := Prod.mk.inj (Option.some.inj h)
    exact Or.inl rfl
  | drop other =>
    obtain ⟨rfl, -⟩ := Prod.mk.inj (Option.some.inj h)
    exact Or.inr rfl
  | _ => exact absurd h nofun

/-! ## The pace of every loop -/

theorem paced_play (run : Run ρ) (before after : List (Move ρ)) :
    (run.fresh.play (before ++ .start :: after)).Paced (run.fresh.play before).sessions
      (run.fresh.play before).now (run.fresh.begunTicks (before ++ .start :: after)) := by
  have hstart : ((run.fresh.play (before ++ [.start])).InCourse
      (run.fresh.begunTicks (before ++ [.start])) (run.fresh.endedTicks (before ++ [.start]))) ∧
      (run.fresh.play (before ++ [.start])).Paced (run.fresh.play before).sessions
        (run.fresh.play before).now (run.fresh.begunTicks (before ++ [.start])) := by
    refine ⟨run.inCourse_play _, ?_⟩
    rw [play_append, begunTicks_append, begunTicks_singleton]
    have hnone : (run.fresh.play before).begun? .start = none := rfl
    rw [hnone, Option.toList_none, List.append_nil]
    exact paced_arm (run.inCourse_play before)
  rw [List.append_cons]
  refine (play_induction (P := fun begun ended state => state.InCourse begun ended ∧
    state.Paced (run.fresh.play before).sessions (run.fresh.play before).now begun)
    (before ++ [.start]) hstart (fun h hstep => ?_) after).2
  exact ⟨h.1.step hstep, h.2.step h.1 hstep⟩

/-- The ticks of a loop that was started at some moment of a course. The first begins at that
moment. No two are under way together, and each ends with its last call. From the beginning of one
to the beginning of the next it takes at least the interval, less five milliseconds, and at most
the interval or, if that is longer, the time that a call may take ; the loop does not let more time
pass than that unless it is told something. If no tick takes longer than the interval, then they
begin just one interval apart. -/
theorem pace_play (run : Run ρ) (before after : List (Move ρ)) :
    let opened := run.fresh
    let called := opened.play before
    let moves := before ++ .start :: after
    let present := opened.play moves
    let session := called.sessions
    let ticks := ticksOf session (opened.begunTicks moves)
    let interval := run.config.scrapeInterval.millisUp
    let limit := run.config.callTimeout.millisUp
    (∀ tick ∈ ticks.head?, tick.time = called.now) ∧
      (present.ticks.filter (·.session = some session)).length ≤ 1 ∧
      (∀ tick ∈ ticks, ∀ late ∈ opened.endedTicks moves, late.number = tick.number →
        late.time = tick.ends) ∧
      ticks.IsChain (fun tick next =>
        tick.ends ≤ next.time ∧ tick.time + interval ≤ next.time + 5 ∧
          next.time ≤ tick.time + max interval limit) ∧
      ((∀ move ∈ after, move ≠ .stop session ∧ move ≠ .drop session) →
        (ticks = [] → present.now = called.now) ∧
          ∀ last ∈ ticks.getLast?, present.now ≤ last.time + max interval limit) ∧
      ∀ (k : Nat) (tick : TickAt), ticks[k]? = some tick →
        (∀ prior ∈ ticks.take k, prior.ends ≤ prior.time + interval) →
          tick.time = called.now + k * interval := by
  intro opened called moves present session ticks interval limit
  have hcourse : present.InCourse (opened.begunTicks moves) (opened.endedTicks moves) :=
    run.inCourse_play moves
  have hpaced : present.Paced session called.now (opened.begunTicks moves) :=
    run.paced_play before after
  have hconfig : present.config = run.config := (opened.config_epoch_play moves).1
  have hpace : Pace interval limit called.now ticks := by
    have hpace := hpaced.pace
    rwa [hconfig] at hpace
  refine ⟨fun tick => hpace.head, hcourse.length_filter_le_one session,
    fun tick htick late hlate hnumber => ?_,
    hpace.chain.imp fun tick next h => ⟨h.ends_le, h.apart, h.close⟩, fun htold => ?_, hpace.grid⟩
  · exact (hcourse.ledger.time_eq_ends (mem_ticksOf.1 htick).1 hlate hnumber).1
  · have hlistens : present.Listens session .scrape := by
      have hplay := (Listens.of_start called .scrape).play after fun move hmove signal hsignal =>
        (told?_eq_some hsignal).elim (htold move hmove).1 (htold move hmove).2
      rwa [← play_cons, ← play_append] at hplay
    obtain ⟨loop, hloop, hsession, htask, -⟩ := hlistens
    obtain ⟨hnone, hlast⟩ := hpaced.now_le hcourse hloop hsession htask
    rw [hconfig] at hlast
    refine ⟨fun hticks => Nat.le_antisymm (hnone hticks) ?_, hlast⟩
    have hnow := (opened.play before).now_le_play (.start :: after)
    rwa [← play_append] at hnow

end Run

end Vitals
