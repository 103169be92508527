import Mathlib.Data.List.Pairwise
import Vitals.Proofs.Collector.Ledger

/-!
# The loops of a collector

A pair of loops has one loop that scrapes and one that refreshes. Each waits for its task to end,
and that is why the ticks of a pair follow one another while all others may overlap : a pair has at
most one tick and one refresh under way, namely when its loops wait for them (`Run.Orderly`), and
the ticks of a pair end in the order in which they begin (`Run.Orderly.inOrder`). Every move keeps
this (`Run.Orderly.step`).
-/

set_option linter.unusedSectionVars false

namespace Vitals

/-- The loops belong to different pairs or have different tasks. -/
def Loop.Apart (loop other : Loop) : Prop :=
  ¬(loop.session = other.session ∧ loop.task = other.task)

instance : Std.Symm Loop.Apart := ⟨fun _ _ hapart hsame => hapart ⟨hsame.1.symm, hsame.2.symm⟩⟩

/-- The number of a tick, and the pair of loops that started it, if one did. -/
abbrev Ticket := Nat × Option Nat

/-- The number of the tick, and who started it. -/
def Tick.ticket (tick : Tick) : Ticket := (tick.number, tick.session)

/-- The ticks are not both of one pair of loops. -/
def Ticket.Apart (ticket other : Ticket) : Prop :=
  ∀ session, ticket.2 = some session → other.2 ≠ some session

instance : Std.Symm Ticket.Apart := ⟨fun _ _ hapart session hother hticket =>
  hapart session hticket hother⟩

namespace Run

variable {ρ : Type} [Discovery ρ] {run next : Run ρ} {begun ended : List TickAt}

/-- The ticks under way. -/
def tickets (run : Run ρ) : List Ticket := run.ticks.map Tick.ticket

/-- The task that the loop waits for is under way. -/
def Awaited (run : Run ρ) (loop : Loop) : Prop :=
  match loop.task with
  | .scrape => ∃ number, (number, some loop.session) ∈ run.tickets
  | .refresh => loop.session ∈ run.rescanners

/-- The loops, and the ticks and refreshes under way, belong together. -/
structure Orderly (begun ended : List TickAt) (run : Run ρ) : Prop where
  apart : run.loops.Pairwise Loop.Apart
  started : ∀ loop ∈ run.loops, loop.session < run.sessions
  interval : ∀ loop ∈ run.loops, loop.interval = run.config.interval loop.task
  /-- A loop waits only for a task of its pair that is under way. -/
  waits : ∀ loop ∈ run.loops, loop.busy → run.Awaited loop
  /-- A tick of a pair is waited for. -/
  awaited : ∀ number session, (number, some session) ∈ run.tickets →
    ∃ loop ∈ run.loops, loop.session = session ∧ loop.task = .scrape ∧ loop.busy
  /-- A refresh of a pair is waited for. -/
  rescanned : ∀ session ∈ run.rescanners,
    ∃ loop ∈ run.loops, loop.session = session ∧ loop.task = .refresh ∧ loop.busy
  single : run.tickets.Pairwise Ticket.Apart
  alone : run.rescanners.Nodup
  /-- The ticks of a pair end in the order in which they begin. -/
  inOrder : ∀ session,
    (ended.filter (·.session = some session)).map (·.number) ++
        (run.tickets.filter (·.2 = some session)).map (·.1) =
      (begun.filter (·.session = some session)).map (·.number)

theorem orderly_fresh (run : Run ρ) : run.fresh.Orderly [] [] where
  apart := List.Pairwise.nil
  started := nofun
  interval := nofun
  waits := nofun
  awaited := nofun
  rescanned := nofun
  single := List.Pairwise.nil
  alone := List.nodup_nil
  inOrder _ := rfl

theorem Awaited.congr {loop other : Loop} (h : run.Awaited loop)
    (hsession : other.session = loop.session) (htask : other.task = loop.task)
    (htickets : ∀ number, (number, some loop.session) ∈ run.tickets →
      ∃ number, (number, some loop.session) ∈ next.tickets)
    (hrescanners : loop.session ∈ run.rescanners → loop.session ∈ next.rescanners) :
    next.Awaited other := by
  unfold Awaited at h ⊢
  rw [hsession, htask]
  cases htask' : loop.task with
  | scrape =>
    rw [htask'] at h
    obtain ⟨number, hnumber⟩ := h
    exact htickets number hnumber
  | refresh =>
    rw [htask'] at h
    exact hrescanners h

namespace Orderly

/-- Of two loops that are not apart there is only one. -/
theorem eq_of_mem (h : run.Orderly begun ended) {loop other : Loop} (hloop : loop ∈ run.loops)
    (hother : other ∈ run.loops) (hsession : loop.session = other.session)
    (htask : loop.task = other.task) : loop = other := by
  by_contra hne
  exact h.apart.forall hloop hother hne ⟨hsession, htask⟩

/-- A loop that is due and one that waits are two. -/
theorem mem_of_busy {before after : List Loop} {loop waiting : Loop}
    (hloops : run.loops = before ++ loop :: after) (hdue : loop.isDue run.now)
    (hwaiting : waiting ∈ run.loops) (hbusy : waiting.busy) : waiting ∈ before ++ after := by
  rw [hloops] at hwaiting
  rcases List.mem_append.1 hwaiting with hmem | hmem
  · exact List.mem_append_left _ hmem
  · rcases List.mem_cons.1 hmem with rfl | hmem
    · simp [Loop.isDue, hbusy] at hdue
    · exact List.mem_append_right _ hmem

/-- A loop that may begin to scrape has no tick under way. -/
theorem ne_of_isDue (h : run.Orderly begun ended) {loop : Loop} (hloop : loop ∈ run.loops)
    (hdue : loop.isDue run.now) (htask : loop.task = .scrape) {ticket : Ticket}
    (hticket : ticket ∈ run.tickets) : ticket.2 ≠ some loop.session := by
  intro hsession
  obtain ⟨waiting, hwaiting, hsame, hscrape, hbusy⟩ := h.awaited ticket.1 loop.session
    (hsession ▸ hticket)
  obtain rfl := h.eq_of_mem hwaiting hloop hsame (hscrape.trans htask.symm)
  simp [Loop.isDue, hbusy] at hdue

/-- A loop that may begin to refresh has no refresh under way. -/
theorem not_mem_rescanners_of_isDue (h : run.Orderly begun ended) {loop : Loop}
    (hloop : loop ∈ run.loops) (hdue : loop.isDue run.now) (htask : loop.task = .refresh) :
    loop.session ∉ run.rescanners := by
  intro hmem
  obtain ⟨waiting, hwaiting, hsame, hrefresh, hbusy⟩ := h.rescanned loop.session hmem
  obtain rfl := h.eq_of_mem hwaiting hloop hsame (hrefresh.trans htask.symm)
  simp [Loop.isDue, hbusy] at hdue

/-- A loop that refreshes does not wait if no refresh is under way. -/
theorem busy_eq_false (h : run.Orderly begun ended) (hrescans : run.rescans = []) {loop : Loop}
    (hloop : loop ∈ run.loops) (htask : loop.task = .refresh) : loop.busy = false := by
  refine Bool.eq_false_iff.2 fun hbusy => ?_
  have hawaited := h.waits loop hloop hbusy
  rw [Awaited, htask, rescanners, hrescans] at hawaited
  exact absurd hawaited List.not_mem_nil

/-! ### What keeps the order -/

/-- The order is one of the loops, the tickets and the refreshes of loops alone. -/
theorem congr (h : run.Orderly begun ended) (hconfig : next.config = run.config)
    (hloops : next.loops = run.loops) (hsessions : next.sessions = run.sessions)
    (htickets : next.tickets = run.tickets) (hrescanners : next.rescanners = run.rescanners) :
    next.Orderly begun ended where
  apart := hloops ▸ h.apart
  started := by rw [hloops, hsessions]; exact h.started
  interval := by rw [hloops, hconfig]; exact h.interval
  waits loop hloop hbusy := (h.waits loop (hloops ▸ hloop) hbusy).congr rfl rfl
    (fun number hticket => ⟨number, htickets ▸ hticket⟩) fun hmem => hrescanners ▸ hmem
  awaited := by rw [hloops, htickets]; exact h.awaited
  rescanned := by rw [hloops, hrescanners]; exact h.rescanned
  single := htickets ▸ h.single
  alone := hrescanners ▸ h.alone
  inOrder := htickets ▸ h.inOrder

theorem alike (h : run.Orderly begun ended) (hsame : Alike run next) :
    next.Orderly begun ended :=
  h.congr hsame.config hsame.loops hsame.sessions (congrArg (List.map Tick.ticket) hsame.ticks)
    hsame.rescanners

theorem mem_or_mem {before after more : List Loop} {loop other : Loop}
    (hloops : run.loops = before ++ loop :: after) (hother : other ∈ before ++ after ++ more) :
    other ∈ run.loops ∨ other ∈ more := by
  refine (List.mem_append.1 hother).imp_left fun hmem => ?_
  rw [hloops]
  rcases List.mem_append.1 hmem with hmem | hmem
  · exact List.mem_append_left _ hmem
  · exact List.mem_append_right _ (List.mem_cons_of_mem _ hmem)

/-- A loop that is taken out leaves no other loop of its pair with its task. -/
theorem apart_rest (h : run.Orderly begun ended) {before after : List Loop} {loop : Loop}
    (hloops : run.loops = before ++ loop :: after) :
    (∀ other ∈ before ++ after, loop.Apart other) ∧ (before ++ after).Pairwise Loop.Apart := by
  have hsymm : ∀ {loop other : Loop}, loop.Apart other → other.Apart loop :=
    fun hapart hsame => hapart ⟨hsame.1.symm, hsame.2.symm⟩
  have hapart := h.apart
  rw [hloops] at hapart
  exact List.pairwise_cons.1 ((List.pairwise_middle hsymm).1 hapart)

/-- A loop that begins its task goes to the end of the list, with another deadline, if it does not
end. -/
theorem apart_begun (h : run.Orderly begun ended) {before after : List Loop}
    {loop : Loop} (kept : Option Loop) (hloops : run.loops = before ++ loop :: after)
    (hkept : ∀ other ∈ kept, other.session = loop.session ∧ other.task = loop.task) :
    (before ++ after ++ kept.toList).Pairwise Loop.Apart := by
  obtain ⟨hloop, hothers⟩ := h.apart_rest hloops
  refine List.pairwise_append.2 ⟨hothers, ?_, fun other hother last hmem => ?_⟩
  · cases kept with
    | none => exact List.Pairwise.nil
    | some last => exact List.pairwise_singleton _ _
  · obtain ⟨hsession, htask⟩ := hkept last (Option.mem_toList.1 hmem)
    refine fun hsame => hloop other hother ⟨?_, ?_⟩
    · exact hsession.symm.trans hsame.1.symm
    · exact htask.symm.trans hsame.2.symm

/-- A loop that is due ends, or has another deadline and waits for nothing. -/
theorem skip (h : run.Orderly begun ended) {before after : List Loop} {loop : Loop}
    (kept : Option Loop) (hloops : run.loops = before ++ loop :: after)
    (hdue : loop.isDue run.now)
    (hkept : ∀ other ∈ kept, other.session = loop.session ∧ other.task = loop.task ∧
      other.interval = loop.interval ∧ other.busy = false) :
    { run with loops := before ++ after ++ kept.toList }.Orderly begun ended := by
  have hmem : loop ∈ run.loops := by simp [hloops]
  exact {
    apart := h.apart_begun kept hloops fun other hother =>
      ⟨(hkept other hother).1, (hkept other hother).2.1⟩
    started := fun other hother => by
      rcases mem_or_mem hloops hother with hother | hother
      · exact h.started other hother
      · exact (hkept other (Option.mem_toList.1 hother)).1 ▸ h.started loop hmem
    interval := fun other hother => by
      rcases mem_or_mem hloops hother with hother | hother
      · exact h.interval other hother
      · obtain ⟨-, htask, hinterval, -⟩ := hkept other (Option.mem_toList.1 hother)
        rw [hinterval, htask]
        exact h.interval loop hmem
    waits := fun other hother hbusy => by
      rcases mem_or_mem hloops hother with hother | hother
      · exact (h.waits other hother hbusy).congr rfl rfl (fun number hticket => ⟨number, hticket⟩)
          id
      · have hfree := (hkept other (Option.mem_toList.1 hother)).2.2.2
        exact absurd (hfree.symm.trans hbusy) Bool.false_ne_true
    awaited := fun number session hticket => by
      obtain ⟨waiting, hwaiting, hsession, htask, hbusy⟩ := h.awaited number session hticket
      exact ⟨waiting, List.mem_append_left _ (mem_of_busy hloops hdue hwaiting hbusy), hsession,
        htask, hbusy⟩
    rescanned := fun session hsession => by
      obtain ⟨waiting, hwaiting, hsession, htask, hbusy⟩ := h.rescanned session hsession
      exact ⟨waiting, List.mem_append_left _ (mem_of_busy hloops hdue hwaiting hbusy), hsession,
        htask, hbusy⟩
    single := h.single
    alone := h.alone
    inOrder := h.inOrder }

theorem single_append (h : run.Orderly begun ended) {ticket : Ticket}
    (happart : ∀ other ∈ run.tickets, Ticket.Apart other ticket) :
    (run.tickets ++ [ticket]).Pairwise Ticket.Apart := by
  refine List.pairwise_append.2
    ⟨h.single, List.pairwise_singleton _ _, fun other hother _ hmem => ?_⟩
  rw [List.mem_singleton.1 hmem]
  exact happart other hother

theorem inOrder_append (h : run.Orderly begun ended) (early : TickAt) (session : Nat) :
    (ended.filter (·.session = some session)).map (·.number) ++
        ((run.tickets ++ [(early.number, early.session)]).filter (·.2 = some session)).map (·.1) =
      ((begun ++ [early]).filter (·.session = some session)).map (·.number) := by
  rw [List.filter_append, List.filter_append, List.map_append, List.map_append,
    ← h.inOrder session, ← List.append_assoc]
  by_cases hsession : early.session = some session <;> simp [hsession]

theorem mem_tickets_append {ticket : Ticket} {session : Option Nat} :
    ticket ∈ run.tickets ++ [(run.ticksBegun, session)] ↔
      ticket ∈ run.tickets ∨ ticket = (run.ticksBegun, session) := by
  rw [List.mem_append, List.mem_singleton]

/-- A tick is asked for by hand. -/
theorem scrape (h : run.Orderly begun ended) :
    { run with
      ticks := run.ticks ++ [run.nextTick none]
      ticksBegun := run.ticksBegun + 1 }.Orderly
      (begun ++ [TickAt.mk run.now (run.nextTick none)]) ended := by
  have htickets : { run with
      ticks := run.ticks ++ [run.nextTick none]
      ticksBegun := run.ticksBegun + 1 }.tickets = run.tickets ++ [(run.ticksBegun, none)] :=
    List.map_append
  exact {
    apart := h.apart
    started := h.started
    interval := h.interval
    waits := fun loop hloop hbusy => (h.waits loop hloop hbusy).congr rfl rfl
      (fun number hticket => ⟨number, htickets ▸ mem_tickets_append.2 (Or.inl hticket)⟩) id
    awaited := fun number session hticket => by
      rw [htickets] at hticket
      rcases mem_tickets_append.1 hticket with hticket | hnew
      · exact h.awaited number session hticket
      · exact absurd (congrArg Prod.snd hnew) nofun
    rescanned := h.rescanned
    single := htickets ▸ h.single_append fun _ _ _ _ => nofun
    alone := h.alone
    inOrder := htickets ▸ h.inOrder_append ⟨run.now, run.nextTick none⟩ }

/-- A loop begins to scrape. -/
theorem fireScrape (h : run.Orderly begun ended) {before after : List Loop} {loop : Loop}
    (hloops : run.loops = before ++ loop :: after) (hdue : loop.isDue run.now)
    (htask : loop.task = .scrape) :
    { run with
      loops := before ++ after ++ [loop.begun run.now]
      ticks := run.ticks ++ [run.nextTick (some loop.session)]
      ticksBegun := run.ticksBegun + 1 }.Orderly
      (begun ++ [TickAt.mk run.now (run.nextTick (some loop.session))]) ended := by
  have hmem : loop ∈ run.loops := by simp [hloops]
  have htickets : { run with
      loops := before ++ after ++ [loop.begun run.now]
      ticks := run.ticks ++ [run.nextTick (some loop.session)]
      ticksBegun := run.ticksBegun + 1 }.tickets =
        run.tickets ++ [(run.ticksBegun, some loop.session)] :=
    List.map_append
  exact {
    apart := h.apart_begun (some (loop.begun run.now)) hloops fun other hother => by
      obtain rfl := Option.some.inj hother
      exact ⟨rfl, rfl⟩
    started := fun other hother => by
      rcases mem_or_mem hloops hother with hother | hother
      · exact h.started other hother
      · obtain rfl := List.mem_singleton.1 hother
        exact h.started loop hmem
    interval := fun other hother => by
      rcases mem_or_mem hloops hother with hother | hother
      · exact h.interval other hother
      · obtain rfl := List.mem_singleton.1 hother
        exact h.interval loop hmem
    waits := fun other hother hbusy => by
      rcases mem_or_mem hloops hother with hother | hother
      · exact (h.waits other hother hbusy).congr rfl rfl
          (fun number hticket => ⟨number, htickets ▸ mem_tickets_append.2 (Or.inl hticket)⟩) id
      · obtain rfl := List.mem_singleton.1 hother
        have hscrape : (loop.begun run.now).task = .scrape := htask
        unfold Awaited
        rw [hscrape, htickets]
        exact ⟨run.ticksBegun, mem_tickets_append.2 (Or.inr rfl)⟩
    awaited := fun number session hticket => by
      rw [htickets] at hticket
      rcases mem_tickets_append.1 hticket with hticket | hnew
      · obtain ⟨waiting, hwaiting, hsession, hscrape, hbusy⟩ := h.awaited number session hticket
        exact ⟨waiting, List.mem_append_left _ (mem_of_busy hloops hdue hwaiting hbusy),
          hsession, hscrape, hbusy⟩
      · obtain ⟨-, hsession⟩ := Prod.mk.inj hnew
        exact ⟨_, List.mem_append_right _ List.mem_cons_self, (Option.some.inj hsession).symm,
          htask, rfl⟩
    rescanned := fun session hsession => by
      obtain ⟨waiting, hwaiting, hsession, hrefresh, hbusy⟩ := h.rescanned session hsession
      exact ⟨waiting, List.mem_append_left _ (mem_of_busy hloops hdue hwaiting hbusy), hsession,
        hrefresh, hbusy⟩
    single := by
      rw [htickets]
      refine h.single_append fun other hother session hsession => ?_
      rintro ⟨⟩
      exact h.ne_of_isDue hmem hdue htask hother hsession
    alone := h.alone
    inOrder := htickets ▸ h.inOrder_append ⟨run.now, run.nextTick (some loop.session)⟩ }

/-- A loop begins to refresh, and waits for the registry. -/
theorem fireRescan (h : run.Orderly begun ended) {before after : List Loop} {loop : Loop}
    (hloops : run.loops = before ++ loop :: after) (hdue : loop.isDue run.now)
    (htask : loop.task = .refresh) :
    { run with
      loops := before ++ after ++ [loop.begun run.now]
      rescans := run.rescans ++ [Rescan.mk (some loop.session) .listing] }.Orderly begun ended := by
  have hmem : loop ∈ run.loops := by simp [hloops]
  have hrescanners : { run with
      loops := before ++ after ++ [loop.begun run.now]
      rescans := run.rescans ++ [Rescan.mk (some loop.session) .listing] }.rescanners =
        run.rescanners ++ [loop.session] :=
    List.filterMap_append
  exact {
    apart := h.apart_begun (some (loop.begun run.now)) hloops fun other hother => by
      obtain rfl := Option.some.inj hother
      exact ⟨rfl, rfl⟩
    started := fun other hother => by
      rcases mem_or_mem hloops hother with hother | hother
      · exact h.started other hother
      · obtain rfl := List.mem_singleton.1 hother
        exact h.started loop hmem
    interval := fun other hother => by
      rcases mem_or_mem hloops hother with hother | hother
      · exact h.interval other hother
      · obtain rfl := List.mem_singleton.1 hother
        exact h.interval loop hmem
    waits := fun other hother hbusy => by
      rcases mem_or_mem hloops hother with hother | hother
      · exact (h.waits other hother hbusy).congr rfl rfl (fun number hticket => ⟨number, hticket⟩)
          fun hsession => hrescanners ▸ List.mem_append_left _ hsession
      · obtain rfl := List.mem_singleton.1 hother
        have hrefresh : (loop.begun run.now).task = .refresh := htask
        unfold Awaited
        rw [hrefresh, hrescanners]
        exact List.mem_append_right _ List.mem_cons_self
    awaited := fun number session hticket => by
      obtain ⟨waiting, hwaiting, hsession, hscrape, hbusy⟩ := h.awaited number session hticket
      exact ⟨waiting, List.mem_append_left _ (mem_of_busy hloops hdue hwaiting hbusy), hsession,
        hscrape, hbusy⟩
    rescanned := fun session hsession => by
      rw [hrescanners] at hsession
      rcases List.mem_append.1 hsession with hsession | hnew
      · obtain ⟨waiting, hwaiting, hsession, hrefresh, hbusy⟩ := h.rescanned session hsession
        exact ⟨waiting, List.mem_append_left _ (mem_of_busy hloops hdue hwaiting hbusy), hsession,
          hrefresh, hbusy⟩
      · exact ⟨_, List.mem_append_right _ List.mem_cons_self, (List.mem_singleton.1 hnew).symm,
          htask, rfl⟩
    single := h.single
    alone := by
      rw [hrescanners]
      refine List.nodup_append.2 ⟨h.alone, List.nodup_singleton _, fun other hother _ hnew => ?_⟩
      rintro rfl
      obtain rfl := List.mem_singleton.1 hnew
      exact h.not_mem_rescanners_of_isDue hmem hdue htask hother
    inOrder := h.inOrder }

/-- Of the ticks of a pair no other is under way. -/
theorem filter_of_single {before after : List Ticket} {ticket : Ticket}
    (h : (before ++ ticket :: after).Pairwise Ticket.Apart) {session : Nat}
    (hsession : ticket.2 = some session) :
    (before ++ after).filter (·.2 = some session) = [] := by
  have hsymm : ∀ {ticket other : Ticket}, ticket.Apart other → other.Apart ticket :=
    fun hapart session hother hticket => hapart session hticket hother
  obtain ⟨hapart, -⟩ := List.pairwise_cons.1 ((List.pairwise_middle hsymm).1 h)
  refine List.filter_eq_nil_iff.2 fun other hother hown => ?_
  exact hapart other hother session hsession (of_decide_eq_true hown)

/-- A tick that ends is the next of its pair to do so. -/
theorem inOrder_remove (h : run.Orderly begun ended) {before after : List Ticket} {late : TickAt}
    (htickets : run.tickets = before ++ late.tick.ticket :: after) (session : Nat) :
    ((ended ++ [late]).filter (·.session = some session)).map (·.number) ++
        ((before ++ after).filter (·.2 = some session)).map (·.1) =
      (begun.filter (·.session = some session)).map (·.number) := by
  rw [← h.inOrder session, htickets]
  by_cases hsession : late.session = some session
  · have hsingle := h.single
    rw [htickets] at hsingle
    have hnone := filter_of_single hsingle hsession
    have hticket : late.tick.ticket.2 = some session := hsession
    rw [hnone]
    rw [List.filter_append, List.append_eq_nil_iff] at hnone
    simp [hnone.1, hnone.2, hsession, hticket]
    rfl
  · have hother : late.tick.ticket.2 ≠ some session := hsession
    simp [hsession, hother]

theorem tickets_split {before after : List Tick} {tick : Tick}
    (hticks : run.ticks = before ++ tick :: after) :
    run.tickets = before.map Tick.ticket ++ tick.ticket :: after.map Tick.ticket := by
  rw [tickets, hticks, List.map_append, List.map_cons]

/-- A tick ends that was asked for by hand. -/
theorem finish_none (h : run.Orderly begun ended) {before after : List Tick} {tick : Tick}
    (hticks : run.ticks = before ++ tick :: after) (hsession : tick.session = none) :
    { run with ticks := before ++ after }.Orderly begun (ended ++ [TickAt.mk run.now tick]) := by
  have htickets := tickets_split hticks
  have hafter : { run with ticks := before ++ after }.tickets =
      before.map Tick.ticket ++ after.map Tick.ticket := List.map_append
  have hmem : ∀ number session, (number, some session) ∈ run.tickets ↔
      (number, some session) ∈ { run with ticks := before ++ after }.tickets := by
    intro number session
    have hother : (number, some session) ≠ tick.ticket := fun hown =>
      absurd ((congrArg Prod.snd hown).trans hsession) nofun
    rw [htickets, hafter]
    simp [hother]
  exact {
    apart := h.apart
    started := h.started
    interval := h.interval
    waits := fun loop hloop hbusy => (h.waits loop hloop hbusy).congr rfl rfl
      (fun number hticket => ⟨number, (hmem number loop.session).1 hticket⟩) id
    awaited := fun number session hticket =>
      h.awaited number session ((hmem number session).2 hticket)
    rescanned := h.rescanned
    single := by
      rw [hafter]
      exact (htickets ▸ h.single).sublist (List.Sublist.append_left (List.sublist_cons_self _ _) _)
    alone := h.alone
    inOrder := hafter ▸ h.inOrder_remove htickets }

/-- The loops that were freed are still apart. -/
theorem apart_freeLoop (h : run.Orderly begun ended) (session : Nat) (task : Task) :
    (run.freeLoop session task).loops.Pairwise Loop.Apart := by
  refine h.apart.filterMap _ fun loop other hapart kept hkept later hlater hsame => ?_
  have hsame' : ∀ {before after : Loop}, (if before.session = session ∧ before.task = task ∧
      before.busy then before.free run.now else some before) = some after →
        after.session = before.session ∧ after.task = before.task := by
    intro before after hafter
    split at hafter
    · obtain ⟨rfl, -⟩ := Loop.free_eq_some hafter
      exact ⟨rfl, rfl⟩
    · obtain rfl := Option.some.inj hafter
      exact ⟨rfl, rfl⟩
  obtain ⟨hsession, htask⟩ := hsame' hkept
  obtain ⟨hsession', htask'⟩ := hsame' hlater
  exact hapart ⟨hsession.symm.trans (hsame.1.trans hsession'),
    htask.symm.trans (hsame.2.trans htask')⟩

/-- A tick of a pair of loops ends, and the loop that waited for it is free or ends too. -/
theorem finish_some (h : run.Orderly begun ended) {before after : List Tick} {tick : Tick}
    (hticks : run.ticks = before ++ tick :: after) {session : Nat}
    (hsession : tick.session = some session) :
    { run with
      loops := (run.freeLoop session .scrape).loops, ticks := before ++ after }.Orderly begun
      (ended ++ [TickAt.mk run.now tick]) := by
  have htickets := tickets_split hticks
  have hafter : { run with
      loops := (run.freeLoop session .scrape).loops, ticks := before ++ after }.tickets =
      before.map Tick.ticket ++ after.map Tick.ticket := List.map_append
  have hsingle := h.single
  rw [htickets] at hsingle
  have hmem : ∀ number other, other ≠ session → ((number, some other) ∈ run.tickets ↔
      (number, some other) ∈ before.map Tick.ticket ++ after.map Tick.ticket) := by
    intro number other hother
    have hne : (number, some other) ≠ tick.ticket := fun hown =>
      hother (Option.some.inj ((congrArg Prod.snd hown).trans hsession))
    rw [htickets]
    simp [hne]
  exact {
    apart := h.apart_freeLoop session .scrape
    started := fun loop hloop => by
      obtain ⟨origin, horigin, hsame, -⟩ := origin_of_mem_freeLoop hloop
      exact hsame ▸ h.started origin horigin
    interval := fun loop hloop => by
      obtain ⟨origin, horigin, -, htask, hinterval, -⟩ := origin_of_mem_freeLoop hloop
      exact hinterval ▸ htask ▸ h.interval origin horigin
    waits := fun loop hloop hbusy => by
      obtain ⟨hloop, hother⟩ := busy_of_mem_freeLoop hloop hbusy
      have hawaited := h.waits loop hloop hbusy
      by_cases hown : loop.session = session
      · have htask : loop.task = .refresh := by
          cases htask : loop.task with
          | scrape => exact absurd ⟨hown, htask⟩ hother
          | refresh => rfl
        unfold Awaited at hawaited ⊢
        rw [htask] at hawaited ⊢
        exact hawaited
      · exact hawaited.congr rfl rfl
          (fun number hticket => ⟨number, hafter ▸ (hmem number loop.session hown).1 hticket⟩) id
    awaited := fun number other hticket => by
      rw [hafter] at hticket
      have hother : other ≠ session := by
        rintro rfl
        have hnone := List.filter_eq_nil_iff.1 (filter_of_single hsingle hsession) _ hticket
        exact hnone (decide_eq_true rfl)
      obtain ⟨loop, hloop, howner, hscrape, hbusy⟩ :=
        h.awaited number other ((hmem number other hother).2 hticket)
      exact ⟨loop, mem_freeLoop.2 (Or.inl ⟨hloop, fun hown => hother (howner ▸ hown.1)⟩), howner,
        hscrape, hbusy⟩
    rescanned := fun other hother => by
      obtain ⟨loop, hloop, howner, hrefresh, hbusy⟩ := h.rescanned other hother
      refine ⟨loop, mem_freeLoop.2 (Or.inl ⟨hloop, fun hown => ?_⟩), howner, hrefresh, hbusy⟩
      exact absurd (hrefresh.symm.trans hown.2.1) nofun
    single := by
      rw [hafter]
      exact hsingle.sublist (List.Sublist.append_left (List.sublist_cons_self _ _) _)
    alone := h.alone
    inOrder := hafter ▸ h.inOrder_remove htickets }

/-- A refresh of a pair of loops ends, and the loop that waited for it is free or ends too. -/
theorem endRescan (h : run.Orderly begun ended) {before after : List Rescan} {rescan : Rescan}
    (hrescans : run.rescans = before ++ rescan :: after) {session : Nat}
    (hsession : rescan.session = some session) :
    { run with
      loops := (run.freeLoop session .refresh).loops
      rescans := before ++ after }.Orderly begun ended := by
  have hrescanners : run.rescanners =
      before.filterMap (·.session) ++ session :: after.filterMap (·.session) := by
    rw [rescanners, hrescans, List.filterMap_append, List.filterMap_cons, hsession]
  have hafter : { run with
      loops := (run.freeLoop session .refresh).loops
      rescans := before ++ after }.rescanners =
        before.filterMap (·.session) ++ after.filterMap (·.session) :=
    List.filterMap_append
  obtain ⟨hnone, halone⟩ := List.nodup_middle.1 (hrescanners ▸ h.alone) |> List.nodup_cons.1
  have hmem : ∀ other, other ≠ session → (other ∈ run.rescanners ↔
      other ∈ before.filterMap (·.session) ++ after.filterMap (·.session)) := by
    intro other hother
    rw [hrescanners]
    simp [hother]
  exact {
    apart := h.apart_freeLoop session .refresh
    started := fun loop hloop => by
      obtain ⟨origin, horigin, hsame, -⟩ := origin_of_mem_freeLoop hloop
      exact hsame ▸ h.started origin horigin
    interval := fun loop hloop => by
      obtain ⟨origin, horigin, -, htask, hinterval, -⟩ := origin_of_mem_freeLoop hloop
      exact hinterval ▸ htask ▸ h.interval origin horigin
    waits := fun loop hloop hbusy => by
      obtain ⟨hloop, hother⟩ := busy_of_mem_freeLoop hloop hbusy
      have hawaited := h.waits loop hloop hbusy
      by_cases hown : loop.session = session
      · have htask : loop.task = .scrape := by
          cases htask : loop.task with
          | scrape => rfl
          | refresh => exact absurd ⟨hown, htask⟩ hother
        unfold Awaited at hawaited ⊢
        rw [htask] at hawaited ⊢
        exact hawaited
      · exact hawaited.congr rfl rfl (fun number hticket => ⟨number, hticket⟩)
          fun hsome => hafter ▸ (hmem loop.session hown).1 hsome
    awaited := fun number other hticket => by
      obtain ⟨loop, hloop, howner, hscrape, hbusy⟩ := h.awaited number other hticket
      refine ⟨loop, mem_freeLoop.2 (Or.inl ⟨hloop, fun hown => ?_⟩), howner, hscrape, hbusy⟩
      cases hscrape.symm.trans hown.2.1
    rescanned := fun other hsome => by
      rw [hafter] at hsome
      have hother : other ≠ session := by
        rintro rfl
        exact hnone hsome
      obtain ⟨loop, hloop, howner, hrefresh, hbusy⟩ :=
        h.rescanned other ((hmem other hother).2 hsome)
      exact ⟨loop, mem_freeLoop.2 (Or.inl ⟨hloop, fun hown => hother (howner ▸ hown.1)⟩), howner,
        hrefresh, hbusy⟩
    single := h.single
    alone := hafter ▸ halone
    inOrder := h.inOrder }

/-- A pair of loops is started. -/
theorem arm (h : run.Orderly begun ended) : run.arm.Orderly begun ended where
  apart := by
    refine List.pairwise_append.2 ⟨h.apart, ?_, fun loop hloop other hother hsame => ?_⟩
    · refine List.pairwise_pair.2 fun hsame => ?_
      exact absurd hsame.2 nofun
    · have hold := h.started loop hloop
      have hnew : other.session = run.sessions := by
        rcases List.mem_cons.1 hother with rfl | hother
        · rfl
        · rw [List.mem_singleton.1 hother]
      exact Nat.ne_of_lt hold (hsame.1.trans hnew)
  started loop hloop := by
    rcases mem_arm hloop with hloop | ⟨hsession, -⟩
    · exact Nat.lt_succ_of_lt (h.started loop hloop)
    · exact hsession ▸ Nat.lt_succ_self run.sessions
  interval loop hloop := by
    rcases mem_arm hloop with hloop | ⟨-, -, hinterval, -⟩
    · exact h.interval loop hloop
    · exact hinterval
  waits loop hloop hbusy := by
    rcases mem_arm hloop with hloop | ⟨-, hfree, -⟩
    · exact (h.waits loop hloop hbusy).congr rfl rfl (fun number hticket => ⟨number, hticket⟩) id
    · exact absurd (hfree.symm.trans hbusy) Bool.false_ne_true
  awaited number session hticket := by
    obtain ⟨loop, hloop, hwaits⟩ := h.awaited number session hticket
    exact ⟨loop, List.mem_append_left _ hloop, hwaits⟩
  rescanned session hsession := by
    obtain ⟨loop, hloop, hwaits⟩ := h.rescanned session hsession
    exact ⟨loop, List.mem_append_left _ hloop, hwaits⟩
  single := h.single
  alone := h.alone
  inOrder := h.inOrder

/-- A pair of loops is told something. -/
theorem tell (h : run.Orderly begun ended) (session : Nat) (signal : Signal) :
    (run.tell session signal).Orderly begun ended where
  apart := by
    refine h.apart.filterMap _ fun loop other hapart kept hkept later hlater hsame => ?_
    have hsame' : ∀ {before after : Loop}, (if before.session = session then
        before.tell run.now signal else some before) = some after →
          after.session = before.session ∧ after.task = before.task := by
      intro before after hafter
      split at hafter
      · obtain ⟨rfl, -⟩ := Loop.tell_eq_some hafter
        exact ⟨rfl, rfl⟩
      · obtain rfl := Option.some.inj hafter
        exact ⟨rfl, rfl⟩
    obtain ⟨hsession, htask⟩ := hsame' hkept
    obtain ⟨hsession', htask'⟩ := hsame' hlater
    exact hapart ⟨hsession.symm.trans (hsame.1.trans hsession'),
      htask.symm.trans (hsame.2.trans htask')⟩
  started loop hloop := by
    obtain ⟨origin, horigin, rfl | rfl⟩ := origin_of_mem_tell hloop
    · exact h.started loop horigin
    · exact h.started origin horigin
  interval loop hloop := by
    obtain ⟨origin, horigin, rfl | rfl⟩ := origin_of_mem_tell hloop
    · exact h.interval loop horigin
    · exact h.interval origin horigin
  waits loop hloop hbusy := by
    obtain ⟨origin, horigin, rfl | rfl⟩ := origin_of_mem_tell hloop
    · exact (h.waits loop horigin hbusy).congr rfl rfl (fun number hticket => ⟨number, hticket⟩) id
    · exact (h.waits origin horigin hbusy).congr rfl rfl
        (fun number hticket => ⟨number, hticket⟩) id
  awaited number other hticket := by
    obtain ⟨loop, hloop, howner, htask, hbusy⟩ := h.awaited number other hticket
    obtain ⟨kept, hkept, hsame⟩ := exists_mem_tell_of_busy session signal hloop hbusy
    exact ⟨kept, hkept, hsame.1.trans howner, hsame.2.1.trans htask, hsame.2.2⟩
  rescanned other hother := by
    obtain ⟨loop, hloop, howner, htask, hbusy⟩ := h.rescanned other hother
    obtain ⟨kept, hkept, hsame⟩ := exists_mem_tell_of_busy session signal hloop hbusy
    exact ⟨kept, hkept, hsame.1.trans howner, hsame.2.1.trans htask, hsame.2.2⟩
  single := h.single
  alone := h.alone
  inOrder := h.inOrder

/-- Every move keeps the order. -/
theorem step (h : run.Orderly begun ended) {fired : Option Loop} {early late : Option TickAt}
    {told : Option (Nat × Signal)} (hstep : Step run fired early late told next) :
    next.Orderly (begun ++ early.toList) (ended ++ late.toList) := by
  cases hstep with
  | same hsame => simpa using h.alike hsame
  | pass time _ _ hsame =>
    simpa using h.congr hsame.config hsame.loops hsame.sessions
      (congrArg (List.map Tick.ticket) hsame.ticks) hsame.rescanners
  | settle hsame =>
    simpa using h.congr hsame.config hsame.loops hsame.sessions
      ((congrArg (List.map Tick.ticket) hsame.ticks).trans List.map_map) hsame.rescanners
  | scrape hsame => simpa using h.scrape.alike hsame
  | fireScrape hloops hdue htask hsame => simpa using (h.fireScrape hloops hdue htask).alike hsame
  | @fireRefresh _ _ _ loop hloops hdue htask hsame =>
    have hskip := h.skip ((loop.begun run.now).free run.now) hloops hdue fun kept hkept => by
      obtain ⟨rfl, -⟩ := Loop.free_eq_some hkept
      exact ⟨rfl, rfl, rfl, rfl⟩
    simpa using hskip.alike hsame
  | fireRescan _ hloops hdue htask hsame =>
    simpa using (h.fireRescan hloops hdue htask).alike hsame
  | endRescan hrescans hsession hsame => simpa using (h.endRescan hrescans hsession).alike hsame
  | leave hloops hdue _ hsame =>
    have hleft := h.skip none hloops hdue nofun
    rw [Option.toList_none, List.append_nil] at hleft
    simpa using hleft.alike hsame
  | @finish _ _ _ tick hticks hover hsame =>
    have hloops := hsame.loops
    have htickets := congrArg (List.map Tick.ticket) hsame.ticks
    cases hsession : tick.session with
    | none =>
      rw [hsession] at hloops
      simpa using (h.finish_none hticks hsession).congr hsame.config hloops hsame.sessions htickets
        hsame.rescanners
    | some session =>
      rw [hsession] at hloops
      simpa using (h.finish_some hticks hsession).congr hsame.config hloops hsame.sessions htickets
        hsame.rescanners
  | arm hsame => simpa using h.arm.alike hsame
  | tell session signal _ hsame => simpa using (h.tell session signal).alike hsame

end Orderly

/-! ## All that holds in a course -/

theorem ends_nextTick_le (run : Run ρ) (session : Option Nat) :
    (TickAt.mk run.now (run.nextTick session)).ends ≤
      run.now + run.config.callTimeout.millisUp := by
  refine Tick.endsAt_le_iff.2 ⟨Nat.le_add_right _ _, fun call hcall => ?_⟩
  obtain ⟨attempt, -, rfl⟩ := List.mem_map.1 hcall
  exact Nat.add_le_add_left (attempt.behaviour.duration_le _) run.now

/-- The collector is where a course has led to in which these ticks have begun and ended. -/
structure InCourse (begun ended : List TickAt) (run : Run ρ) : Prop where
  ledger : run.Ledger begun ended
  orderly : run.Orderly begun ended
  /-- No tick takes longer than a call may take. -/
  bounded : ∀ early ∈ begun, early.ends ≤ early.time + run.config.callTimeout.millisUp
  /-- The loops that began a tick have been started. -/
  known : ∀ early ∈ begun, ∀ session, early.session = some session → session < run.sessions
  past : ∀ early ∈ begun, early.time ≤ run.now

namespace InCourse

theorem step (h : run.InCourse begun ended) {fired : Option Loop} {early late : Option TickAt}
    {told : Option (Nat × Signal)} (hstep : Step run fired early late told next) :
    next.InCourse (begun ++ early.toList) (ended ++ late.toList) where
  ledger := h.ledger.step hstep
  orderly := h.orderly.step hstep
  bounded other hother := by
    rw [hstep.config_epoch.1]
    rcases List.mem_append.1 hother with hother | hother
    · exact h.bounded other hother
    · cases hstep with
      | scrape | fireScrape =>
        obtain rfl := List.mem_singleton.1 hother
        exact run.ends_nextTick_le _
      | _ => exact absurd hother List.not_mem_nil
  known other hother session hsession := by
    refine Nat.lt_of_lt_of_le ?_ hstep.sessions_le
    rcases List.mem_append.1 hother with hother | hother
    · exact h.known other hother session hsession
    · cases hstep with
      | scrape =>
        obtain rfl := List.mem_singleton.1 hother
        exact absurd hsession nofun
      | fireScrape hloops =>
        obtain rfl := List.mem_singleton.1 hother
        obtain rfl := Option.some.inj hsession
        exact h.orderly.started _ (by simp [hloops])
      | _ => exact absurd hother List.not_mem_nil
  past other hother := by
    refine Nat.le_trans ?_ hstep.now_le
    rcases List.mem_append.1 hother with hother | hother
    · exact h.past other hother
    · cases hstep with
      | scrape | fireScrape =>
        obtain rfl := List.mem_singleton.1 hother
        exact Nat.le_refl _
      | _ => exact absurd hother List.not_mem_nil

end InCourse

theorem inCourse_play (run : Run ρ) (moves : List (Move ρ)) :
    (run.fresh.play moves).InCourse (run.fresh.begunTicks moves) (run.fresh.endedTicks moves) :=
  play_induction []
    { ledger := run.ledger_fresh, orderly := run.orderly_fresh, bounded := nofun, known := nofun
      past := nofun }
    (fun h hstep => h.step hstep) moves

end Run

end Vitals
