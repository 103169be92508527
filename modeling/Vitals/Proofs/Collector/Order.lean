import Vitals.Proofs.Collector.Loops
import Vitals.Registry.Memory

/-!
# The order of batches

Batches are published in the order in which the last calls of their ticks end, and not in the
order in which the ticks begin : a slow tick may be overtaken by one that was asked for later
(`Run.scrape_overtakes`). Only ticks of one pair of loops, which never overlap, always keep the
order of their beginnings (`Run.sublist_endedTicks`).
-/

set_option linter.unusedSectionVars false

namespace Vitals.Run

variable {ρ : Type} [Discovery ρ] {run : Run ρ} {begun ended : List TickAt}

/-- Of two entries of a list one comes first ; if they are told apart by the order, it is the
smaller one. -/
theorem sublist_pair_of_pairwise {α : Type} {R : α → α → Prop} {entries : List α}
    (h : entries.Pairwise R) {first second : α} (hfirst : first ∈ entries)
    (hsecond : second ∈ entries) (hne : first ≠ second) (horder : ¬R second first) :
    [first, second].Sublist entries := by
  obtain ⟨before, after, rfl⟩ := List.append_of_mem hfirst
  have hafter : second ∈ after := by
    rcases List.mem_append.1 hsecond with hmem | hmem
    · exact absurd ((List.pairwise_append.1 h).2.2 second hmem first List.mem_cons_self) horder
    · exact List.mem_of_ne_of_mem hne.symm hmem
  exact (List.singleton_sublist.2 hafter).cons_cons first |>.trans (List.sublist_append_right _ _)

namespace Ledger

/-- A tick is known by its number. -/
theorem eq_of_number (h : run.Ledger begun ended) {early other : TickAt} (hearly : early ∈ begun)
    (hother : other ∈ begun) (hnumber : early.number = other.number) : early = other := by
  have hnodup : (begun.map (·.number)).Nodup := h.numbers ▸ List.nodup_range
  exact List.inj_on_of_nodup_map hnodup hearly hother hnumber

/-- A tick that has begun ended at the end of its last call, if it has ended. -/
theorem time_eq_ends (h : run.Ledger begun ended) {early late : TickAt} (hearly : early ∈ begun)
    (hlate : late ∈ ended) (hnumber : late.number = early.number) :
    late.time = early.ends ∧ late.session = early.session := by
  obtain ⟨other, hother, hsame, hsession, -, htime⟩ := h.whole late hlate
  obtain rfl := h.eq_of_number hearly hother (hnumber.symm.trans hsame)
  exact ⟨htime, hsession⟩

/-- A tick that has begun has ended, or it is still under way. -/
theorem ended_or_underway (h : run.Ledger begun ended) {early : TickAt} (hearly : early ∈ begun) :
    early.number ∈ ended.map (·.number) ∨
      ∃ tick ∈ run.ticks, Continues run.epoch run.now early tick := by
  have hmem : early.number ∈ ended.map (·.number) ++ run.ticks.map (·.number) :=
    h.split.mem_iff.2 (List.mem_map_of_mem hearly)
  refine (List.mem_append.1 hmem).imp_right fun hmem => ?_
  obtain ⟨tick, htick, hnumber⟩ := List.mem_map.1 hmem
  obtain ⟨other, hother, hcontinues⟩ := h.underway tick htick
  obtain rfl := h.eq_of_number hearly hother (hnumber.symm.trans hcontinues.number)
  exact ⟨tick, htick, hcontinues⟩

/-- A tick whose last call would have ended in the past has ended. -/
theorem mem_ended (h : run.Ledger begun ended) {early : TickAt} (hearly : early ∈ begun)
    (hpast : early.ends < run.now) : early.number ∈ ended.map (·.number) :=
  (h.ended_or_underway hearly).resolve_right fun ⟨_, _, hcontinues⟩ =>
    absurd hcontinues.now_le (Nat.not_le.2 hpast)

/-- The tick whose last call ends first is published first. -/
theorem sublist_of_ends_lt (h : run.Ledger begun ended) {first second : TickAt}
    (hfirst : first ∈ begun) (hsecond : second ∈ begun) (hends : first.ends < second.ends)
    (hended : second.number ∈ ended.map (·.number)) :
    [first.number, second.number].Sublist (ended.map (·.number)) := by
  obtain ⟨late, hlate, hnumber⟩ := List.mem_map.1 hended
  obtain ⟨htime, -⟩ := h.time_eq_ends hsecond hlate hnumber
  have hpast : first.ends < run.now :=
    Nat.lt_of_lt_of_le (htime ▸ hends) (h.past late hlate)
  obtain ⟨before, hbefore, hnumber'⟩ := List.mem_map.1 (h.mem_ended hfirst hpast)
  obtain ⟨htime', -⟩ := h.time_eq_ends hfirst hbefore hnumber'
  have hearlier : before.time < late.time := by rwa [htime, htime']
  rw [← hnumber, ← hnumber']
  refine (sublist_pair_of_pairwise h.sorted hbefore hlate ?_ (Nat.not_le.2 hearlier)).map _
  rintro rfl
  exact Nat.lt_irrefl _ hearlier

/-- The numbers of the ticks of a pair of loops ascend. -/
theorem pairwise_number_filter (h : run.Ledger begun ended) (session : Nat) :
    ((begun.filter (·.session = some session)).map (·.number)).Pairwise (· < ·) := by
  have hall : (begun.map (·.number)).Pairwise (· < ·) := h.numbers ▸ List.pairwise_lt_range
  exact hall.sublist (List.filter_sublist.map _)

/-- The tick of a pair of loops that begins first is published first. -/
theorem sublist_of_session (h : run.Ledger begun ended) (horderly : run.Orderly begun ended)
    {first second : TickAt} {session : Nat} (hfirst : first ∈ begun) (hsecond : second ∈ begun)
    (hfirstSession : first.session = some session)
    (hsecondSession : second.session = some session) (hnumber : first.number < second.number)
    (hended : second.number ∈ ended.map (·.number)) :
    [first.number, second.number].Sublist (ended.map (·.number)) := by
  obtain ⟨late, hlate, hsame⟩ := List.mem_map.1 hended
  obtain ⟨-, hsession⟩ := h.time_eq_ends hsecond hlate hsame
  have hown : second.number ∈ (ended.filter (·.session = some session)).map (·.number) :=
    List.mem_map.2 ⟨late, List.mem_filter.2
      ⟨hlate, decide_eq_true (hsession.trans hsecondSession)⟩, hsame⟩
  have hmem : first.number ∈ (begun.filter (·.session = some session)).map (·.number) :=
    List.mem_map.2 ⟨first, List.mem_filter.2 ⟨hfirst, decide_eq_true hfirstSession⟩, rfl⟩
  have hascending := h.pairwise_number_filter session
  rw [← horderly.inOrder session] at hmem hascending
  obtain ⟨hendedAscending, -, hapart⟩ := List.pairwise_append.1 hascending
  rcases List.mem_append.1 hmem with hmem | hmem
  · refine (sublist_pair_of_pairwise hendedAscending hmem hown (Nat.ne_of_lt hnumber)
      (Nat.lt_asymm hnumber)).trans ?_
    exact List.filter_sublist.map _
  · exact absurd (hapart _ hown _ hmem) (Nat.lt_asymm hnumber)

end Ledger

/-- Batches are published in the order in which the last calls of their ticks end. A tick that
began before another is published before it if its last call ends first, or if both are ticks of
one pair of loops. -/
theorem sublist_endedTicks (run : Run ρ) (moves : List (Move ρ)) :
    let begun := run.fresh.begunTicks moves
    let ended := run.fresh.endedTicks moves
    (run.fresh.play moves).published = .ofBatches run.config.window (ended.map (·.tick.batch)) ∧
      (∀ first ∈ begun, ∀ second ∈ begun, first.ends < second.ends →
        second.number ∈ ended.map (·.number) →
          [first.number, second.number].Sublist (ended.map (·.number))) ∧
      ∀ first ∈ begun, ∀ second ∈ begun, ∀ session, first.session = some session →
        second.session = some session → first.number < second.number →
          second.number ∈ ended.map (·.number) →
            [first.number, second.number].Sublist (ended.map (·.number)) := by
  intro begun ended
  obtain ⟨hledger, horderly, -, -⟩ := run.inCourse_play moves
  refine ⟨?_, fun first hfirst second hsecond => hledger.sublist_of_ends_lt hfirst hsecond,
    fun first hfirst second hsecond session hfirstSession hsecondSession =>
      hledger.sublist_of_session horderly hfirst hsecond hfirstSession hsecondSession⟩
  rw [hledger.published, (run.fresh.config_epoch_play moves).1]
  rfl

/-! ## A tick that is overtaken -/

/-- A node that answers with so many requests, so many milliseconds after it is called. -/
def answering (requests delay : Nat) : Behaviour :=
  .answer (.object [("requests", .integer requests)]) false delay

/-- A collector with one node, which takes a second and a half to answer. -/
def slowCollector : Run MemoryRegistry :=
  let node : Node := { id := "orders-1", address := "10.0.0.1:9000" }
  let service : Service :=
    { name := "orders", version := "v1", nodes := [node.withProtocol "mucp"] }
  let registry := MemoryRegistry.register {} service
  { config := { scrapeInterval := .ofMillis 60000, refreshInterval := .ofMillis 60000, window := 8 }
    registry
    directory := (Directory.refresh {} (Discovery.view registry)).2
    published := .ofWindow 8
    fleet := { protocol := "mucp", respond := fun _ _ => answering 1 1500 } }

/-- A tick is asked for by hand while the first tick of the loop waits for a slow answer, and is
answered soon. It began second and is published first, so that the current batch goes back from its
data to that of the tick before it. -/
theorem scrape_overtakes :
    let started := slowCollector.start.sleep 5
    let changed := { started with fleet := started.fleet.behave "10.0.0.1:9000" (answering 2 100) }
    let scraped := changed.scrape.1
    let later := scraped.sleep 3000
    let numbersBegun := later.log.reverse.filterMap fun
      | ⟨_, .tickBegan number _⟩ => some number
      | _ => none
    let numbersEnded := later.log.reverse.filterMap fun
      | ⟨_, .tickEnded number _ _⟩ => some number
      | _ => none
    numbersBegun = [0, 1] ∧ numbersEnded = [1, 0] ∧
      scraped.published.current.map (·.requests) = [2] ∧
        later.published.current.map (·.requests) = [1] := by
  decide +kernel

end Vitals.Run
