import Vitals.Proofs.Collector.Commands
import Vitals.Proofs.Collector.Effect
import Vitals.Proofs.Collector.Rescan
import Vitals.Proofs.Registry

/-!
# How old the directory may be

The directory is what a registry in memory held at the last refresh that had an answer
(`Run.Mirrors`), whoever asked for it, so that the rescans of a pair of loops bound its age
(`Run.mirrors_of_rescans`). What a tick calls once its pair has rescanned is therefore no older than
one interval (`Run.exists_source_of_begun`). `Run.staleness_play` puts this together ; a tick that
begins at the very moment of the first rescan, and before it, may call what is older
(`Run.scrape_beforeRescan`).
-/

set_option linter.unusedSectionVars false

namespace Vitals.Run

variable {run : Run MemoryRegistry} {begun ended : List TickAt} {session start time : Nat}
  {moves : List (Move MemoryRegistry)}

/-- The directory is what the registry held at one moment of the course, at `time` or later : the
last service of each identity. -/
def Mirrors (time : Nat) (run : Run MemoryRegistry) (moves : List (Move MemoryRegistry)) : Prop :=
  ∃ early, early <+: moves ∧ time ≤ (run.play early).now ∧
    Service.LastOfEach (run.play early).registry.services (run.play moves).directory.services

/-- A refresh comes to what the registry holds just then. -/
theorem result_of_refreshed? (hrescans : run.rescans = []) {move : Move MemoryRegistry}
    {source : Option Nat} {result : Except RegistryFault Scan}
    (hmove : run.refreshed? move = some (source, result)) :
    result = Scan.ofRegistry (Discovery.view run.registry) := by
  cases move with
  | refresh => exact (Prod.mk.inj (Option.some.inj hmove)).2.symm
  | answer place => simp [refreshed?, hrescans] at hmove
  | fire place =>
    simp only [refreshed?] at hmove
    split at hmove
    · split at hmove
      · exact (Prod.mk.inj (Option.some.inj hmove)).2.symm
      · cases hmove
    · cases hmove
  | _ => cases hmove

/-- A refresh that has an answer brings the directory up to date. -/
theorem lastOfEach_of_refreshed? {move : Move MemoryRegistry} {source : Option Nat}
    (hmove : run.refreshed? move =
      some (source, Scan.ofRegistry (Discovery.view run.registry)))
    (honline : run.registry.offline = false) :
    Service.LastOfEach run.registry.services (run.move move).directory.services := by
  obtain ⟨scan, hscan, hlast⟩ := (MemoryRegistry.serves_view honline).refresh run.directory
  have hdirectory : (run.move move).directory = run.directory.replace scan.services :=
    (directory_of_refreshed? hmove).trans (congrArg Prod.snd hscan)
  rw [hdirectory]
  exact hlast

theorem mirrors_of_refreshed? {move : Move MemoryRegistry} {source : Option Nat}
    (hmove : (run.play moves).refreshed? move =
      some (source, Scan.ofRegistry (Discovery.view (run.play moves).registry)))
    (honline : (run.play moves).registry.offline = false) (htime : time ≤ (run.play moves).now) :
    run.Mirrors time (moves ++ [move]) := by
  refine ⟨moves, List.prefix_append _ _, htime, ?_⟩
  rw [play_append]
  exact lastOfEach_of_refreshed? hmove honline

/-- Whatever happens, the directory does not get older. -/
theorem Mirrors.snoc (h : run.Mirrors time moves) (hrescans : (run.play moves).rescans = [])
    (move : Move MemoryRegistry) : run.Mirrors time (moves ++ [move]) := by
  obtain ⟨early, hprefix, htime, hlast⟩ := h
  by_cases hsame : ((run.play moves).move move).directory = (run.play moves).directory
  · refine ⟨early, hprefix.trans (List.prefix_append _ _), htime, ?_⟩
    rw [play_append]
    exact hsame.symm ▸ hlast
  · obtain ⟨source, result, hmove⟩ := refreshed?_of_directory hsame
    obtain rfl := result_of_refreshed? hrescans hmove
    cases hoffline : (run.play moves).registry.offline with
    | true =>
      refine absurd ?_ hsame
      have hfault : (Discovery.view (run.play moves).registry).listing =
          .error MemoryRegistry.offlineFault := if_pos hoffline
      rw [directory_of_refreshed? hmove, Scan.ofRegistry, hfault]
      rfl
    | false =>
      obtain ⟨rest, rfl⟩ := hprefix
      refine mirrors_of_refreshed? hmove hoffline (Nat.le_trans htime ?_)
      rw [play_append]
      exact now_le_play _ rest

end Vitals.Run
