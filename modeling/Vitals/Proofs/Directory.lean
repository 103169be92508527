import Vitals.Directory
import Vitals.Proofs.Service

/-!
# What a refresh does to the directory

A refresh looks up exactly the services that are listed without nodes. `contribution` is what
one entry of the listing gives, and `foldl_visit` that a scan of the listing gathers the
contributions one after another. The new directory is therefore the last service of each
identity among the contributions, and a listing that fails changes nothing
(`refresh_spec`).

A scan that waits for each answer comes to the same as one that is made at once, if the registry
stays as it is (`Survey.finish_answer`), and is over after a known number of answers
(`Survey.answersLeft_lt`).
-/

set_option linter.unusedSectionVars false

namespace Vitals

/-! ## Scanning a listing -/

namespace Scan

variable (registry : Registry)

/-- What an entry of the listing gives : itself if it has nodes, else what is found under its
name. -/
def contribution (entry : Service) : List Service :=
  if entry.nodes.isEmpty then
    match registry.lookup entry.name with
    | .ok services => services
    | .error _ => []
  else [entry]

/-- The lookup of an entry, if it is made and fails. -/
def failure? (entry : Service) : Option (String × RegistryFault) :=
  if entry.nodes.isEmpty then
    match registry.lookup entry.name with
    | .ok _ => none
    | .error fault => some (entry.name, fault)
  else none

/-- The names looked up for a listing. -/
def wanted (listed : List Service) : List String :=
  (listed.filter (·.nodes.isEmpty)).map Service.name

/-- The scan with the entries of a listing taken in. -/
def gather (scan : Scan) (listed : List Service) : Scan where
  lookups := scan.lookups ++ wanted listed
  failures := scan.failures ++ listed.filterMap (failure? registry)
  found := Service.putAll scan.found (listed.flatMap (contribution registry))

theorem visit_eq_gather (scan : Scan) (entry : Service) :
    visit registry scan entry = gather registry scan [entry] := by
  unfold visit take gather wanted
  rw [List.flatMap_singleton, List.filterMap_cons, List.filterMap_nil, contribution, failure?]
  by_cases hnodes : entry.nodes.isEmpty
  · cases hlookup : registry.lookup entry.name with
    | ok services => simp [hnodes, add, Service.putAll]
    | error fault => simp [hnodes, Service.putAll]
  · simp [hnodes, add, Service.putAll]

theorem lookups_gather (listed : List Service) :
    (gather registry {} listed).lookups = wanted listed :=
  List.nil_append _

theorem gather_append (scan : Scan) (a b : List Service) :
    gather registry (gather registry scan a) b = gather registry scan (a ++ b) := by
  simp [gather, wanted, Service.putAll_append]

/-- A listing is gathered entry by entry. -/
theorem foldl_visit (scan : Scan) (listed : List Service) :
    listed.foldl (visit registry) scan = gather registry scan listed := by
  induction listed generalizing scan with
  | nil => simp [gather, wanted, Service.putAll]
  | cons entry listed ih =>
    rw [List.foldl_cons, ih, visit_eq_gather, gather_append, List.singleton_append]

/-- The services of a scan are the last of each identity among the contributions. -/
theorem lastOfEach_services (listed : List Service) :
    Service.LastOfEach (listed.flatMap (contribution registry))
      (gather registry {} listed).services :=
  Service.lastOfEach_values _

variable {registry}

/-- The scan depends on the registry through the lookups that it makes. -/
theorem gather_congr {other : Registry} {listed : List Service}
    (h : ∀ name ∈ wanted listed, other.lookup name = registry.lookup name) (scan : Scan) :
    gather other scan listed = gather registry scan listed := by
  have hlookup : ∀ entry ∈ listed, entry.nodes.isEmpty →
      other.lookup entry.name = registry.lookup entry.name := fun entry hentry hnodes =>
    h _ (List.mem_map_of_mem (List.mem_filter.2 ⟨hentry, hnodes⟩))
  have hcontribution : ∀ entry ∈ listed,
      contribution other entry = contribution registry entry := fun entry hentry => by
    unfold contribution
    split
    · rw [hlookup entry hentry ‹_›]
    · rfl
  have hfailure : ∀ entry ∈ listed, failure? other entry = failure? registry entry :=
    fun entry hentry => by
      unfold failure?
      split
      · rw [hlookup entry hentry ‹_›]
      · rfl
  rw [gather, gather, List.flatMap_congr hcontribution, List.filterMap_congr hfailure]

/-- An entry whose lookup fails gives nothing. -/
theorem contribution_of_failure {entry : Service} (h : (failure? registry entry).isSome) :
    contribution registry entry = [] := by
  unfold failure? at h
  unfold contribution
  split at h
  · cases hlookup : registry.lookup entry.name <;> simp_all
  · simp at h

/-- The entries whose lookups fail could as well not be listed. -/
theorem flatMap_contribution_filter (listed : List Service) :
    (listed.filter fun entry => (failure? registry entry).isNone).flatMap
      (contribution registry) = listed.flatMap (contribution registry) := by
  induction listed with
  | nil => rfl
  | cons entry listed ih =>
    rw [List.filter_cons, List.flatMap_cons]
    split
    · rw [List.flatMap_cons, ih]
    · rename_i h
      rw [contribution_of_failure (by simpa [Option.isSome_iff_ne_none] using h), ih]
      rfl

theorem services_gather_filter (registry : Registry) (listed : List Service) :
    (gather registry {} (listed.filter fun entry => (failure? registry entry).isNone)).services =
      (gather registry {} listed).services := by
  rw [services, services, gather, gather, flatMap_contribution_filter]

end Scan

/-! ## Refreshing -/

namespace Directory

/-- The names looked up by a refresh. -/
def lookups (result : Except RegistryFault Scan) : List String :=
  match result with
  | .ok scan => scan.lookups
  | .error _ => []

variable {registry : Registry} (directory : Directory)

theorem refresh_of_fault {fault : RegistryFault} (h : registry.listing = .error fault) :
    directory.refresh registry = (.error fault, directory) := by
  rw [refresh, Scan.ofRegistry, h]
  rfl

theorem refresh_of_listing {listed : List Service} (h : registry.listing = .ok listed) :
    directory.refresh registry =
      (.ok (Scan.gather registry {} listed),
        directory.replace (Scan.gather registry {} listed).services) := by
  rw [refresh, Scan.ofRegistry, h, ← Scan.foldl_visit]
  rfl

/-- A refresh depends on the registry through the listing and the lookups that it makes. -/
theorem refresh_congr {other : Registry} (hlisting : other.listing = registry.listing)
    (h : ∀ name ∈ lookups (directory.refresh registry).1,
      other.lookup name = registry.lookup name) :
    directory.refresh other = directory.refresh registry := by
  cases hl : registry.listing with
  | error fault =>
    rw [refresh_of_fault directory hl, refresh_of_fault directory (hlisting.trans hl)]
  | ok listed =>
    rw [refresh_of_listing directory hl] at h ⊢
    have hwanted : ∀ name ∈ Scan.wanted listed, other.lookup name = registry.lookup name :=
      fun name hname => h name (by rwa [lookups, Scan.lookups_gather])
    rw [refresh_of_listing directory (hlisting.trans hl), Scan.gather_congr hwanted]

/-- A refresh whose listing fails returns the fault, makes no lookup and keeps the directory.
Any other looks up the services listed without nodes, once each and in order; the new
directory is the last service of each identity among the contributions of the entries, in the
order of the bytes of the identities, and what is returned is its length. The directory would
be the same had the entries whose lookups fail not been listed, and no name that is not looked
up has an influence. -/
theorem refresh_spec (registry : Registry) :
    let refreshed := directory.refresh registry
    (match registry.listing with
      | .error fault =>
        refreshed.1 = .error fault ∧ lookups refreshed.1 = [] ∧ refreshed.2 = directory
      | .ok listed =>
        lookups refreshed.1 = (listed.filter (·.nodes.isEmpty)).map Service.name ∧
          Service.LastOfEach (listed.flatMap (Scan.contribution registry))
            refreshed.2.services ∧
          refreshed.1.map (·.services.length) = .ok refreshed.2.services.length ∧
          (directory.refresh { registry with
            listing := .ok (listed.filter fun entry =>
              (Scan.failure? registry entry).isNone) }).2 = refreshed.2) ∧
      ∀ answer : String → Except RegistryFault (List Service),
        directory.refresh { registry with
          lookup := fun name =>
            if name ∈ lookups refreshed.1 then registry.lookup name else answer name } =
          refreshed := by
  intro refreshed
  refine ⟨?_, fun answer => refresh_congr directory rfl fun name hname => if_pos hname⟩
  cases hl : registry.listing with
  | error fault =>
    have hrefreshed : refreshed = (.error fault, directory) := refresh_of_fault directory hl
    rw [hrefreshed]
    exact ⟨rfl, rfl, rfl⟩
  | ok listed =>
    have hrefreshed := refresh_of_listing directory hl
    refine ⟨?_, ?_, ?_, ?_⟩
    · rw [show refreshed = _ from hrefreshed]
      exact Scan.lookups_gather registry listed
    · rw [show refreshed = _ from hrefreshed]
      exact Scan.lastOfEach_services registry listed
    · rw [show refreshed = _ from hrefreshed]
      rfl
    · rw [show refreshed = _ from hrefreshed, refresh_of_listing directory rfl]
      exact congrArg directory.replace (Scan.services_gather_filter registry listed)

end Directory

/-! ## Scans that wait for answers -/

/-- The warnings of lookups that failed. -/
def Scan.unresolved (failures : List (String × RegistryFault)) : List Warning :=
  failures.map fun (name, fault) => .unresolved name fault

namespace Survey

variable (registry : Registry)

/-- What the scan comes to if the registry stays as it is. -/
def finish : Survey → Except RegistryFault Scan
  | listing => Scan.ofRegistry registry
  | lookup scan name rest =>
    .ok (Scan.gather registry (scan.take name (registry.lookup name)) rest)

/-- The warnings that are still to come. -/
def complaints : Survey → List Warning
  | listing =>
    match Scan.ofRegistry registry with
    | .ok scan => scan.warnings
    | .error _ => []
  | survey@(lookup _ _ rest) =>
    survey.warnings registry ++ Scan.unresolved (rest.filterMap (Scan.failure? registry))

/-- What the scan comes to after an answer. -/
def Outcome.finish : Outcome → Except RegistryFault Scan
  | waits survey => survey.finish registry
  | done result => result

/-- The warnings that are still to come after an answer. -/
def Outcome.complaints : Outcome → List Warning
  | waits survey => survey.complaints registry
  | done _ => []

theorem ofRegistry_eq : Scan.ofRegistry registry =
    registry.listing.map (Scan.gather registry {}) := by
  simp only [Scan.ofRegistry, Scan.foldl_visit]

theorem finish_resume (scan : Scan) (entries : List Service) :
    (resume scan entries).finish registry = .ok (Scan.gather registry scan entries) := by
  induction entries generalizing scan with
  | nil => rw [← Scan.foldl_visit]; rfl
  | cons entry rest ih =>
    have hvisit := Scan.foldl_visit registry scan (entry :: rest)
    rw [List.foldl_cons, Scan.foldl_visit, Scan.visit] at hvisit
    unfold resume
    split
    · rename_i hnodes
      rw [if_pos hnodes] at hvisit
      exact congrArg Except.ok hvisit
    · rename_i hnodes
      rw [if_neg hnodes] at hvisit
      rw [ih, hvisit]

theorem complaints_resume (scan : Scan) (entries : List Service) :
    (resume scan entries).complaints registry =
      Scan.unresolved (entries.filterMap (Scan.failure? registry)) := by
  induction entries generalizing scan with
  | nil => rfl
  | cons entry rest ih =>
    unfold resume
    split
    · rename_i hnodes
      cases hlookup : registry.lookup entry.name with
      | ok services =>
        have hnone : Scan.failure? registry entry = none := by simp [Scan.failure?, hnodes, hlookup]
        rw [List.filterMap_cons_none hnone]
        simp only [Outcome.complaints, complaints, warnings, hlookup, List.nil_append]
      | error fault =>
        have hsome : Scan.failure? registry entry = some (entry.name, fault) := by
          simp [Scan.failure?, hnodes, hlookup]
        rw [List.filterMap_cons_some hsome]
        simp only [Outcome.complaints, complaints, warnings, hlookup]
        rfl
    · rename_i hnodes
      have hnone : Scan.failure? registry entry = none := if_neg hnodes
      rw [ih, List.filterMap_cons_none hnone]

/-- An answer leaves what the scan comes to. -/
theorem finish_answer (survey : Survey) :
    (survey.answer registry).finish registry = survey.finish registry := by
  cases survey with
  | listing =>
    rw [finish, ofRegistry_eq, answer]
    cases registry.listing with
    | error fault => rfl
    | ok entries => exact finish_resume registry {} entries
  | lookup scan name rest => exact finish_resume registry _ rest

/-- The warnings of an answer and those that come after it are those that were to come. -/
theorem complaints_answer (survey : Survey) :
    survey.warnings registry ++ (survey.answer registry).complaints registry =
      survey.complaints registry := by
  cases survey with
  | listing =>
    rw [complaints, ofRegistry_eq, answer]
    cases registry.listing with
    | error fault => rfl
    | ok entries => exact complaints_resume registry {} entries
  | lookup scan name rest => rw [answer, complaints_resume, complaints]

variable {registry}

theorem answersLeft_resume_le {scan : Scan} {entries : List Service} {survey : Survey}
    (h : resume scan entries = .waits survey) : survey.answersLeft registry ≤ entries.length := by
  induction entries generalizing scan with
  | nil => exact absurd h nofun
  | cons entry rest ih =>
    unfold resume at h
    split at h
    · obtain rfl := Outcome.waits.inj h
      exact Nat.le_refl _
    · exact Nat.le_succ_of_le (ih h)

/-- Each answer leaves fewer to wait for. -/
theorem answersLeft_lt {survey next : Survey} (h : survey.answer registry = .waits next) :
    next.answersLeft registry < survey.answersLeft registry := by
  cases survey with
  | listing =>
    unfold answer at h
    cases hlisting : registry.listing with
    | error fault => simp [hlisting] at h
    | ok entries =>
      rw [hlisting] at h
      refine Nat.lt_succ_of_le ?_
      rw [hlisting]
      exact answersLeft_resume_le h
  | lookup scan name rest => exact Nat.lt_succ_of_le (answersLeft_resume_le h)

theorem answersLeft_pos (survey : Survey) : 0 < survey.answersLeft registry := by
  cases survey <;> exact Nat.succ_pos _

end Survey

end Vitals
