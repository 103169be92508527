import Vitals.Proofs.Directory
import Vitals.Proofs.Wire.Json
import Vitals.Registry.File
import Vitals.Registry.Memory

/-!
# Local registries agree

A registry in a file lists its services as they are, a registry in memory lists them without
their nodes. Both serve one list of services (`Registry.Serves`), of which every lookup gives
all of a name, and this is all that matters : what a refresh finds is the last service of each
identity in the list served (`Registry.Serves.refresh`). Registering services one after another
changes which of them are served, but not the last of an identity
(`MemoryRegistry.last?_registerAll`), so that the directories are equal
(`Directory.refresh_file_eq_refresh_memory`).
-/

set_option linter.unusedSectionVars false

namespace Vitals

/-! ## Registries that serve a list of services -/

namespace Registry

/-- The registry serves a list of services : it lists them as they are or without their nodes,
as `shown` says, and a lookup gives all of a name. -/
structure Serves (registry : Registry) (shown : Service → Service) (services : List Service) :
    Prop where
  listing : registry.listing = .ok (services.map shown)
  lookup (name : String) : registry.lookup name = namedServices name services
  shown_eq (service : Service) : shown service = service ∨ shown service = service.withoutNodes

variable {registry : Registry} {shown : Service → Service} {services : List Service}

theorem Serves.identity_shown (h : registry.Serves shown services) (service : Service) :
    (shown service).identity = service.identity := by
  rcases h.shown_eq service with heq | heq
  · rw [heq]
  · rw [heq]
    rfl

theorem namedServices_of_mem {service : Service} (h : service ∈ services) :
    namedServices service.name services = .ok (services.filter (·.name == service.name)) := by
  have hfound : service ∈ services.filter (·.name == service.name) :=
    List.mem_filter.2 ⟨h, beq_self_eq_true _⟩
  rw [namedServices]
  split
  · rename_i hnil
    rw [hnil] at hfound
    exact absurd hfound List.not_mem_nil
  · rfl

/-- An entry of the listing gives either itself or everything of its name. -/
theorem Serves.contribution (h : registry.Serves shown services) {service : Service}
    (hmem : service ∈ services) :
    Scan.contribution registry (shown service) = [service] ∨
      Scan.contribution registry (shown service) =
        services.filter (·.name == service.name) := by
  have hname : (shown service).name = service.name :=
    congrArg Identity.name (h.identity_shown service)
  unfold Scan.contribution
  by_cases hnodes : (shown service).nodes.isEmpty
  · rw [if_pos hnodes, h.lookup, hname, namedServices_of_mem hmem]
    exact Or.inr rfl
  · rw [if_neg hnodes]
    rcases h.shown_eq service with heq | heq
    · exact Or.inl (by rw [heq])
    · exact absurd (by rw [heq]; rfl) hnodes

/-- The entry of the last service of an identity gives it. -/
theorem Serves.last?_contribution_self (h : registry.Serves shown services)
    {identity : Identity} {service : Service}
    (hlast : Service.last? services identity = some service) :
    Service.last? (Scan.contribution registry (shown service)) identity = some service := by
  obtain ⟨hmem, rfl⟩ := Service.mem_of_last? hlast
  rcases h.contribution hmem with hself | hall
  · rw [hself, Service.last?_singleton, if_pos rfl]
  · have hname : service.identity.name = service.name := rfl
    rw [hall, Service.last?_named, if_pos hname, hlast]

/-- The entry of a service of another identity gives nothing of the identity, or the last. -/
theorem Serves.last?_contribution_of_ne (h : registry.Serves shown services)
    {identity : Identity} {service : Service} (hmem : service ∈ services)
    (hne : service.identity ≠ identity) :
    Service.last? (Scan.contribution registry (shown service)) identity = none ∨
      Service.last? (Scan.contribution registry (shown service)) identity =
        Service.last? services identity := by
  rcases h.contribution hmem with hself | hall
  · rw [hself, Service.last?_singleton, if_neg hne]
    exact Or.inl rfl
  · rw [hall, Service.last?_named]
    split
    · exact Or.inr rfl
    · exact Or.inl rfl

/-- Whatever is looked up again, a scan ends with the last service of an identity. -/
theorem Serves.last?_contributions (h : registry.Serves shown services) (identity : Identity) :
    Service.last? ((services.map shown).flatMap (Scan.contribution registry)) identity =
      Service.last? services identity := by
  rw [List.flatMap_map]
  cases hlast : Service.last? services identity with
  | none =>
    have hnone := Service.last?_flatMap fun service hmem =>
      h.last?_contribution_of_ne hmem (Service.last?_eq_none_iff.1 hlast service hmem)
    rw [hlast, or_self] at hnone
    exact hnone
  | some service =>
    -- What comes before the last of the identity does not matter, and what comes after it gives
    -- nothing of the identity, or the very same.
    obtain ⟨before, after, heq, -, hafter⟩ := Service.last?_eq_some_iff.1 hlast
    have hmem : ∀ other ∈ after, other ∈ services := fun other hother =>
      heq ▸ List.mem_append_right before (List.mem_cons_of_mem service hother)
    have hrest := Service.last?_flatMap fun other hother =>
      h.last?_contribution_of_ne (hmem other hother)
        (Service.last?_eq_none_iff.1 hafter other hother)
    rw [heq, List.flatMap_append, List.flatMap_cons, Service.last?_append, Service.last?_append,
      h.last?_contribution_self hlast]
    rw [hlast] at hrest
    rcases hrest with hrest | hrest
    · rw [hrest]
      rfl
    · rw [hrest]
      rfl

/-- What a refresh finds is the last service of each identity among the services served. -/
theorem Serves.refresh (h : registry.Serves shown services) (directory : Directory) :
    ∃ scan, directory.refresh registry = (.ok scan, directory.replace scan.services) ∧
      Service.LastOfEach services scan.services :=
  ⟨_, directory.refresh_of_listing h.listing,
    (Scan.lastOfEach_services registry _).congr h.last?_contributions⟩

end Registry

/-! ## Registries in a file -/

theorem Registry.serves_ofFile {content : FileContent} {services : List Service}
    (h : fileServices content = .ok services) : (Registry.ofFile content).Serves id services where
  listing := by
    rw [ofFile, h, List.map_id]
    rfl
  lookup name := by
    rw [ofFile, h]
    rfl
  shown_eq _ := Or.inl rfl

/-- A file that holds the JSON of some services. -/
def FileContent.ofServices (services : List Service) : FileContent :=
  .ok (Utf8.encode ((Json.Codec.list Service.codec).text services))

theorem fileServices_ofServices (services : List Service) :
    fileServices (.ofServices services) = .ok services := by
  simp only [fileServices, FileContent.ofServices, Service.faithful_services.parse_text services]

/-! ## Registries in memory -/

namespace MemoryRegistry

/-- The registry with services registered one after another. -/
def registerAll (registry : MemoryRegistry) (services : List Service) : MemoryRegistry :=
  services.foldl register registry

theorem last?_register (registry : MemoryRegistry) (service : Service) (identity : Identity) :
    Service.last? (registry.register service).services identity =
      Service.last? (registry.services ++ [service]) identity := by
  rw [register, Service.last?_append, Service.last?_append, Service.last?_singleton]
  split
  · rfl
  · rename_i hne
    have hkept : ∀ other : Service, other.identity = identity →
        decide (other.identity ≠ service.identity) = true := by
      rintro other rfl
      exact decide_eq_true (Ne.symm hne)
    rw [Service.last?_filter hkept]

theorem last?_registerAll (registry : MemoryRegistry) (services : List Service)
    (identity : Identity) :
    Service.last? (registry.registerAll services).services identity =
      Service.last? (registry.services ++ services) identity := by
  induction services generalizing registry with
  | nil => rw [List.append_nil]; rfl
  | cons service services ih =>
    rw [show registry.registerAll (service :: services) =
      (registry.register service).registerAll services from rfl, ih, Service.last?_append,
      last?_register, ← Service.last?_append, List.append_assoc, List.singleton_append]

theorem offline_registerAll (registry : MemoryRegistry) (services : List Service) :
    (registry.registerAll services).offline = registry.offline := by
  induction services generalizing registry with
  | nil => rfl
  | cons service services ih => exact ih (registry.register service)

theorem serves_view {registry : MemoryRegistry} (h : registry.offline = false) :
    registry.view.Serves Service.withoutNodes registry.services where
  listing := by
    rw [view, h]
    rfl
  lookup name := by
    rw [view, h]
    rfl
  shown_eq _ := Or.inr rfl

end MemoryRegistry

/-! ## Agreement -/

/-- Refreshing from a file that holds services and refreshing from a memory in which they were
registered one after another succeed alike and give the same directory : the last service of
each identity, with its nodes and metadata, in the order of the identities. -/
theorem Directory.refresh_file_eq_refresh_memory (directory : Directory)
    (services : List Service) :
    let fromMemory := directory.refresh
      (Discovery.view (MemoryRegistry.registerAll {} services))
    fileServices (.ofServices services) = .ok services ∧
      (∀ content : FileContent, fileServices content = .ok services →
        let fromFile := directory.refresh (Discovery.view content)
        (∃ scan, fromFile.1 = .ok scan) ∧ (∃ scan, fromMemory.1 = .ok scan) ∧
          fromFile.2 = fromMemory.2) ∧
      Service.LastOfEach services fromMemory.2.services := by
  have hoffline := MemoryRegistry.offline_registerAll {} services
  obtain ⟨inMemory, hmemory, hlast⟩ := (MemoryRegistry.serves_view hoffline).refresh directory
  have hmemory' : Service.LastOfEach services inMemory.services :=
    hlast.congr (MemoryRegistry.last?_registerAll {} services)
  refine ⟨fileServices_ofServices services, fun content h => ?_, ?_⟩
  · obtain ⟨inFile, hfile, hlast⟩ := (Registry.serves_ofFile h).refresh directory
    refine ⟨⟨inFile, congrArg Prod.fst hfile⟩, ⟨inMemory, congrArg Prod.fst hmemory⟩, ?_⟩
    exact (congrArg Prod.snd hfile).trans
      ((congrArg directory.replace (hlast.eq hmemory')).trans (congrArg Prod.snd hmemory).symm)
  · rw [show (directory.refresh (Discovery.view (MemoryRegistry.registerAll {} services))).2 = _
      from congrArg Prod.snd hmemory]
    exact hmemory'

end Vitals
