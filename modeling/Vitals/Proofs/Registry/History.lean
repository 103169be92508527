import Mathlib.Data.List.Induction
import Vitals.Proofs.Registry

/-!
# The history of a registry in memory

A registry in memory is changed act by act, and a directory beside it is refreshed from time to
time. A service stands after a history if no act after its registration ousts it (`standing`,
`mem_standing_iff`). The registry holds what stands, one service of each identity
(`services_outcome`, `nodup_standing`), and the directory shows what stood when it was refreshed
last while the registry answered (`Shows`, `shows_outcome`). `outcome_spec` says what the
registry and the directory answer after any history.
-/

set_option linter.unusedSectionVars false

namespace Vitals.MemoryRegistry

/-! ## Histories -/

/-- One act upon a registry in memory, or upon the directory that is refreshed from it. -/
inductive Act where
  | register (service : Service)
  | deregister (name : String)
  | setOffline (offline : Bool)
  | refresh

/-- A registry in memory and the directory that is refreshed from it. -/
structure Mirrored where
  registry : MemoryRegistry := {}
  directory : Directory := {}

namespace Mirrored

/-- What an act makes of a registry and its directory. -/
def perform (mirrored : Mirrored) : Act → Mirrored
  | .register service => { mirrored with registry := mirrored.registry.register service }
  | .deregister name => { mirrored with registry := mirrored.registry.deregister name }
  | .setOffline offline => { mirrored with registry := mirrored.registry.setOffline offline }
  | .refresh =>
    { mirrored with directory := (mirrored.directory.refresh mirrored.registry.view).2 }

end Mirrored

/-- What a history makes of a new registry and a new directory. -/
def outcome (history : List Act) : Mirrored := history.foldl .perform {}

theorem outcome_snoc (history : List Act) (act : Act) :
    outcome (history ++ [act]) = (outcome history).perform act :=
  List.foldl_append

namespace Act

/-- The services that an act registers. -/
def registered : Act → List Service
  | register service => [service]
  | _ => []

/-- Whether a service of the identity that was registered before does not stand after the act :
another one of the identity is registered, or its name is deregistered. -/
def ousts (identity : Identity) : Act → Bool
  | register service => service.identity = identity
  | deregister name => identity.name = name
  | _ => false

end Act

/-- Whether the last act that says so makes the registry refuse every answer. -/
def silenced (history : List Act) : Bool :=
  (history.filterMap fun
    | .setOffline offline => some offline
    | _ => none).getLast?.getD false

theorem offline_outcome (history : List Act) :
    (outcome history).registry.offline = silenced history := by
  induction history using List.reverseRecOn with
  | nil => rfl
  | append_singleton history act ih =>
    rw [outcome_snoc, silenced, List.filterMap_append]
    cases act with
    | setOffline offline => simp [Mirrored.perform, setOffline]
    | register service => simpa [Mirrored.perform, register, silenced] using ih
    | deregister name => simpa [Mirrored.perform, deregister, silenced] using ih
    | refresh => simpa [Mirrored.perform, silenced] using ih

/-! ## What stands -/

/-- The services that stand after a history, in the order of their last registration. -/
def standing : List Act → List Service
  | [] => []
  | act :: later =>
    (act.registered.filter fun service => !later.any (·.ousts service.identity)) ++
      standing later

/-- A service stands if it was registered and no later act ousts it. -/
theorem mem_standing_iff {history : List Act} {service : Service} :
    service ∈ standing history ↔ ∃ before later, history = before ++ .register service :: later ∧
      ∀ act ∈ later, act.ousts service.identity = false := by
  induction history with
  | nil => simp [standing]
  | cons act later ih =>
    rw [standing, List.mem_append, ih]
    constructor
    · rintro (hfirst | ⟨before, later, rfl, hlater⟩)
      · obtain ⟨hmem, hlater⟩ := List.mem_filter.1 hfirst
        cases act with
        | register other =>
          obtain rfl := List.mem_singleton.1 hmem
          exact ⟨[], later, rfl, by simpa using hlater⟩
        | _ => exact absurd hmem List.not_mem_nil
      · exact ⟨act :: before, later, rfl, hlater⟩
    · rintro ⟨before, rest, heq, hrest⟩
      rcases before with - | ⟨first, before⟩
      · obtain ⟨rfl, rfl⟩ := List.cons.inj heq
        exact Or.inl (List.mem_filter.2 ⟨List.mem_singleton_self service, by simpa using hrest⟩)
      · obtain ⟨-, rfl⟩ := List.cons.inj heq
        exact Or.inr ⟨before, rest, rfl, hrest⟩

/-- An act ousts services that stood, and registers one that stands. -/
theorem standing_snoc (history : List Act) (act : Act) :
    standing (history ++ [act]) =
      (standing history).filter (fun service => !act.ousts service.identity) ++
        act.registered := by
  induction history with
  | nil => simp [standing]
  | cons first later ih =>
    rw [List.cons_append, standing, ih, standing, List.filter_append, List.filter_filter,
      List.append_assoc]
    simp only [List.any_append, List.any_cons, List.any_nil, Bool.or_false, Bool.not_or,
      Bool.and_comm]

theorem services_perform (mirrored : Mirrored) (act : Act) :
    (mirrored.perform act).registry.services =
      mirrored.registry.services.filter (fun service => !act.ousts service.identity) ++
        act.registered := by
  cases act with
  | register service =>
    simp [Mirrored.perform, register, Act.ousts, Act.registered, eq_comm]
  | deregister name =>
    rw [show Act.registered (.deregister name) = [] from rfl, List.append_nil]
    exact List.filter_congr fun _ _ => decide_not
  | setOffline offline => simp [Mirrored.perform, setOffline, Act.ousts, Act.registered]
  | refresh => simp [Mirrored.perform, Act.ousts, Act.registered]

theorem services_outcome (history : List Act) :
    (outcome history).registry.services = standing history := by
  induction history using List.reverseRecOn with
  | nil => rfl
  | append_singleton history act ih =>
    rw [outcome_snoc, services_perform, ih, standing_snoc]

/-- One service of an identity stands at most. -/
theorem nodup_standing (history : List Act) :
    ((standing history).map Service.identity).Nodup := by
  induction history using List.reverseRecOn with
  | nil => exact List.nodup_nil
  | append_singleton history act ih =>
    have hkept := ih.sublist ((List.filter_sublist
      (p := fun service : Service => !act.ousts service.identity)).map Service.identity)
    rw [standing_snoc, List.map_append]
    refine List.nodup_append'.2 ⟨hkept, ?_, fun identity hbefore hact => ?_⟩
    · cases act <;> simp [Act.registered]
    · obtain ⟨other, hother, rfl⟩ := List.mem_map.1 hbefore
      obtain ⟨service, hservice, hsame⟩ := List.mem_map.1 hact
      have hstays := (List.mem_filter.1 hother).2
      cases act with
      | register registered =>
        obtain rfl := List.mem_singleton.1 hservice
        simp [Act.ousts, hsame] at hstays
      | _ => exact absurd hservice List.not_mem_nil

/-! ## What the directory shows -/

/-- The services are those that stand after a history, in the order of their identities. -/
structure Shows (services : List Service) (history : List Act) : Prop where
  perm : services.Perm (standing history)
  ascending : services.Pairwise fun a b => a.identity.BytesLt b.identity

/-- A refresh while the registry answers shows what stands. -/
theorem refresh_of_online {history : List Act} (h : silenced history = false)
    (directory : Directory) :
    ∃ scan, directory.refresh (outcome history).registry.view =
      (.ok scan, directory.replace scan.services) ∧ Shows scan.services history := by
  have hserves := serves_view ((offline_outcome history).trans h)
  obtain ⟨scan, hscan, hlast⟩ := hserves.refresh directory
  rw [services_outcome] at hlast
  have hdistinct : (standing history).Nodup := (nodup_standing history).of_map _
  have hscanned : scan.services.Nodup := by
    refine hlast.ascending.imp fun {a b} hlt heq => ?_
    rw [heq] at hlt
    exact Identity.lt_irrefl _ (Identity.lt_iff_bytesLt.2 hlt)
  refine ⟨scan, hscan, (List.perm_ext_iff_of_nodup hscanned hdistinct).2 fun service => ?_,
    hlast.ascending⟩
  rw [hlast.mem_iff, Service.last?_eq_some_of_nodup (nodup_standing history)]

/-- A refresh while the registry refuses every answer leaves everything as it was. -/
theorem refresh_of_silenced {history : List Act} (h : silenced history = true)
    (directory : Directory) :
    directory.refresh (outcome history).registry.view = (.error offlineFault, directory) :=
  directory.refresh_of_fault (by rw [view, offline_outcome, h]; rfl)

/-- No refresh among the later acts finds the registry answering. -/
def Unanswered (before later : List Act) : Prop :=
  ∀ between rest, later = between ++ .refresh :: rest → silenced (before ++ between) = true

theorem unanswered_nil (before : List Act) : Unanswered before [] := by
  rintro (- | ⟨_, _⟩) rest h <;> exact absurd h (List.cons_ne_nil _ _).symm

theorem Unanswered.snoc {before later : List Act} (h : Unanswered before later) {act : Act}
    (hact : act = .refresh → silenced (before ++ later) = true) :
    Unanswered before (later ++ [act]) := by
  intro between rest heq
  rcases List.eq_nil_or_concat' rest with rfl | ⟨rest, last, rfl⟩
  · obtain ⟨rfl, rfl⟩ := List.append_singleton_inj.1 heq
    exact hact rfl
  · rw [← List.cons_append, ← List.append_assoc] at heq
    exact h between rest (List.append_singleton_inj.1 heq).1

/-- The directory is a new one until a refresh is answered, and shows what stood at the last
refresh that was answered after it. -/
theorem shows_outcome (history : List Act) :
    (Unanswered [] history ∧ (outcome history).directory = {}) ∨
      ∃ before later, history = before ++ .refresh :: later ∧ silenced before = false ∧
        Unanswered (before ++ [.refresh]) later ∧
        Shows (outcome history).directory.services before := by
  induction history using List.reverseRecOn with
  | nil => exact Or.inl ⟨unanswered_nil [], rfl⟩
  | append_singleton history act ih =>
    rw [outcome_snoc]
    by_cases hanswered : act = .refresh ∧ silenced history = false
    · obtain ⟨rfl, honline⟩ := hanswered
      obtain ⟨scan, hscan, hshows⟩ := refresh_of_online honline (outcome history).directory
      refine Or.inr ⟨history, [], rfl, honline, unanswered_nil _, ?_⟩
      rw [Mirrored.perform, hscan]
      exact hshows
    · have hsilenced : act = .refresh → silenced history = true := fun hrefresh =>
        Bool.eq_true_of_not_eq_false fun honline => hanswered ⟨hrefresh, honline⟩
      have hkept : ((outcome history).perform act).directory = (outcome history).directory := by
        cases act with
        | refresh => rw [Mirrored.perform, refresh_of_silenced (hsilenced rfl)]
        | _ => rfl
      rw [hkept]
      rcases ih with ⟨hnone, hempty⟩ | ⟨before, later, rfl, honline, hlater, hshows⟩
      · exact Or.inl ⟨hnone.snoc hsilenced, hempty⟩
      · refine Or.inr ⟨before, later ++ [act], ?_, honline, hlater.snoc fun hrefresh => ?_, hshows⟩
        · rw [List.append_assoc, List.cons_append]
        · rw [List.append_assoc, List.singleton_append]
          exact hsilenced hrefresh

/-! ## Any history -/

theorem holds_iff {registry : MemoryRegistry} {name : String} :
    registry.holds name = true ↔ ∃ service ∈ registry.services, service.name = name := by
  simp [holds]

/-- Something is removed if a version is held. -/
theorem length_deregister_lt_iff {registry : MemoryRegistry} {name : String} :
    (registry.deregister name).services.length < registry.services.length ↔
      registry.holds name = true := by
  rw [holds_iff, deregister, List.length_filter_lt_length_iff_exists]
  simp

theorem lookup_view (registry : MemoryRegistry) (name : String) :
    registry.view.lookup name =
      if registry.offline then .error offlineFault
      else if registry.holds name then .ok (registry.services.filter (·.name == name))
      else .error (.notFound name) := by
  rw [view]
  refine congrArg (ite _ _) ?_
  by_cases hheld : registry.holds name = true
  · obtain ⟨service, hmem, rfl⟩ := holds_iff.1 hheld
    rw [Registry.namedServices_of_mem hmem, if_pos hheld]
  · have hnone : registry.services.filter (·.name == name) = [] :=
      List.filter_eq_nil_iff.2 fun service hmem hname =>
        hheld (holds_iff.2 ⟨service, hmem, beq_iff_eq.1 hname⟩)
    rw [namedServices, hnone, if_neg hheld]

/-- After any history the registry holds for each identity the service that was registered last,
unless its name was deregistered since, in the order of the registrations. A deregistration
tells, by the number of services, whether a version of the name is held. A lookup gives the
versions held of a name with their nodes, and there is a fault if there are none or while the
registry refuses every answer. The directory is a new one or shows what stood when it was
refreshed last while the registry answered ; a refresh now shows what stands, or fails and
changes nothing. -/
theorem outcome_spec (history : List Act) :
    let present := outcome history
    let registry := present.registry
    (∀ service, service ∈ registry.services ↔
      ∃ before later, history = before ++ .register service :: later ∧
        ∀ act ∈ later, act.ousts service.identity = false) ∧
    (registry.services.map Service.identity).Nodup ∧
    registry.services = standing history ∧
    (∀ name, (registry.holds name = true ↔ ∃ service ∈ registry.services, service.name = name) ∧
      ((registry.deregister name).services.length ≠ registry.services.length ↔
        registry.holds name = true)) ∧
    (∀ name, registry.view.lookup name =
      if silenced history then .error offlineFault
      else if registry.holds name then .ok (registry.services.filter (·.name == name))
      else .error (.notFound name)) ∧
    ((Unanswered [] history ∧ present.directory = {}) ∨
      ∃ before later, history = before ++ .refresh :: later ∧ silenced before = false ∧
        Unanswered (before ++ [.refresh]) later ∧ Shows present.directory.services before) ∧
    (match present.directory.refresh registry.view with
      | (.ok scan, directory) => silenced history = false ∧
        directory = present.directory.replace scan.services ∧ Shows scan.services history
      | (.error fault, directory) => silenced history = true ∧ fault = offlineFault ∧
        directory = present.directory) := by
  intro present registry
  have hservices : registry.services = standing history := services_outcome history
  refine ⟨fun service => ?_, ?_, hservices, fun name => ⟨holds_iff, ?_⟩, fun name => ?_,
    shows_outcome history, ?_⟩
  · rw [hservices, mem_standing_iff]
  · rw [hservices]
    exact nodup_standing history
  · have hle : (registry.deregister name).services.length ≤ registry.services.length :=
      List.length_filter_le _ _
    rw [← length_deregister_lt_iff]
    omega
  · rw [lookup_view, ← offline_outcome]
  · cases hsilenced : silenced history with
    | false =>
      obtain ⟨scan, hscan, hshows⟩ := refresh_of_online hsilenced present.directory
      rw [hscan]
      exact ⟨rfl, rfl, hshows⟩
    | true =>
      rw [refresh_of_silenced hsilenced]
      exact ⟨rfl, rfl, rfl⟩

end Vitals.MemoryRegistry
