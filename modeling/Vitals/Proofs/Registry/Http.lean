import Vitals.Proofs.Directory
import Vitals.Registry.Http

/-!
# Refreshing over the network

A registry on the network is asked for all services and for the services of names, and every
question gets a reply. A reply gives services if it tells of a success and its body is a list of
them (`HttpRegistry.given?`). A listing without them fails, and the directory stays as it was ; a
lookup without them, or with none of them, is a complaint about one name
(`HttpRegistry.complaint?`), and the entry that it was made for gives nothing. What the other
entries give does not depend on it (`HttpRegistry.refresh_replies`).
-/

namespace Vitals.HttpRegistry

/-- What comes of a question. -/
abbrev Reply := Except Http.ClientFault Http.Response

/-- The services that a reply gives : it tells of a success, and its whole body is a list of
them. -/
def given? : Reply → Option (List Service)
  | .ok response =>
    if response.status.isSuccess && response.body.complete then
      ((Json.Codec.list Service.codec).parse response.body.bytes).toOption
    else none
  | .error _ => none

/-- What is said of a registry whose reply gives no services : what it told as a success is
invalid, and otherwise it is unavailable. -/
def refusal : Reply → RegistryFault
  | .ok response =>
    if response.status.isSuccess then .invalid "error decoding response body"
    else .unavailable s!"HTTP request failed: API returned status {response.status.text}"
  | .error fault => .unavailable fault.toAccessFault.message

/-- Whether a reply tells that there is nothing where the question was put. -/
def tellsNotFound : Reply → Bool
  | .ok response => response.status == .notFound
  | .error _ => false

/-- What a reply without services is told as : only where a name was asked for can there be
nothing of that name. -/
def faultOf (name : Option String) (reply : Reply) : RegistryFault :=
  match name, tellsNotFound reply with
  | some name, true => .notFound name
  | _, _ => refusal reply

/-- What is wrong with the reply to the question for a name. -/
def complaint? (name : String) (reply : Reply) : Option RegistryFault :=
  match given? reply with
  | some (_ :: _) => none
  | some [] => some (.notFound name)
  | none => some (faultOf (some name) reply)

/-! ## The answers of the registry -/

/-- A question that gets no reply finds the registry unavailable : only what has been replied can be
invalid. -/
theorem toRegistryFault_of_ask {network : Http.Network} {question : Http.Question}
    {fault : Http.ClientFault} (h : Http.ask network question = .error fault) :
    fault.toAccessFault.toRegistryFault = .unavailable fault.toAccessFault.message := by
  have hfault : fault ≠ .undecodable := by
    rintro rfl
    unfold Http.ask Http.askable at h
    split at h
    · cases h
    · split at h
      · simp only [bind, Except.bind] at h
        split at h <;> cases h
      · cases h
  cases fault <;> first | rfl | exact absurd rfl hfault

/-- The body of a success is read as a list of services, or the reply is invalid. -/
theorem mapError_decode (response : Http.Response) (h : response.status.isSuccess = true) :
    ((response.decode (Json.Codec.list Service.codec).parse).mapError
        Http.ClientFault.toAccessFault).mapError AccessFault.toRegistryFault =
      (given? (.ok response)).elim (.error (refusal (.ok response))) .ok := by
  rw [given?, refusal, if_pos h, h, Bool.true_and, Http.Response.decode]
  cases response.body.complete with
  | false => rfl
  | true =>
    rw [if_pos rfl, if_pos rfl]
    cases (Json.Codec.list Service.codec).parse response.body.bytes <;> rfl

/-- A reply is read as the services that it gives, or told as what such a reply means. -/
theorem mapError_servicesOf (name : Option String) (response : Http.Response) :
    (servicesOf name response).mapError AccessFault.toRegistryFault =
      (given? (.ok response)).elim (.error (faultOf name (.ok response))) .ok := by
  cases hsuccess : response.status.isSuccess with
  | true =>
    have hfound : (response.status == .notFound) = false := beq_eq_false_iff_ne.2 fun h => by
      rw [h] at hsuccess
      cases hsuccess
    have hfault : faultOf name (.ok response) = refusal (.ok response) := by
      cases name <;> simp only [faultOf, tellsNotFound, hfound]
    rw [hfault, ← mapError_decode response hsuccess]
    cases name <;> simp only [servicesOf, hfound, hsuccess, if_true]
  | false =>
    have hgiven : given? (.ok response) = none := by
      rw [given?, hsuccess, Bool.false_and]
      rfl
    rw [hgiven, Option.elim_none]
    cases name with
    | none =>
      simp only [servicesOf, hsuccess, faultOf, refusal, Bool.false_eq_true, if_false]
      rfl
    | some name =>
      cases hfound : response.status == .notFound with
      | true =>
        simp only [servicesOf, hfound, faultOf, tellsNotFound]
        rfl
      | false =>
        simp only [servicesOf, hfound, hsuccess, faultOf, tellsNotFound, refusal,
          Bool.false_eq_true, if_false]
        rfl

/-- A question is answered with the services that its reply gives, or with what such a reply is
told as. -/
theorem mapError_fetch (registry : HttpRegistry) (question : Http.Question)
    (name : Option String) :
    (registry.fetch question name).mapError AccessFault.toRegistryFault =
      (given? (Http.ask registry.network question)).elim
        (.error (faultOf name (Http.ask registry.network question))) .ok := by
  rw [fetch]
  cases hreply : Http.ask registry.network question with
  | ok response => exact mapError_servicesOf name response
  | error fault =>
    have hfault : faultOf name (.error fault) = refusal (.error fault) := by cases name <;> rfl
    rw [hfault, refusal, ← toRegistryFault_of_ask hreply]
    rfl

variable (registry : HttpRegistry)

/-- The reply to the question for all services. -/
def listingReply : Reply := Http.ask registry.network registry.listingQuestion

/-- The reply to the question for the services of a name. -/
def lookupReply (name : String) : Reply :=
  Http.ask registry.network (registry.lookupQuestion name)

/-- The listing succeeds exactly if its reply gives services. -/
theorem listing_view :
    registry.view.listing =
      (given? registry.listingReply).elim (.error (refusal registry.listingReply)) .ok :=
  registry.mapError_fetch registry.listingQuestion none

/-- A lookup succeeds exactly if there is no complaint about its reply. -/
theorem lookup_view (name : String) :
    registry.view.lookup name =
      (complaint? name (registry.lookupReply name)).elim
        (.ok ((given? (registry.lookupReply name)).getD [])) .error := by
  have hfetch : (registry.fetch _ _).mapError AccessFault.toRegistryFault =
      (given? (registry.lookupReply name)).elim _ _ :=
    registry.mapError_fetch (registry.lookupQuestion name) (some name)
  change (registry.lookup name).mapError AccessFault.toRegistryFault = _
  rw [lookup, complaint?]
  cases hfetched : registry.fetch (registry.lookupQuestion name) (some name) with
  | ok services =>
    cases hgiven : given? (registry.lookupReply name) with
    | none => simp [hfetched, hgiven, Except.mapError] at hfetch
    | some found =>
      obtain rfl : services = found := by
        simpa [hfetched, hgiven, Except.mapError] using hfetch
      cases services <;> rfl
  | error fault =>
    cases hgiven : given? (registry.lookupReply name) with
    | none =>
      rw [hfetched, hgiven, Option.elim_none] at hfetch
      exact hfetch
    | some found => simp [hfetched, hgiven, Except.mapError] at hfetch

/-! ## Refreshing -/

/-- What an entry of the listing gives : itself if it has nodes, else what the reply for its name
gives. -/
def contribution (entry : Service) : List Service :=
  if entry.nodes.isEmpty then (given? (registry.lookupReply entry.name)).getD [] else [entry]

/-- What is said about an entry of the listing, if it had to be looked up. -/
def warning? (entry : Service) : Option Warning :=
  if entry.nodes.isEmpty then
    (complaint? entry.name (registry.lookupReply entry.name)).map (.unresolved entry.name)
  else none

/-- A reply with a complaint gives nothing. -/
theorem given?_getD_of_complaint {name : String} {reply : Reply}
    (h : (complaint? name reply).isSome) : (given? reply).getD [] = [] := by
  unfold complaint? at h
  cases hgiven : given? reply with
  | none => rfl
  | some found => cases found <;> simp_all

/-- What an entry gives depends on the reply for its own name alone. -/
theorem contribution_view (entry : Service) :
    Scan.contribution registry.view entry = registry.contribution entry := by
  rw [Scan.contribution, contribution, lookup_view]
  cases hcomplaint : complaint? entry.name (registry.lookupReply entry.name) with
  | none => rfl
  | some fault =>
    rw [given?_getD_of_complaint (by rw [hcomplaint]; rfl)]
    rfl

theorem failure?_view (entry : Service) :
    (Scan.failure? registry.view entry).map (fun (name, fault) => Warning.unresolved name fault) =
      registry.warning? entry := by
  rw [Scan.failure?, warning?, lookup_view]
  cases complaint? entry.name (registry.lookupReply entry.name) <;> split <;> rfl

theorem flatMap_contribution_view (listed : List Service) :
    listed.flatMap (Scan.contribution registry.view) = listed.flatMap registry.contribution :=
  List.flatMap_congr fun entry _ => registry.contribution_view entry

/-- The warnings are those of the entries that had to be looked up, in the order of the listing. -/
theorem warnings_gather (listed : List Service) :
    (Scan.gather registry.view {} listed).warnings = listed.filterMap registry.warning? := by
  change ([] ++ listed.filterMap (Scan.failure? registry.view)).map _ = _
  rw [List.nil_append, List.map_filterMap]
  exact List.filterMap_congr fun entry _ => registry.failure?_view entry

/-- A refresh fails and keeps the directory exactly if the reply to the question for all services
gives none, and then it is told what this means. Otherwise the new directory is the last service
of each identity among what the entries of the listing give, each by itself, and a warning stands
for each of them that had to be looked up and gives nothing. -/
theorem refresh_replies (directory : Directory) :
    let refreshed := directory.refresh (Discovery.view registry)
    let listing := registry.listingReply
    ((∃ fault, refreshed = (.error fault, directory)) ↔ given? listing = none) ∧
      (given? listing = none → refreshed = (.error (refusal listing), directory)) ∧
      ∀ listed, given? listing = some listed →
        (∃ scan, refreshed = (.ok scan, directory.replace scan.services) ∧
          Service.LastOfEach (listed.flatMap registry.contribution) scan.services ∧
          scan.warnings = listed.filterMap registry.warning?) ∧
        ∀ entry ∈ listed, entry.nodes = [] →
          match given? (registry.lookupReply entry.name) with
          | some (service :: services) =>
            registry.contribution entry = service :: services ∧ registry.warning? entry = none
          | some [] =>
            registry.contribution entry = [] ∧
              registry.warning? entry = some (.unresolved entry.name (.notFound entry.name))
          | none =>
            registry.contribution entry = [] ∧
              registry.warning? entry = some (.unresolved entry.name
                (faultOf (some entry.name) (registry.lookupReply entry.name))) := by
  intro refreshed listing
  have hfault (h : given? listing = none) :
      refreshed = (.error (refusal listing), directory) :=
    Directory.refresh_of_fault directory (by
      rw [show (Discovery.view registry).listing = _ from registry.listing_view, h]
      rfl)
  have hlisting {listed : List Service} (h : given? listing = some listed) :
      refreshed = (.ok (Scan.gather registry.view {} listed),
        directory.replace (Scan.gather registry.view {} listed).services) :=
    Directory.refresh_of_listing directory (by
      rw [show (Discovery.view registry).listing = _ from registry.listing_view, h]
      rfl)
  refine ⟨⟨?_, fun h => ⟨_, hfault h⟩⟩, hfault, fun listed h => ⟨⟨_, hlisting h, ?_, ?_⟩, ?_⟩⟩
  · rintro ⟨fault, hrefreshed⟩
    cases hgiven : given? listing with
    | none => rfl
    | some listed =>
      rw [hlisting hgiven] at hrefreshed
      cases (Prod.mk.inj hrefreshed).1
  · rw [← flatMap_contribution_view]
    exact Scan.lastOfEach_services registry.view listed
  · exact registry.warnings_gather listed
  · intro entry _ hnodes
    have hempty : entry.nodes.isEmpty = true := List.isEmpty_iff.2 hnodes
    rw [contribution, warning?, complaint?, if_pos hempty, if_pos hempty]
    split <;> rename_i hgiven <;> rw [hgiven] <;> exact ⟨rfl, rfl⟩

end Vitals.HttpRegistry
