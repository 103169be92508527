import Vitals.Proofs.Ring
import Vitals.Published

/-!
# What readers see of the published batches

`Published.ofBatches` is the state after a sequence of batches has been published. It shows
the last of them as the current batch and the end of the sequence, as long as the window, as
its history (`Shows`), and a request is answered out of these two alone (`read_ofBatches`) :
no snapshot of an evicted batch comes back, and none of a retained one is lost. A request asks for
what its filter lets through, and one that is built of optional texts has the filter of these texts
(`ReadRequest.asks_as_filter`).
-/

namespace Vitals

/-! ## What a request asks for -/

theorem ServiceFilter.admits_iff {wanted value : String} :
    admits wanted value ↔ wanted = "" ∨ value = wanted := by
  simp [admits]

theorem ServiceFilter.accepts_iff {filter : ServiceFilter} {snapshot : Snapshot} :
    filter.accepts snapshot ↔
      (filter.name = "" ∨ snapshot.service.name = filter.name) ∧
        (filter.version = "" ∨ snapshot.service.version = filter.version) := by
  rw [accepts, Bool.and_eq_true, admits_iff, admits_iff]

/-- A request without a filter accepts every snapshot. -/
theorem ReadRequest.accepts_iff {request : ReadRequest} {snapshot : Snapshot} :
    request.accepts snapshot ↔
      ∀ filter, request.service = some filter → filter.accepts snapshot := by
  unfold accepts
  cases request.service <;> simp

/-- A filter of empty texts lets everything through, as no filter does. -/
theorem ServiceFilter.accepts_blank (snapshot : Snapshot) : accepts {} snapshot = true := by
  simp [accepts_iff]

/-- A reader who names a service asks for what the filter of the same texts lets through; a version
without a service counts for nothing. -/
theorem ReadRequest.accepts_ofArguments (service version : Option String) (past : Bool)
    (snapshot : Snapshot) :
    (ofArguments service version past).accepts snapshot =
      ServiceFilter.accepts
        ⟨service.getD "", if service.getD "" = "" then "" else version.getD ""⟩ snapshot := by
  rcases service with _ | name
  · exact (ServiceFilter.accepts_blank snapshot).symm
  · by_cases hname : name = ""
    · subst hname
      exact (ServiceFilter.accepts_blank snapshot).symm
    · have hfilter : (some name).filter (· ≠ "") = some name := by simpa using hname
      rw [ofArguments, hfilter, Option.getD_some, if_neg hname]
      rfl

/-- The request that is built of optional texts asks for what the filter of the same texts lets
through, texts left out being empty, but for a version that comes without a service : exactly then
the two differ, since the request lets every version through. -/
theorem ReadRequest.asks_as_filter (service version : Option String) (past : Bool) :
    (∀ snapshot, (ofArguments service version past).accepts snapshot =
      ServiceFilter.accepts
        ⟨service.getD "", if service.getD "" = "" then "" else version.getD ""⟩ snapshot) ∧
      ((∀ snapshot, (ofArguments service version past).accepts snapshot =
          ServiceFilter.accepts ⟨service.getD "", version.getD ""⟩ snapshot) ↔
        service.getD "" ≠ "" ∨ version.getD "" = "") := by
  refine ⟨accepts_ofArguments service version past, ?_⟩
  simp only [accepts_ofArguments]
  constructor
  · intro h
    by_contra! hversion
    -- a snapshot of the empty version passes where no version is asked for
    have hpasses : ServiceFilter.accepts ⟨service.getD "", version.getD ""⟩ {} = true := by
      rw [← h {}, hversion.1, if_pos rfl]
      exact ServiceFilter.accepts_blank {}
    rcases (ServiceFilter.accepts_iff.1 hpasses).2 with hblank | hblank
    · exact hversion.2 hblank
    · exact hversion.2 hblank.symm
  · rintro (hservice | hversion) snapshot
    · rw [if_neg hservice]
    · rw [hversion, ite_self]

/-- A version alone asks for every snapshot, of other versions too. -/
theorem ReadRequest.asks_versionAlone :
    (ofArguments none (some "v2") false).accepts { service := { version := "v1" } } ≠
      ServiceFilter.accepts ⟨"", "v2"⟩ { service := { version := "v1" } } := by
  decide

namespace Published

/-! ## The state after a sequence of batches -/

/-- The batches published one after another, up to `window` of them being retained, or
one. -/
def ofBatches (window : Nat) (batches : List Batch) : Published :=
  batches.foldl publish (.ofWindow window)

/-- The state shows the end of `batches`. -/
structure Shows (published : Published) (batches : List Batch) : Prop where
  current : published.current = batches.getLastD []
  history : published.history.Holds batches
  count : published.count = batches.length

theorem shows_ofWindow (window : Nat) : (ofWindow window).Shows [] where
  current := rfl
  history := Ring.holds_ofCapacity window
  count := rfl

/-- One more batch is one more at the end, whatever has been published before. -/
theorem Shows.publish {published : Published} {batches : List Batch}
    (h : published.Shows batches) (batch : Batch) :
    (published.publish batch).Shows (batches ++ [batch]) where
  current := by simp [Published.publish, List.getLastD_eq_getLast?]
  history := h.history.put batch
  count := by simp [Published.publish, h.count]

theorem Shows.publishes {published : Published} {batches : List Batch}
    (h : published.Shows batches) (more : List Batch) :
    (more.foldl Published.publish published).Shows (batches ++ more) := by
  induction more generalizing published batches with
  | nil => simpa using h
  | cons batch more ih => simpa using ih (h.publish batch)

theorem shows_ofBatches (window : Nat) (batches : List Batch) :
    (ofBatches window batches).Shows batches :=
  (shows_ofWindow window).publishes batches

@[simp] theorem window_publish (published : Published) (batch : Batch) :
    (published.publish batch).window = published.window :=
  Ring.capacity_put _ _

theorem window_ofBatches (window : Nat) (batches : List Batch) :
    (ofBatches window batches).window = max window 1 := by
  have hkeep : ∀ published : Published,
      (batches.foldl publish published).window = published.window := by
    induction batches with
    | nil => exact fun _ => rfl
    | cons batch batches ih => exact fun _ => (ih _).trans (window_publish _ _)
  exact (hkeep _).trans (Ring.capacity_ofCapacity window)

/-! ## Reading -/

variable {published : Published} {batches : List Batch}

theorem Shows.recent (h : published.Shows batches) (n : Nat) :
    published.history.recent n = batches.rtake (min n (min published.window batches.length)) :=
  h.history.recent n

theorem Shows.retained (h : published.Shows batches) :
    published.retained = min published.window batches.length := by
  rw [Published.retained, h.history.size, Nat.min_comm]
  rfl

/-- The batches that a request is answered out of. -/
theorem Shows.read (h : published.Shows batches) (limit : Nat) (request : ReadRequest) :
    (published.read limit request).stats =
      ((if request.past then
          batches.rtake (min limit (min published.window batches.length))
        else [batches.getLastD []]).flatten).filter request.accepts := by
  rw [Published.read, h.recent, h.current]

/-- After any sequence of batches the current batch is the last one, the history is the end
of the sequence, no longer than the window, and a request gives the accepted snapshots of the
one or the other, in order. -/
theorem read_ofBatches (window limit : Nat) (batches : List Batch) (n : Nat)
    (request : ReadRequest) :
    let published := ofBatches window batches
    let retained := min (max window 1) batches.length
    published.current = batches.getLastD [] ∧
      published.history.recent n = batches.rtake (min n retained) ∧
      published.retained = retained ∧
      (published.read limit request).stats =
        ((if request.past then batches.rtake (min limit retained)
          else [batches.getLastD []]).flatten).filter request.accepts ∧
      ∀ snapshot, request.accepts snapshot ↔ ∀ filter, request.service = some filter →
        (filter.name = "" ∨ snapshot.service.name = filter.name) ∧
          (filter.version = "" ∨ snapshot.service.version = filter.version) := by
  intro published retained
  have hshows := shows_ofBatches window batches
  have hretained : min published.window batches.length = retained := by
    rw [window_ofBatches]
  refine ⟨hshows.current, ?_, ?_, ?_, fun snapshot => ?_⟩
  · rw [hshows.recent, hretained]
  · rw [hshows.retained, hretained]
  · rw [hshows.read, hretained]
  · simp only [ReadRequest.accepts_iff, ServiceFilter.accepts_iff]

end Published

end Vitals
