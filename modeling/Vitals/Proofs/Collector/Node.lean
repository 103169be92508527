import Vitals.Collector.Tick
import Vitals.Proofs.OrderedMap

/-!
# What becomes of a call

A call ends after `Behaviour.duration`, which is never longer than the caller waits. It gives
counters (`Behaviour.counters?`) if the node answers in time with a body that is read as such;
any other call is told as a fault (`Behaviour.fault?`), or breaks off. `Behaviour.settle` does
just this (`settle_eq`). `Fleet.attempts` are the calls of a tick, each numbered among the calls
to its address (`Fleet.number_attempts`).
-/

set_option linter.unusedSectionVars false

namespace Vitals

namespace Behaviour

variable (limit : Duration) (number : Nat)

/-- After how long a call ends. -/
def duration : Behaviour → Nat
  | answer _ _ delay | fail _ delay | crash delay => min delay limit.millisUp
  | hang => limit.millisUp

/-- The counters of an answer that comes in time and is read as such. -/
def counters? : Behaviour → Option Counters
  | answer body counted delay =>
    if delay ≤ limit.millisUp then
      (Counters.codec.ofJson (if counted then countedBody number body else body)).toOption
    else none
  | _ => none

/-- The fault of a call that gives no counters; none if the work on it breaks off. -/
def fault? : Behaviour → Option CallFault
  | answer body counted delay =>
    if delay ≤ limit.millisUp then
      match Counters.codec.ofJson (if counted then countedBody number body else body) with
      | .ok _ => none
      | .error refused => some (.decode refused.message)
    else some (.timeout limit)
  | fail fault delay => some (if delay ≤ limit.millisUp then fault else .timeout limit)
  | hang => some (.timeout limit)
  | crash delay => if delay ≤ limit.millisUp then none else some (.timeout limit)

/-- How a call ends. -/
def ending (behaviour : Behaviour) : Ending :=
  match behaviour.counters? limit number, behaviour.fault? limit number with
  | some counters, _ => .counters counters
  | none, some fault => .fault fault
  | none, none => .crash

theorem duration_le (behaviour : Behaviour) : behaviour.duration limit ≤ limit.millisUp := by
  cases behaviour with
  | answer _ _ delay => exact Nat.min_le_right delay _
  | fail _ delay => exact Nat.min_le_right delay _
  | hang => exact Nat.le_refl _
  | crash delay => exact Nat.min_le_right delay _

/-- The caller waits for what comes within `most`, and gives up then. -/
theorem ite_le_eq_min {α : Type} (delay most : Nat) (inTime late : α) :
    (if delay ≤ most then (delay, inTime) else (most, late)) =
      (min delay most, if delay ≤ most then inTime else late) := by
  split
  · rename_i h
    rw [Nat.min_eq_left h]
  · rename_i h
    rw [Nat.min_eq_right (Nat.le_of_not_le h)]

theorem settle_eq (behaviour : Behaviour) :
    behaviour.settle limit number =
      (behaviour.duration limit, behaviour.ending limit number) := by
  cases behaviour with
  | answer body counted delay =>
    simp only [settle, ite_le_eq_min, duration, ending, counters?, fault?]
    split
    · rw [Ending.ofAnswer]
      cases Counters.codec.ofJson (if counted then countedBody number body else body) <;> rfl
    · rfl
  | fail fault delay =>
    simp only [settle, ite_le_eq_min, duration, ending, counters?, fault?]
    split <;> rfl
  | hang => rfl
  | crash delay =>
    simp only [settle, ite_le_eq_min, duration, ending, counters?, fault?]
    split <;> rfl

end Behaviour

/-- A snapshot says what the counters say; of a start beyond what a signed number can say, it
says the latest that it can. -/
structure Counters.ReportedIn (counters : Counters) (snapshot : Snapshot) : Prop where
  started : snapshot.started.toInt = min counters.started.toNat 9223372036854775807
  uptime : snapshot.uptime = counters.uptime
  memory : snapshot.memory = counters.memory
  threads : snapshot.threads = counters.threads
  gc : snapshot.gc = counters.gc
  requests : snapshot.requests = counters.requests
  errors : snapshot.errors = counters.errors

theorem Counters.reportedIn_toSnapshot (counters : Counters) (service : ServiceRef)
    (timestamp : UInt64) : counters.ReportedIn (counters.toSnapshot service timestamp) where
  started := by
    have hcap : min counters.started.toNat 9223372036854775807 < 2 ^ 63 := by
      omega
    have hstarted := Int64.toInt_ofNat_of_lt hcap
    rw [toSnapshot, hstarted]
  uptime := rfl
  memory := rfl
  threads := rfl
  gc := rfl
  requests := rfl
  errors := rfl

/-! ## The calls of a tick -/

/-- A call that a tick makes. -/
structure Attempt where
  target : Target
  /-- The calls that the address has had, this one included. -/
  number : Nat
  /-- How the node takes the call. -/
  behaviour : Behaviour

namespace Attempt

variable (limit : Duration) (attempt : Attempt)

/-- After how long the call ends. -/
def duration : Nat := attempt.behaviour.duration limit

/-- The counters that the call gives. -/
def counters? : Option Counters := attempt.behaviour.counters? limit attempt.number

/-- Whether the call gives counters. -/
def isAnswered : Bool := (attempt.counters? limit).isSome

/-- What is told of a call that gives no counters. -/
def warning : Warning :=
  match attempt.behaviour.fault? limit attempt.number with
  | some fault => .scrape attempt.target.service.name attempt.target.node.address fault
  | none => .aborted

/-- The snapshot is what the call gives : it names the service and the node that were called and
says the counters that the node answered with. `clock` is the calendar in seconds, so many
milliseconds after the call was made. -/
structure Gives (clock : Nat → UInt64) (snapshot : Snapshot) : Prop where
  service : snapshot.service =
    ⟨attempt.target.service.name, attempt.target.service.version,
      ⟨attempt.target.node.id, attempt.target.node.address⟩⟩
  counters : ∃ counters, attempt.counters? limit = some counters ∧ counters.ReportedIn snapshot
  timestamp : snapshot.timestamp = clock (attempt.duration limit)

/-- The call once it has been made. -/
def pending (now : Nat) : PendingCall :=
  ⟨attempt.target, now + attempt.duration limit,
    attempt.behaviour.ending limit attempt.number⟩

end Attempt

namespace Fleet

/-- The calls to some targets one after another. -/
def attempts (fleet : Fleet) : List Target → List Attempt
  | [] => []
  | target :: targets =>
    let address := target.node.address
    let noted := fleet.noteCall address
    ⟨target, noted.callsTo address, fleet.respond address target.call⟩ :: noted.attempts targets

/-- Takes note of the calls to some targets. -/
def noteCalls (fleet : Fleet) (targets : List Target) : Fleet :=
  targets.foldl (fun fleet target => fleet.noteCall target.node.address) fleet

theorem callsTo_noteCall (fleet : Fleet) (address other : String) :
    (fleet.noteCall address).callsTo other =
      fleet.callsTo other + if other = address then 1 else 0 := by
  rw [callsTo, noteCall, OrderedMap.get?_put]
  split
  · rename_i h
    rw [h]
    rfl
  · rfl

theorem map_target_attempts (fleet : Fleet) (targets : List Target) :
    (fleet.attempts targets).map Attempt.target = targets := by
  induction targets generalizing fleet with
  | nil => rfl
  | cons target targets ih => rw [attempts, List.map_cons, ih]

/-- A call is taken as the node at its address takes it. -/
theorem behaviour_attempts {fleet : Fleet} {targets : List Target} {attempt : Attempt}
    (h : attempt ∈ fleet.attempts targets) :
    attempt.behaviour = fleet.respond attempt.target.node.address attempt.target.call := by
  induction targets generalizing fleet with
  | nil => exact absurd h List.not_mem_nil
  | cons target targets ih =>
    rcases List.mem_cons.1 h with rfl | h
    · rfl
    · have hrest := ih h
      exact hrest

/-- A call is numbered by the calls to its address that went before, in earlier ticks and in
this one. -/
theorem number_attempts {fleet : Fleet} {targets : List Target} {before after : List Attempt}
    {attempt : Attempt} (h : fleet.attempts targets = before ++ attempt :: after) :
    attempt.number = fleet.callsTo attempt.target.node.address +
      before.countP (·.target.node.address = attempt.target.node.address) + 1 := by
  induction targets generalizing fleet before with
  | nil => simp [attempts] at h
  | cons target targets ih =>
    cases before with
    | nil =>
      obtain ⟨rfl, -⟩ := List.cons.inj h
      exact (callsTo_noteCall fleet _ _).trans (by rw [if_pos rfl]; rfl)
    | cons first before =>
      obtain ⟨rfl, hrest⟩ := List.cons.inj h
      rw [ih hrest, callsTo_noteCall, List.countP_cons]
      by_cases haddress : target.node.address = attempt.target.node.address
      · simp only [haddress, decide_true, if_true]
        omega
      · simp only [haddress, Ne.symm haddress, decide_false, if_false, Bool.false_eq_true]
        omega

end Fleet

end Vitals
