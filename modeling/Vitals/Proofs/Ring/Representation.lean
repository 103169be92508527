import Mathlib.Logic.Equiv.Basic
import Vitals.Proofs.Ring

/-!
# How a ring represents what was put into it

Rings stand in places, where entries are put into them and where they are copied and exchanged
(`Handling`). What there is to know of a ring is the capacity that was asked for and the sequence
of its entries, its `Past`, and pasts are handled as the rings are. Whatever is done, the ring in a
place follows the past in that place (`Follows.run`). It then represents it (`Represents`) : round
from the cursor on, its slots are the free ones and after them those of the newest entries, in
order. A read of any length subtracts no more than there is, stays inside the ring and meets no
free slot (`ReadsInside`), so that it gives as many entries as are asked for and held
(`represents_run`).
-/

namespace Vitals

variable {κ α β γ : Type} [DecidableEq κ]

/-! ## Things in places -/

/-- What is done with things that stand in places and that entries are put into. -/
inductive Handling (κ α : Type)
  | put (place : κ) (entry : α)
  /-- The second place gets a copy of what stands in the first one. -/
  | copy (source target : κ)
  | swap (first second : κ)

namespace Handling

/-- What stands in the places after something is done, where `put` puts an entry into a thing. -/
def apply (put : β → α → β) (things : κ → β) : Handling κ α → κ → β
  | .put place entry => Function.update things place (put (things place) entry)
  | .copy source target => Function.update things target (things source)
  | .swap first second => things ∘ Equiv.swap first second

/-- What stands in the places after one thing is done after another. -/
def run (put : β → α → β) (things : κ → β) (handlings : List (Handling κ α)) : κ → β :=
  handlings.foldl (apply put) things

section

variable {R : β → γ → Prop} {put : β → α → β} {put' : γ → α → γ} {things : κ → β} {others : κ → γ}

/-- Related things stay related if they do when an entry is put into both. -/
theorem apply_rel
    (hput : ∀ thing other entry, R thing other → R (put thing entry) (put' other entry))
    (h : ∀ place, R (things place) (others place)) (handling : Handling κ α) (place : κ) :
    R (apply put things handling place) (apply put' others handling place) := by
  cases handling with
  | put target entry =>
    rw [apply, apply, Function.update_apply, Function.update_apply]
    split_ifs
    · exact hput _ _ entry (h target)
    · exact h place
  | copy source target =>
    rw [apply, apply, Function.update_apply, Function.update_apply]
    split_ifs
    · exact h source
    · exact h place
  | swap first second => exact h (Equiv.swap first second place)

theorem run_rel
    (hput : ∀ thing other entry, R thing other → R (put thing entry) (put' other entry))
    (h : ∀ place, R (things place) (others place)) (handlings : List (Handling κ α)) (place : κ) :
    R (run put things handlings place) (run put' others handlings place) := by
  induction handlings generalizing things others with
  | nil => exact h place
  | cons handling handlings ih => exact ih (apply_rel hput h handling)

end

end Handling

namespace Ring

/-! ## The past of a ring -/

/-- The capacity that was asked for and the entries that were put in, one after another. -/
structure Past (α : Type) where
  requested : Nat
  entries : List α := []

/-- The past with an entry more. -/
def Past.put (past : Past α) (entry : α) : Past α :=
  { past with entries := past.entries ++ [entry] }

variable {ring : Ring α} {past : Past α}

/-- The ring has the capacity that was asked for, at least one, and holds the end of the entries. -/
structure Follows (ring : Ring α) (past : Past α) : Prop where
  capacity : ring.capacity = max past.requested 1
  holds : ring.Holds past.entries

theorem follows_ofCapacity (requested : Nat) :
    (ofCapacity requested : Ring α).Follows { requested } where
  capacity := capacity_ofCapacity requested
  holds := holds_ofCapacity requested

theorem Follows.put (h : ring.Follows past) (entry : α) :
    (ring.put entry).Follows (past.put entry) where
  capacity := (capacity_put ring entry).trans h.capacity
  holds := h.holds.put entry

/-- Whatever is done with rings, each of them follows its past. -/
theorem Follows.run (requested : κ → Nat) (handlings : List (Handling κ α)) (place : κ) :
    (Handling.run Ring.put (fun place => ofCapacity (requested place)) handlings place).Follows
      (Handling.run Past.put (fun place => { requested := requested place }) handlings place) :=
  Handling.run_rel (fun _ _ entry h => h.put entry)
    (fun place => follows_ofCapacity (requested place)) handlings place

/-! ## What is in the slots -/

/-- The capacity is the one that was asked for, at least one. As many slots are in use as there are
entries and slots for them, the last ones before the cursor, by the newest entries in order. -/
structure Represents (ring : Ring α) (past : Past α) : Prop where
  capacity : ring.capacity = max past.requested 1
  cursor_lt : ring.cursor < ring.capacity
  size : ring.size = min past.entries.length ring.capacity
  /-- Round from the cursor on, the slots are first free and then in use. -/
  rotate_slots : ring.slots.toList.rotate ring.cursor =
    List.replicate (ring.capacity - ring.size) none ++
      (past.entries.rtake ring.size).map some

theorem Follows.represents (h : ring.Follows past) : ring.Represents past where
  capacity := h.capacity
  cursor_lt := ring.cursor_lt
  size := h.holds.size
  rotate_slots := h.holds.rotate_slots

/-! ## Which slots are read -/

/-- Reading up to `n` entries, nothing is subtracted from less, no sum reaches twice the capacity,
and in each slot that is looked into there is an entry. -/
structure ReadsInside (ring : Ring α) (n : Nat) : Prop where
  le_minuend : min n ring.size ≤ ring.cursor + ring.capacity
  minuend_lt : ring.cursor + ring.capacity < 2 * ring.capacity
  sum_lt : ∀ i < min n ring.size,
    (ring.cursor + ring.capacity - min n ring.size) % ring.capacity + i < 2 * ring.capacity
  index_lt : ∀ i < min n ring.size, ring.index (min n ring.size) i < ring.slots.size
  used : ∀ i < min n ring.size, ∃ entry,
    ring.slots[ring.index (min n ring.size) i]? = some (some entry)

/-- The sums are less than twice the capacity as the cursor and what is counted from it are less
than the capacity. -/
theorem Holds.readsInside {entries : List α} (h : ring.Holds entries) (n : Nat) :
    ring.ReadsInside n := by
  have hcursor : ring.cursor < ring.capacity := ring.cursor_lt
  have hsize : ring.size ≤ ring.capacity := ring.size_le
  have hle : min n ring.size ≤ ring.size := Nat.min_le_right _ _
  refine ⟨by omega, by omega, fun i hi => ?_, fun i _ => Nat.mod_lt _ ring.capacity_pos,
    fun i hi => ?_⟩
  · have hstart := Nat.mod_lt (ring.cursor + ring.capacity - min n ring.size) ring.capacity_pos
    omega
  · have hi' : i < (entries.rtake (min n ring.size)).length := by
      rw [h.length_rtake hle]
      exact hi
    exact ⟨_, (h.getElem?_index hle hi).trans (congrArg some (List.getElem?_eq_getElem hi'))⟩

/-- Whatever is done with rings, each represents its past. Reads of every length stay inside it and
give the newest entries, as many as are asked for and held ; fewer of them are the end of more, and
the newest is the last that was put in. -/
theorem represents_run (requested : κ → Nat) (handlings : List (Handling κ α)) (place : κ) :
    let ring := Handling.run Ring.put (fun place => ofCapacity (requested place)) handlings place
    let past : Past α :=
      Handling.run Past.put (fun place => { requested := requested place }) handlings place
    ring.Represents past ∧
      (∀ n, ring.ReadsInside n ∧ (ring.recent n).length = min n ring.size ∧
        ring.recent n = past.entries.rtake (min n ring.size)) ∧
      (∀ n m, n ≤ m → ring.recent n <:+ ring.recent m) ∧
        ring.latest? = past.entries.getLast? := by
  intro ring past
  have hfollows : ring.Follows past := Follows.run requested handlings place
  have hholds := hfollows.holds
  refine ⟨hfollows.represents, fun n => ⟨hholds.readsInside n, ?_⟩,
    fun n m hle => hholds.recent_suffix hle, hholds.latest?⟩
  have hrecent : ring.recent n = past.entries.rtake (min n ring.size) := by
    rw [hholds.recent, hholds.size, Nat.min_comm ring.capacity]
  exact ⟨by rw [hrecent, hholds.length_rtake (Nat.min_le_right _ _)], hrecent⟩

/-- A ring of three slots is copied after two of its four entries, and exchanged with the copy. -/
def copied : List (Handling Bool Nat) :=
  [.put true 1, .put true 2, .copy true false, .put true 3, .put true 4, .swap true false]

/-- The ring has gone round, while the copy has a free slot left. -/
theorem represents_run_copied :
    1 ≤ 2 ∧
      (Handling.run put (fun _ => ofCapacity 3) copied false).recent 1 <:+
        (Handling.run put (fun _ => ofCapacity 3) copied false).recent 2 ∧
      (Handling.run put (fun _ => ofCapacity 3) copied false).recent 10 = [2, 3, 4] ∧
      (Handling.run put (fun _ => ofCapacity 3) copied true).slots.toList.rotate 2 =
        [none, some 1, some 2] ∧
      (Handling.run put (fun _ => ofCapacity 3) copied true).latest? = some 2 := by
  obtain ⟨-, hreads, hsuffix, -⟩ := represents_run (fun _ => 3) copied false
  obtain ⟨hcopy, -, -, hlatest⟩ := represents_run (fun _ => 3) copied true
  exact ⟨by decide, hsuffix 1 2 (by decide), (hreads 10).2.2.trans (by decide),
    hcopy.rotate_slots.trans (by decide), hlatest.trans (by decide)⟩

end Ring

end Vitals
