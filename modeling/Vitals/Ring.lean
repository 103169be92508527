/-!
# A ring of the latest entries

A ring has a fixed number of slots, at least one. Entries are written at a cursor that goes
round the slots, so that the newest entry takes the place of the oldest once every slot is in
use. `Ring.recent` reads the newest entries back, the oldest of them first.
-/

namespace Vitals

/-- The latest entries of a sequence. -/
structure Ring (α : Type) where
  slots : Array (Option α)
  /-- The slot that the next entry is written to. -/
  cursor : Nat
  /-- The number of slots in use. -/
  size : Nat
  cursor_lt : cursor < slots.size
  size_le : size ≤ slots.size

namespace Ring

variable {α : Type}

/-- The number of entries that the ring can hold. -/
def capacity (ring : Ring α) : Nat := ring.slots.size

theorem capacity_pos (ring : Ring α) : 0 < ring.capacity :=
  Nat.lt_of_le_of_lt (Nat.zero_le _) ring.cursor_lt

/-- A ring without entries that holds up to `capacity` of them, or one. -/
def ofCapacity (capacity : Nat) : Ring α where
  slots := Array.replicate (max capacity 1) none
  cursor := 0
  size := 0
  cursor_lt := by
    rw [Array.size_replicate]
    exact Nat.lt_of_lt_of_le Nat.zero_lt_one (Nat.le_max_right capacity 1)
  size_le := Nat.zero_le _

instance : Inhabited (Ring α) := ⟨ofCapacity 1⟩

/-- The ring with an entry more, in the place of the oldest if every slot is in use. -/
def put (ring : Ring α) (entry : α) : Ring α where
  slots := ring.slots.set ring.cursor (some entry) ring.cursor_lt
  cursor := (ring.cursor + 1) % ring.capacity
  size := min (ring.size + 1) ring.capacity
  cursor_lt := by
    rw [Array.size_set]
    exact Nat.mod_lt _ ring.capacity_pos
  size_le := by
    rw [Array.size_set]
    exact Nat.min_le_right _ _

/-- The slot of the `i`-th of the newest `count` entries. -/
def index (ring : Ring α) (count i : Nat) : Nat :=
  ((ring.cursor + ring.capacity - count) % ring.capacity + i) % ring.capacity

/-- The newest `n` entries, or all if there are fewer, the oldest of them first. -/
def recent (ring : Ring α) (n : Nat) : List α :=
  let count := min n ring.size
  (List.range count).filterMap fun i => ring.slots[ring.index count i]?.join

/-- The newest entry. -/
def latest? (ring : Ring α) : Option α := (ring.recent 1).getLast?

/-- Whether there are no entries. -/
def isEmpty (ring : Ring α) : Bool := ring.size == 0

end Ring

end Vitals
