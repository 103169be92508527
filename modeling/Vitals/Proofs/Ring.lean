import Mathlib.Data.List.DropRight
import Mathlib.Data.List.Rotate
import Vitals.Ring

/-!
# What a ring holds

`Ring.Holds` ties a ring to the whole sequence of entries that were put into it : entry
number `i` stands in slot `i` modulo the capacity until the entry one round later takes the
slot. A new ring holds no entries (`holds_ofCapacity`), `Ring.put` keeps the relation
(`Holds.put`), and out of a ring in the relation `Ring.recent` reads exactly the end of the
sequence (`Holds.recent`), however often the cursor has gone round. Round from the cursor on, its
slots are the free ones and then those of the newest entries (`Holds.rotate_slots`).
-/

namespace Vitals.Ring

variable {α : Type}

/-- The ring holds the end of `entries`. -/
structure Holds (ring : Ring α) (entries : List α) : Prop where
  cursor : ring.cursor = entries.length % ring.capacity
  size : ring.size = min entries.length ring.capacity
  /-- The entries of the last round stand in their slots. -/
  used : ∀ i (hi : i < entries.length), entries.length ≤ i + ring.capacity →
    ring.slots[i % ring.capacity]? = some (some entries[i])
  /-- In the first round the slots from the cursor on are free. -/
  free : ∀ j, entries.length ≤ j → j < ring.capacity → ring.slots[j]? = some none

@[simp] theorem capacity_ofCapacity (capacity : Nat) :
    (ofCapacity capacity : Ring α).capacity = max capacity 1 := by
  simp [Ring.capacity, ofCapacity]

@[simp] theorem capacity_put (ring : Ring α) (entry : α) :
    (ring.put entry).capacity = ring.capacity := by
  simp [Ring.capacity, put]

theorem holds_ofCapacity (capacity : Nat) : Holds (ofCapacity capacity : Ring α) [] where
  cursor := by simp [ofCapacity]
  size := by simp [ofCapacity]
  used i hi := by simp at hi
  free j _ hj := by
    rw [capacity_ofCapacity] at hj
    simp [ofCapacity, hj]

/-- Two entries less than a round apart stand in different slots. -/
theorem mod_ne_of_lt {i j c : Nat} (hij : i < j) (hj : j < i + c) : i % c ≠ j % c := by
  intro h
  have hzero := Nat.sub_mod_eq_zero_of_mod_eq h.symm
  rw [Nat.mod_eq_of_lt (by omega)] at hzero
  omega

theorem Holds.put {ring : Ring α} {entries : List α} (h : ring.Holds entries) (entry : α) :
    (ring.put entry).Holds (entries ++ [entry]) := by
  have hc := ring.capacity_pos
  have hslots : (ring.put entry).slots =
      ring.slots.set ring.cursor (some entry) ring.cursor_lt := rfl
  refine ⟨?_, ?_, fun i hi hround => ?_, fun j hj hjc => ?_⟩
  · show (ring.cursor + 1) % ring.capacity = _
    rw [h.cursor, capacity_put, List.length_append, List.length_singleton, Nat.mod_add_mod]
  · show min (ring.size + 1) ring.capacity = _
    rw [h.size, capacity_put, List.length_append, List.length_singleton]
    omega
  · rw [List.length_append, List.length_singleton] at hi hround
    rw [capacity_put] at hround ⊢
    rw [hslots, Array.getElem?_set]
    rcases Nat.lt_or_ge i entries.length with hold | hnew
    · rw [if_neg, h.used i hold (by omega), List.getElem_append_left hold]
      rw [h.cursor]
      exact (mod_ne_of_lt hold (by omega)).symm
    · obtain rfl : i = entries.length := by omega
      rw [if_pos h.cursor, List.getElem_append_right hnew]
      simp
  · rw [List.length_append, List.length_singleton] at hj
    rw [capacity_put] at hjc
    rw [hslots, Array.getElem?_set, if_neg, h.free j (by omega) hjc]
    rw [h.cursor, Nat.mod_eq_of_lt (by omega)]
    omega

/-- The `i`-th of the newest `count` entries stands where it is looked for. -/
theorem Holds.index {ring : Ring α} {entries : List α} (h : ring.Holds entries) {count i : Nat}
    (hcount : count ≤ min entries.length ring.capacity) :
    ring.index count i = (entries.length - count + i) % ring.capacity := by
  have hrounds := Nat.div_add_mod entries.length ring.capacity
  have hc := Nat.mod_lt entries.length ring.capacity_pos
  rw [Ring.index, h.cursor, Nat.mod_add_mod]
  -- Both places differ by whole rounds : one from adding the capacity, the others from the cursor.
  rw [← Nat.add_mul_mod_self_left _ ring.capacity (entries.length / ring.capacity),
    ← Nat.add_mod_right (entries.length - count + i)]
  congr 1
  omega

theorem Holds.length_rtake {ring : Ring α} {entries : List α} (h : ring.Holds entries)
    {count : Nat} (hcount : count ≤ ring.size) : (entries.rtake count).length = count := by
  have hsize := h.size
  rw [List.rtake, List.length_drop]
  omega

/-- The slot that is looked into has the entry that is looked for. -/
theorem Holds.getElem?_index {ring : Ring α} {entries : List α} (h : ring.Holds entries)
    {count i : Nat} (hcount : count ≤ ring.size) (hi : i < count) :
    ring.slots[ring.index count i]? = some (entries.rtake count)[i]? := by
  have hsize := h.size
  rw [h.index (by omega), h.used _ (by omega) (by omega), List.rtake, List.getElem?_drop,
    List.getElem?_eq_getElem (by omega)]

theorem filterMap_getElem?_range {l : List α} {n : Nat} (h : l.length = n) :
    (List.range n).filterMap (fun i => l[i]?) = l := by
  subst h
  induction l with
  | nil => rfl
  | cons x l ih =>
    rw [List.length_cons, List.range_succ_eq_map, List.filterMap_cons, List.filterMap_map]
    exact congrArg (x :: ·) ih

/-- The newest entries are the end of the sequence. -/
theorem Holds.recent {ring : Ring α} {entries : List α} (h : ring.Holds entries) (n : Nat) :
    ring.recent n = entries.rtake (min n (min ring.capacity entries.length)) := by
  have hcount : min n ring.size = min n (min ring.capacity entries.length) := by
    rw [h.size]
    omega
  rw [Ring.recent, ← hcount]
  have hle : min n ring.size ≤ ring.size := Nat.min_le_right _ _
  generalize min n ring.size = count at hle ⊢
  have hslot : ∀ i ∈ List.range count,
      ring.slots[ring.index count i]?.join = (entries.rtake count)[i]? := by
    intro i hi
    rw [h.getElem?_index hle (List.mem_range.1 hi), Option.join_some]
  calc (List.range count).filterMap (fun i => ring.slots[ring.index count i]?.join)
      = (List.range count).filterMap (fun i => (entries.rtake count)[i]?) :=
        List.filterMap_congr hslot
    _ = entries.rtake count := filterMap_getElem?_range (h.length_rtake hle)

/-- Fewer of the newest entries are the end of more of them. -/
theorem Holds.recent_suffix {ring : Ring α} {entries : List α} (h : ring.Holds entries)
    {n m : Nat} (hle : n ≤ m) : ring.recent n <:+ ring.recent m := by
  rw [h.recent, h.recent, List.rtake, List.rtake]
  exact List.drop_suffix_drop_left _ (by omega)

/-- The newest entry is the last of the sequence. -/
theorem Holds.latest? {ring : Ring α} {entries : List α} (h : ring.Holds entries) :
    ring.latest? = entries.getLast? := by
  have hc := ring.capacity_pos
  rw [Ring.latest?, h.recent, List.rtake, List.getLast?_drop]
  split_ifs with hempty
  · rw [List.length_eq_zero_iff.1 (show entries.length = 0 by omega), List.getLast?_nil]
  · rfl

/-! ## Round the ring -/

/-- Round the ring from the cursor on, the slots are the free ones and then those of the newest
entries, the oldest of them first. -/
theorem Holds.rotate_slots {ring : Ring α} {entries : List α} (h : ring.Holds entries) :
    ring.slots.toList.rotate ring.cursor =
      List.replicate (ring.capacity - ring.size) none ++ (entries.rtake ring.size).map some := by
  have hcapacity : ring.slots.toList.length = ring.capacity := Array.length_toList
  have hsize := h.size
  have hused : ((entries.rtake ring.size).map some).length = ring.size := by
    rw [List.length_map, h.length_rtake le_rfl]
  ext1 k
  rcases Nat.lt_or_ge k ring.capacity with hk | hk
  · have hslot : (ring.slots.toList.rotate ring.cursor)[k]? =
        ring.slots[(k + entries.length) % ring.capacity]? := by
      rw [List.getElem?_rotate (by rwa [hcapacity]), hcapacity, Array.getElem?_toList, h.cursor,
        Nat.add_mod_mod]
    rw [hslot]
    rcases Nat.lt_or_ge k (ring.capacity - ring.size) with hfree | hround
    · -- in the first round, the slots from the cursor on are free
      have hlt : k + entries.length < ring.capacity := by omega
      rw [Nat.mod_eq_of_lt hlt, h.free _ (Nat.le_add_left _ _) hlt,
        List.getElem?_append_left (by rwa [List.length_replicate]), List.getElem?_replicate,
        if_pos hfree]
    · -- the entry in the slot is the one that was put there a round ago
      have hplace : k + entries.length = k + entries.length - ring.capacity + ring.capacity := by
        omega
      have hindex : entries.length - ring.size + (k - (ring.capacity - ring.size)) =
          k + entries.length - ring.capacity := by omega
      rw [hplace, Nat.add_mod_right, h.used _ (by omega) (by omega),
        List.getElem?_append_right (by rwa [List.length_replicate]), List.length_replicate,
        List.getElem?_map, List.rtake, List.getElem?_drop, hindex,
        List.getElem?_eq_getElem (by omega)]
      rfl
  · rw [List.getElem?_eq_none (by rwa [List.length_rotate, hcapacity]),
      List.getElem?_eq_none (by rw [List.length_append, List.length_replicate, hused]; omega)]

end Vitals.Ring
