/-!
# Maps in the order of their keys

A map is the list of its entries in strictly ascending order of the keys, so two maps with
the same entries are equal. `put` stores under a key, `get?` looks one up, and `ofList`
stores one entry after another, so that of several entries under one key the last stands.
-/

namespace Vitals

/-- A map from `κ` to `α`. -/
structure OrderedMap (κ α : Type) [LT κ] where
  /-- The entries. -/
  entries : List (κ × α)
  /-- The keys ascend strictly. -/
  ascending : entries.Pairwise fun a b => a.1 < b.1

namespace OrderedMap

variable {κ α : Type} [LT κ]

theorem ext {m n : OrderedMap κ α} (h : m.entries = n.entries) : m = n := by
  cases m; cases n; cases h; rfl

instance [DecidableEq κ] [DecidableEq α] : DecidableEq (OrderedMap κ α) := fun m n =>
  decidable_of_iff (m.entries = n.entries) ⟨ext, congrArg entries⟩

/-- The map without entries. -/
def empty : OrderedMap κ α := ⟨[], .nil⟩

instance : Inhabited (OrderedMap κ α) := ⟨empty⟩

/-- The values in the order of their keys. -/
def values (m : OrderedMap κ α) : List α := m.entries.map Prod.snd

/-- The number of entries. -/
def size (m : OrderedMap κ α) : Nat := m.entries.length

variable [DecidableLT κ]

/-- Stores `value` under `key` in a list of entries: in its place, or instead of the entry
whose key is neither smaller nor larger. -/
def putEntry (key : κ) (value : α) : List (κ × α) → List (κ × α)
  | [] => [(key, value)]
  | entry :: rest =>
    if key < entry.1 then (key, value) :: entry :: rest
    else if entry.1 < key then entry :: putEntry key value rest
    else (entry.1, value) :: rest

theorem fst_of_mem_putEntry {key : κ} {value : α} {entries : List (κ × α)} {e : κ × α}
    (h : e ∈ putEntry key value entries) : e.1 = key ∨ ∃ f ∈ entries, e.1 = f.1 := by
  induction entries with
  | nil => simp_all [putEntry]
  | cons entry rest ih =>
    simp only [putEntry] at h
    split at h
    · rcases List.mem_cons.1 h with rfl | h
      · exact .inl rfl
      · exact .inr ⟨e, h, rfl⟩
    · split at h
      · rcases List.mem_cons.1 h with rfl | h
        · exact .inr ⟨e, by simp, rfl⟩
        · rcases ih h with h | ⟨f, hf, h⟩
          · exact .inl h
          · exact .inr ⟨f, by simp [hf], h⟩
      · rcases List.mem_cons.1 h with rfl | h
        · exact .inr ⟨entry, by simp, rfl⟩
        · exact .inr ⟨e, by simp [h], rfl⟩

variable [Trans (α := κ) (· < ·) (· < ·) (· < ·)]

theorem ascending_putEntry (key : κ) (value : α) {entries : List (κ × α)}
    (h : entries.Pairwise fun a b => a.1 < b.1) :
    (putEntry key value entries).Pairwise fun a b => a.1 < b.1 := by
  induction entries with
  | nil => exact List.pairwise_singleton ..
  | cons entry rest ih =>
    obtain ⟨head, tail⟩ := List.pairwise_cons.1 h
    simp only [putEntry]
    split
    · rename_i less
      refine List.pairwise_cons.2 ⟨fun e he => ?_, h⟩
      rcases List.mem_cons.1 he with rfl | he
      · exact less
      · exact Trans.trans less (head e he)
    · split
      · rename_i more
        refine List.pairwise_cons.2 ⟨fun e he => ?_, ih tail⟩
        rcases fst_of_mem_putEntry he with he | ⟨f, hf, he⟩
        · exact he ▸ more
        · exact he ▸ head f hf
      · exact List.pairwise_cons.2 ⟨fun e he => head e he, tail⟩

/-- Stores `value` under `key`. -/
def put (m : OrderedMap κ α) (key : κ) (value : α) : OrderedMap κ α :=
  ⟨putEntry key value m.entries, ascending_putEntry key value m.ascending⟩

/-- The value under `key`. -/
def get? [DecidableEq κ] (m : OrderedMap κ α) (key : κ) : Option α :=
  (m.entries.find? fun e => e.1 = key).map Prod.snd

/-- The entries stored one after another. -/
def ofList (entries : List (κ × α)) : OrderedMap κ α :=
  entries.foldl (fun m e => m.put e.1 e.2) empty

end OrderedMap

instance instTransStringLt : Trans (α := String) (· < ·) (· < ·) (· < ·) := ⟨String.lt_trans⟩

end Vitals
