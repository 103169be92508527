import Mathlib.Data.List.Sort
import Vitals.OrderedMap

/-!
# Laws of maps

What is found in a map is what stands in it (`get?_eq_some_iff`). Storing changes the answer
for one key (`get?_put`), and a key beyond all others goes to the end (`entries_put_of_lt`); a
map is therefore its entries stored one after another (`ofList_entries`).
-/

set_option linter.unusedSectionVars false

namespace Vitals.OrderedMap

variable {κ α : Type} [LT κ] [DecidableEq κ]

@[simp] theorem get?_empty (key : κ) : (empty : OrderedMap κ α).get? key = none := rfl

section Keys

variable [Std.Irrefl (α := κ) (· < ·)]

theorem fst_ne_of_lt {a b : κ} (h : a < b) : a ≠ b := by
  rintro rfl
  exact Std.Irrefl.irrefl (r := (· < ·)) a h

theorem get?_eq_some_iff {m : OrderedMap κ α} {key : κ} {value : α} :
    m.get? key = some value ↔ (key, value) ∈ m.entries := by
  obtain ⟨entries, ascending⟩ := m
  simp only [get?]
  induction entries with
  | nil => simp
  | cons entry rest ih =>
    obtain ⟨head, tail⟩ := List.pairwise_cons.1 ascending
    rw [List.find?_cons, List.mem_cons]
    by_cases hkey : entry.1 = key
    · have hrest : (key, value) ∉ rest := fun hmem => fst_ne_of_lt (head _ hmem) hkey
      simp [hkey, hrest, Prod.ext_iff, eq_comm]
    · have hentry : (key, value) ≠ entry := by
        rintro rfl
        exact hkey rfl
      simp only [hkey, decide_false, hentry, false_or]
      exact ih tail

end Keys

/-! ## Storing -/

variable [DecidableLT κ] [Std.Irrefl (α := κ) (· < ·)] [Std.Trichotomous (α := κ) (· < ·)]

theorem find?_putEntry (key other : κ) (value : α) (entries : List (κ × α)) :
    ((putEntry key value entries).find? fun e => e.1 = other) =
      if other = key then some (key, value) else entries.find? fun e => e.1 = other := by
  induction entries with
  | nil =>
    by_cases h : other = key
    · simp [putEntry, h]
    · simp [putEntry, h, Ne.symm h]
  | cons entry rest ih =>
    rw [putEntry]
    split
    · by_cases h : other = key
      · simp [h]
      · rw [if_neg h, List.find?_cons_of_neg (by simpa using Ne.symm h)]
    · rename_i hless
      split
      · rename_i hmore
        by_cases h : entry.1 = other
        · have hkey : other ≠ key := h ▸ fst_ne_of_lt hmore
          rw [if_neg hkey, List.find?_cons_of_pos (by simpa using h),
            List.find?_cons_of_pos (by simpa using h)]
        · rw [List.find?_cons_of_neg (by simpa using h), ih,
            List.find?_cons_of_neg (by simpa using h)]
      · rename_i hmore
        have hkey : key = entry.1 :=
          Std.Trichotomous.trichotomous (r := (· < ·)) key entry.1 hless hmore
        subst hkey
        by_cases h : other = entry.1
        · simp [h]
        · rw [if_neg h, List.find?_cons_of_neg (by simpa using Ne.symm h),
            List.find?_cons_of_neg (by simpa using Ne.symm h)]

variable [Trans (α := κ) (· < ·) (· < ·) (· < ·)]

/-- Storing changes the answer for the key alone. -/
theorem get?_put (m : OrderedMap κ α) (key other : κ) (value : α) :
    (m.put key value).get? other = if other = key then some value else m.get? other := by
  rw [get?, put, find?_putEntry]
  split <;> rfl

theorem putEntry_of_lt {key : κ} (value : α) {entries : List (κ × α)}
    (h : ∀ e ∈ entries, e.1 < key) : putEntry key value entries = entries ++ [(key, value)] := by
  induction entries with
  | nil => rfl
  | cons entry rest ih =>
    have hentry : entry.1 < key := h entry List.mem_cons_self
    have hnot : ¬key < entry.1 := fun hless => fst_ne_of_lt (Trans.trans hentry hless) rfl
    rw [putEntry, if_neg hnot, if_pos hentry, ih fun e he => h e (List.mem_cons_of_mem _ he)]
    rfl

/-- A key beyond all others goes to the end. -/
theorem entries_put_of_lt {m : OrderedMap κ α} {key : κ} (value : α)
    (h : ∀ e ∈ m.entries, e.1 < key) : (m.put key value).entries = m.entries ++ [(key, value)] :=
  putEntry_of_lt value h

theorem entries_foldl_put {m : OrderedMap κ α} {more : List (κ × α)}
    (h : (m.entries ++ more).Pairwise fun a b => a.1 < b.1) :
    (more.foldl (fun m e => m.put e.1 e.2) m).entries = m.entries ++ more := by
  induction more generalizing m with
  | nil => simp
  | cons e more ih =>
    have hput : (m.put e.1 e.2).entries = m.entries ++ [e] :=
      entries_put_of_lt e.2 fun f hf => (List.pairwise_append.1 h).2.2 f hf e List.mem_cons_self
    rw [List.foldl_cons, ih (by rwa [hput, List.append_assoc]), hput, List.append_assoc]
    rfl

/-- A map is its entries stored one after another. -/
theorem ofList_entries (m : OrderedMap κ α) : ofList m.entries = m :=
  ext (entries_foldl_put (m := empty) m.ascending)

end Vitals.OrderedMap
