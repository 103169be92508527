import Mathlib.Data.List.DropRight
import Vitals.Json.Reader

/-!
# What a reader takes

`ValueAt s document rest` says that the text `s` begins with the value `document` and goes on
with `rest`; `ItemsAt` and `MembersAt` say the same of the rest of a list and of an object, the
members in the order in which they are written. Nothing in them counts steps or levels. What
`readValue` reads stands in the text in this sense (`valueAt_of_read`), and where the separators
of a reader lead is told by `nextItem_eq_none`, `nextItem_eq_some` and their like.
-/

namespace Vitals.Json

/-! ## Blanks and separators -/

theorem eq_of_map_eq_ok {α β : Type} {read : Except Fault α} {f : α → β} {y : β}
    (h : read.map f = .ok y) : ∃ x, read = .ok x ∧ f x = y := by
  cases read with
  | error fault => cases h
  | ok x => exact ⟨x, rfl, Except.ok.inj h⟩

theorem skipBlanks_skipBlanks (s : List UInt8) : skipBlanks (skipBlanks s) = skipBlanks s :=
  List.dropWhile_idempotent _ _

theorem skipBlanks_of_eq {s rest : List UInt8} {b : UInt8} (h : skipBlanks s = b :: rest) :
    skipBlanks (b :: rest) = b :: rest := by
  rw [← h, skipBlanks_skipBlanks]

/-- The items end at a bracket. -/
theorem nextItem_eq_none {first : Bool} {s rest : List UInt8}
    (h : nextItem first s = .ok (none, rest)) : skipBlanks s = byte ']' :: rest := by
  unfold nextItem at h
  cases hs : skipBlanks s with
  | nil => simp [hs] at h
  | cons b tail =>
    simp only [hs] at h
    split_ifs at h with hclose hfirst
    · rw [hclose, (Prod.mk.inj (Except.ok.inj h)).2]
    · simp at h
    · cases htail : skipBlanks tail with
      | nil => simp [htail] at h
      | cons c after =>
        simp only [htail] at h
        split_ifs at h
        simp at h

/-- The next item begins where the blanks end, past a comma unless it is the first. -/
theorem nextItem_eq_some {first : Bool} {s t : List UInt8}
    (h : nextItem first s = .ok (some (), t)) :
    (first = true ∧ ∃ b tail, skipBlanks s = b :: tail ∧ b ≠ byte ']' ∧ t = b :: tail) ∨
      (first = false ∧ ∃ tail, skipBlanks s = byte ',' :: tail ∧ t = skipBlanks tail) := by
  unfold nextItem at h
  cases hs : skipBlanks s with
  | nil => simp [hs] at h
  | cons b tail =>
    simp only [hs] at h
    split_ifs at h with hclose hfirst hcomma
    · simp at h
    · exact .inl ⟨hfirst, b, tail, rfl, hclose, (Prod.mk.inj (Except.ok.inj h)).2.symm⟩
    · cases htail : skipBlanks tail with
      | nil => simp [htail] at h
      | cons c after =>
        simp only [htail] at h
        split_ifs at h
        refine .inr ⟨Bool.eq_false_iff.2 hfirst, tail, by rw [not_not.1 hcomma], ?_⟩
        rw [htail, (Prod.mk.inj (Except.ok.inj h)).2]

/-- The members end at a brace. -/
theorem nextMember_eq_none {first : Bool} {s rest : List UInt8}
    (h : nextMember first s = .ok (none, rest)) : skipBlanks s = byte '}' :: rest := by
  unfold nextMember at h
  have hname {tail : List UInt8} :
      (readTextBody tail).map (fun read => (some read.1, read.2)) ≠ .ok (none, rest) := by
    intro h
    obtain ⟨⟨name, after⟩, -, hpair⟩ := eq_of_map_eq_ok h
    cases hpair
  cases hs : skipBlanks s with
  | nil => simp [hs] at h
  | cons b tail =>
    simp only [hs] at h
    split_ifs at h with hclose hfirst hmark
    · rw [hclose, (Prod.mk.inj (Except.ok.inj h)).2]
    · exact absurd h hname
    · cases htail : skipBlanks tail with
      | nil => simp [htail] at h
      | cons c after =>
        simp only [htail] at h
        split_ifs at h
        exact absurd h hname

/-- The name of the next member begins where the blanks end, past a comma unless the member is the
first. -/
theorem nextMember_eq_some {first : Bool} {s t : List UInt8} {name : String}
    (h : nextMember first s = .ok (some name, t)) :
    ∃ tail, readTextBody tail = .ok (name, t) ∧
      ((first = true ∧ skipBlanks s = byte '"' :: tail) ∨
        (first = false ∧ ∃ more, skipBlanks s = byte ',' :: more ∧
          skipBlanks more = byte '"' :: tail)) := by
  unfold nextMember at h
  have hname {tail : List UInt8} (h : (readTextBody tail).map
      (fun read => (some read.1, read.2)) = .ok (some name, t)) :
      readTextBody tail = .ok (name, t) := by
    obtain ⟨⟨text, after⟩, hread, hpair⟩ := eq_of_map_eq_ok h
    cases hpair
    exact hread
  cases hs : skipBlanks s with
  | nil => simp [hs] at h
  | cons b tail =>
    simp only [hs] at h
    split_ifs at h with hclose hfirst hmark hcomma
    · simp at h
    · exact ⟨tail, hname h, .inl ⟨hfirst, by rw [hmark]⟩⟩
    · cases htail : skipBlanks tail with
      | nil => simp [htail] at h
      | cons c after =>
        simp only [htail] at h
        split_ifs at h with hquote
        refine ⟨after, hname h, .inr ⟨Bool.eq_false_iff.2 hfirst, tail, ?_, ?_⟩⟩
        · rw [not_not.1 hcomma]
        · rw [htail, hquote]

/-- A colon stands where one is passed. -/
theorem skipColon_eq_ok {s rest : List UInt8} (h : skipColon s = .ok rest) :
    skipBlanks s = byte ':' :: rest := by
  unfold skipColon at h
  cases hs : skipBlanks s with
  | nil => simp [hs] at h
  | cons b tail =>
    simp only [hs] at h
    split_ifs at h with hcolon
    rw [hcolon, Except.ok.inj h]

/-! ## Values in a text -/

mutual

/-- The text begins with a value, and `rest` follows it. -/
inductive ValueAt : List UInt8 → Json → List UInt8 → Prop where
  | scalar {s tail rest : List UInt8} {b : UInt8} {document : Json}
      (hs : skipBlanks s = b :: tail) (hb : ¬(b = byte '[' ∨ b = byte '{'))
      (h : readScalar b tail = .ok (document, rest)) : ValueAt s document rest
  | list {s tail rest : List UInt8} {items : List Json} (hs : skipBlanks s = byte '[' :: tail)
      (h : ItemsAt true tail items rest) : ValueAt s (.list items) rest
  | object {s tail rest : List UInt8} {members : List (String × Json)}
      (hs : skipBlanks s = byte '{' :: tail) (h : MembersAt true tail members rest) :
      ValueAt s (.object (OrderedMap.ofList members).entries) rest

/-- The text begins with the rest of the items of a list, and `rest` follows its end. -/
inductive ItemsAt : Bool → List UInt8 → List Json → List UInt8 → Prop where
  | nil {first : Bool} {s rest : List UInt8} (h : nextItem first s = .ok (none, rest)) :
      ItemsAt first s [] rest
  | cons {first : Bool} {s t u rest : List UInt8} {item : Json} {items : List Json}
      (h : nextItem first s = .ok (some (), t)) (hitem : ValueAt t item u)
      (hitems : ItemsAt false u items rest) : ItemsAt first s (item :: items) rest

/-- The text begins with the rest of the members of an object, and `rest` follows its end. -/
inductive MembersAt : Bool → List UInt8 → List (String × Json) → List UInt8 → Prop where
  | nil {first : Bool} {s rest : List UInt8} (h : nextMember first s = .ok (none, rest)) :
      MembersAt first s [] rest
  | cons {first : Bool} {s t u v rest : List UInt8} {name : String} {value : Json}
      {members : List (String × Json)} (h : nextMember first s = .ok (some name, t))
      (hcolon : skipColon t = .ok u) (hvalue : ValueAt u value v)
      (hmembers : MembersAt false v members rest) :
      MembersAt first s ((name, value) :: members) rest

end

/-- Blanks before a value do not matter. -/
theorem ValueAt.after_blanks {s rest : List UInt8} {document : Json} (h : ValueAt s document rest) :
    ValueAt (skipBlanks s) document rest := by
  cases h with
  | scalar hs hb h => exact .scalar (by rw [hs, skipBlanks_of_eq hs]) hb h
  | list hs h => exact .list (by rw [hs, skipBlanks_of_eq hs]) h
  | object hs h => exact .object (by rw [hs, skipBlanks_of_eq hs]) h

/-- What begins with neither a bracket nor a brace is a scalar. -/
theorem ValueAt.scalar_of {s tail rest : List UInt8} {b : UInt8} {document : Json}
    (h : ValueAt s document rest) (hs : skipBlanks s = b :: tail)
    (hb : ¬(b = byte '[' ∨ b = byte '{')) : readScalar b tail = .ok (document, rest) := by
  cases h with
  | scalar hs' hb' h =>
    cases hs.symm.trans hs'
    exact h
  | list hs' h => exact absurd (Or.inl (List.cons.inj (hs.symm.trans hs')).1) hb
  | object hs' h => exact absurd (Or.inr (List.cons.inj (hs.symm.trans hs')).1) hb

/-- What begins with a bracket is a list. -/
theorem ValueAt.list_of {s tail rest : List UInt8} {document : Json} (h : ValueAt s document rest)
    (hs : skipBlanks s = byte '[' :: tail) :
    ∃ items, document = .list items ∧ ItemsAt true tail items rest := by
  have hbracket : byte '[' ≠ byte '{' := by decide
  cases h with
  | scalar hs' hb h => exact absurd (Or.inl (List.cons.inj (hs'.symm.trans hs)).1) hb
  | list hs' h =>
    cases hs.symm.trans hs'
    exact ⟨_, rfl, h⟩
  | object hs' h => exact absurd (List.cons.inj (hs.symm.trans hs')).1 hbracket

/-- What begins with a brace is an object. -/
theorem ValueAt.object_of {s tail rest : List UInt8} {document : Json}
    (h : ValueAt s document rest) (hs : skipBlanks s = byte '{' :: tail) :
    ∃ members, document = .object (OrderedMap.ofList members).entries ∧
      MembersAt true tail members rest := by
  have hbracket : byte '{' ≠ byte '[' := by decide
  cases h with
  | scalar hs' hb h => exact absurd (Or.inr (List.cons.inj (hs'.symm.trans hs)).1) hb
  | list hs' h => exact absurd (List.cons.inj (hs.symm.trans hs')).1 hbracket
  | object hs' h =>
    cases hs.symm.trans hs'
    exact ⟨_, rfl, h⟩

/-! ## What is read stands in the text -/

/-- What the readers of values, lists and objects read in so many steps stands in the text. -/
structure Sound (fuel : Nat) : Prop where
  value {levels : Nat} {s rest : List UInt8} {document : Json}
    (h : readValueIn fuel levels s = .ok (document, rest)) : ValueAt s document rest
  items {levels : Nat} {first : Bool} {s rest : List UInt8} {items : List Json}
    (h : readItemsIn fuel levels first s = .ok (items, rest)) : ItemsAt first s items rest
  members {levels : Nat} {first : Bool} {before members : OrderedMap String Json}
    {s rest : List UInt8} (h : readMembersIn fuel levels first before s = .ok (members, rest)) :
    ∃ more, MembersAt first s more rest ∧ members = more.foldl (fun m e => m.put e.1 e.2) before

theorem Sound.value_succ {fuel : Nat} (hsound : Sound fuel) {levels : Nat} {s rest : List UInt8}
    {document : Json} (h : readValueIn (fuel + 1) levels s = .ok (document, rest)) :
    ValueAt s document rest := by
  unfold readValueIn at h
  cases hs : skipBlanks s with
  | nil => simp [hs] at h
  | cons b tail =>
    simp only [hs] at h
    by_cases hb : b = byte '[' ∨ b = byte '{'
    · rw [if_pos hb] at h
      cases levels with
      | zero => cases h
      | succ levels =>
        by_cases hlist : b = byte '['
        · subst hlist
          simp only [if_true] at h
          obtain ⟨⟨items, after⟩, hread, hpair⟩ := eq_of_map_eq_ok h
          cases hpair
          exact .list hs (hsound.items hread)
        · obtain rfl := hb.resolve_left hlist
          simp only [if_neg hlist] at h
          obtain ⟨⟨members, after⟩, hread, hpair⟩ := eq_of_map_eq_ok h
          obtain ⟨more, hmore, rfl⟩ := hsound.members hread
          cases hpair
          exact .object hs hmore
    · rw [if_neg hb] at h
      exact .scalar hs hb h

theorem Sound.items_succ {fuel : Nat} (hsound : Sound fuel) {levels : Nat} {first : Bool}
    {s rest : List UInt8} {items : List Json}
    (h : readItemsIn (fuel + 1) levels first s = .ok (items, rest)) :
    ItemsAt first s items rest := by
  unfold readItemsIn at h
  split at h
  · cases h
  · rename_i hnext
    cases h
    exact .nil hnext
  · rename_i hnext
    split at h
    · cases h
    · rename_i hitem
      obtain ⟨⟨others, after⟩, hread, hpair⟩ := eq_of_map_eq_ok h
      cases hpair
      exact .cons hnext (hsound.value hitem) (hsound.items hread)

theorem Sound.members_succ {fuel : Nat} (hsound : Sound fuel) {levels : Nat} {first : Bool}
    {before members : OrderedMap String Json} {s rest : List UInt8}
    (h : readMembersIn (fuel + 1) levels first before s = .ok (members, rest)) :
    ∃ more, MembersAt first s more rest ∧
      members = more.foldl (fun m e => m.put e.1 e.2) before := by
  unfold readMembersIn at h
  split at h
  · cases h
  · rename_i hnext
    cases h
    exact ⟨[], .nil hnext, rfl⟩
  · rename_i hnext
    split at h
    · cases h
    · rename_i hcolon
      split at h
      · cases h
      · rename_i hvalue
        obtain ⟨more, hmore, rfl⟩ := hsound.members h
        exact ⟨_ :: more, .cons hnext hcolon (hsound.value hvalue) hmore, rfl⟩

theorem sound (fuel : Nat) : Sound fuel := by
  induction fuel with
  | zero =>
    refine ⟨fun h => ?_, fun h => ?_, fun h => ?_⟩
    · simp [readValueIn] at h
    · simp [readItemsIn] at h
    · simp [readMembersIn] at h
  | succ fuel ih => exact ⟨ih.value_succ, ih.items_succ, ih.members_succ⟩

/-- What a value is read from stands at the beginning of the text. -/
theorem valueAt_of_read {levels : Nat} {s rest : List UInt8} {document : Json}
    (h : readValue levels s = .ok (document, rest)) : ValueAt s document rest :=
  (sound _).value h

end Vitals.Json
