import Vitals.Proofs.Json.Record

/-!
# Records out of documents

A record is taken out of the members of an object in whatever order they stand. What becomes of a
field depends on the documents under its name alone (`Field.Gives`) : without one it is what is
assumed then, a single one has to be a value of the field, and two are refused. So the record is
told by its fields one by one (`Fields.ofMembers_eq_ok_iff`), members of other names change
nothing (`Fields.ofMembers_filter`), and it makes no difference if only the last of the members of a
name is kept (`Fields.ofMembers_ofList`). Out of a list a record takes one item after the other for
its fields (`Fields.ofItems_eq_ok_iff`).
-/

set_option linter.unusedSectionVars false

namespace Vitals.Json

/-! ## Members of a name -/

/-- The documents under a name among members. -/
def named (name : String) (members : List (String × Json)) : List Json :=
  (members.filter fun member => member.1 = name).map Prod.snd

@[simp] theorem named_nil (name : String) : named name [] = [] := rfl

@[simp] theorem named_cons_self (name : String) (document : Json)
    (members : List (String × Json)) :
    named name ((name, document) :: members) = document :: named name members := by
  simp [named]

@[simp] theorem named_cons_of_ne {name other : String} (h : other ≠ name) (document : Json)
    (members : List (String × Json)) :
    named name ((other, document) :: members) = named name members := by
  simp [named, h]

theorem mem_named {name : String} {document : Json} {members : List (String × Json)} :
    document ∈ named name members ↔ (name, document) ∈ members := by
  simp [named]

/-- A map has at most one document under a name. -/
theorem named_entries (m : OrderedMap String Json) (name : String) :
    named name m.entries = (m.get? name).toList := by
  obtain ⟨entries, ascending⟩ := m
  simp only [OrderedMap.get?]
  induction entries with
  | nil => rfl
  | cons entry rest ih =>
    obtain ⟨key, document⟩ := entry
    obtain ⟨head, tail⟩ := List.pairwise_cons.1 ascending
    by_cases hkey : key = name
    · subst hkey
      have hrest : named key rest = [] := by
        refine List.eq_nil_iff_forall_not_mem.2 fun other hother => ?_
        exact OrderedMap.fst_ne_of_lt (head _ (mem_named.1 hother)) rfl
      simp [hrest]
    · rw [named_cons_of_ne hkey, ih tail, List.find?_cons_of_neg (by simpa using hkey)]

/-- Of several members of one name a map keeps the last. -/
theorem get?_foldl_put (members : List (String × Json)) (m : OrderedMap String Json)
    (name : String) :
    (members.foldl (fun m e => m.put e.1 e.2) m).get? name =
      (named name members).getLast?.or (m.get? name) := by
  induction members generalizing m with
  | nil => simp
  | cons member members ih =>
    obtain ⟨key, document⟩ := member
    rw [List.foldl_cons, ih, OrderedMap.get?_put]
    by_cases hkey : key = name
    · subst hkey
      simp [List.getLast?_cons]
    · rw [if_neg (Ne.symm hkey), named_cons_of_ne hkey]

theorem named_ofList (members : List (String × Json)) (name : String) :
    named name (OrderedMap.ofList members).entries = (named name members).getLast?.toList := by
  rw [named_entries, OrderedMap.ofList, get?_foldl_put, OrderedMap.get?_empty, Option.or_none]

/-! ## What a field is -/

namespace Field

variable {α : Type}

/-- What a field is where a record has some documents for it. -/
def Gives (field : Field α) : List Json → α → Prop
  | [], x => field.absent = some x
  | [document], x => field.codec.ofJson document = .ok x
  | _ :: _ :: _, _ => False

/-- What a field is once some documents for it have been taken into account. -/
def Fills (field : Field α) (slot : Option α) : List Json → Option α → Prop
  | [], filled => filled = slot
  | document :: documents, filled =>
    slot = none ∧ ∃ x, field.codec.ofJson document = .ok x ∧ field.Fills (some x) documents filled

theorem gives_iff {field : Field α} {documents : List Json} {x : α} :
    field.Gives documents x ↔
      ∃ slot, field.Fills none documents slot ∧ (slot <|> field.absent) = some x := by
  match documents with
  | [] => simp [Gives, Fills]
  | [document] => simp [Gives, Fills]
  | _ :: _ :: _ => simp [Gives, Fills]

/-- Only one document can be given, which is the last. -/
theorem Gives.last {field : Field α} {documents : List Json} {x : α}
    (h : field.Gives documents x) : documents.getLast?.toList = documents := by
  match documents with
  | [] => rfl
  | [_] => rfl
  | _ :: _ :: _ => exact h.elim

end Field

/-! ## What a record is -/

namespace Fields

variable {α τ δ : Type}

/-- What a record is that has the documents of each name. -/
def Gives {τ δ : Type} (documents : String → List Json) : Fields τ δ → τ → Prop
  | nil, () => True
  | cons field others, (x, values) =>
    field.Gives (documents field.name) x ∧ others.Gives documents values

/-- The record once some members have been taken into account, one after another. -/
def draftOf (fields : Fields τ δ) : δ → List (String × Json) → Except ShapeFault δ
  | draft, [] => .ok draft
  | draft, (name, document) :: members =>
    (fields.ofMember name document draft).bind fun draft => fields.draftOf draft members

theorem ofMembers_eq (fields : Fields τ δ) (members : List (String × Json)) :
    fields.ofMembers members = (fields.draftOf fields.blank members).bind fields.finish := by
  have hfold (draft : δ) : members.foldlM
      (fun draft member => fields.ofMember member.1 member.2 draft) draft =
        fields.draftOf draft members := by
    induction members generalizing draft with
    | nil => rfl
    | cons member members ih =>
      rw [List.foldlM_cons, draftOf]
      exact congrArg _ (funext ih)
  exact congrArg (Except.bind · fields.finish) (hfold fields.blank)

/-- Members that are no field are passed over. -/
theorem ofMember_of_notMem {fields : Fields τ δ} {name : String} (h : name ∉ fields.names)
    (document : Json) (draft : δ) : fields.ofMember name document draft = .ok draft := by
  induction fields with
  | nil => rfl
  | cons field others ih =>
    obtain ⟨hfield, hothers⟩ := not_or.1 (mt List.mem_cons.2 h)
    obtain ⟨slot, draft⟩ := draft
    rw [ofMember, if_neg hfield, ih hothers]
    rfl

/-- A field takes the members of its name, and the others take theirs. -/
theorem draftOf_cons_iff {field : Field α} {others : Fields τ δ}
    (hname : field.name ∉ others.names) {slot filled : Option α} {draft filledDraft : δ}
    {members : List (String × Json)} :
    (cons field others).draftOf (slot, draft) members = .ok (filled, filledDraft) ↔
      field.Fills slot (named field.name members) filled ∧
        others.draftOf draft members = .ok filledDraft := by
  induction members generalizing slot draft with
  | nil => simp [draftOf, Field.Fills, eq_comm]
  | cons member members ih =>
    obtain ⟨name, document⟩ := member
    by_cases hfield : name = field.name
    · subst hfield
      rw [draftOf, draftOf, ofMember, if_pos rfl, ofMember_of_notMem hname, named_cons_self]
      cases slot with
      | some x => simp [Field.Fills, Except.bind]
      | none =>
        cases hread : field.codec.ofJson document with
        | error fault => simp [Field.Fills, Except.bind, Except.map, hread]
        | ok x => simp [Field.Fills, Except.bind, Except.map, hread, ih]
    · rw [draftOf, draftOf, ofMember, if_neg hfield, named_cons_of_ne hfield]
      cases hread : others.ofMember name document draft with
      | error fault => simp [Except.bind, Except.map]
      | ok next => simp [Except.bind, Except.map, ih]

theorem finish_cons_iff {field : Field α} {others : Fields τ δ} {slot : Option α} {draft : δ}
    {x : α} {values : τ} :
    (cons field others).finish (slot, draft) = .ok (x, values) ↔
      (slot <|> field.absent) = some x ∧ others.finish draft = .ok values := by
  rw [finish]
  cases slot <|> field.absent with
  | none => simp
  | some y => cases others.finish draft <;> simp [Except.map]

/-- The record out of some members is told by the documents under the name of each field. -/
theorem ofMembers_eq_ok_iff {fields : Fields τ δ} (h : fields.names.Nodup)
    {members : List (String × Json)} {values : τ} :
    fields.ofMembers members = .ok values ↔
      fields.Gives (fun name => named name members) values := by
  have hbind : fields.ofMembers members = .ok values ↔
      ∃ draft, fields.draftOf fields.blank members = .ok draft ∧
        fields.finish draft = .ok values := by
    rw [ofMembers_eq]
    cases fields.draftOf fields.blank members <;> simp [Except.bind]
  rw [hbind]
  clear hbind
  induction fields with
  | nil =>
    have hnil (draft : Unit) : nil.draftOf draft members = .ok () := by
      induction members with
      | nil => rfl
      | cons member members ih => exact ih
    simp [hnil, finish, Gives]
  | cons field others ih =>
    obtain ⟨hname, hothers⟩ := List.nodup_cons.1 h
    obtain ⟨x, values⟩ := values
    have hrest : _ ↔ others.Gives (fun name => named name members) values := ih hothers
    rw [Gives, Field.gives_iff, ← hrest]
    constructor
    · rintro ⟨⟨slot, draft⟩, hdraft, hfinish⟩
      obtain ⟨hslot, hdraft⟩ := (draftOf_cons_iff hname).1 hdraft
      obtain ⟨hx, hfinish⟩ := finish_cons_iff.1 hfinish
      exact ⟨⟨slot, hslot, hx⟩, draft, hdraft, hfinish⟩
    · rintro ⟨⟨slot, hslot, hx⟩, draft, hdraft, hfinish⟩
      exact ⟨(slot, draft), (draftOf_cons_iff hname).2 ⟨hslot, hdraft⟩,
        finish_cons_iff.2 ⟨hx, hfinish⟩⟩

/-- Members of other names than the fields have change nothing. -/
theorem Gives.congr {documents documents' : String → List Json} {fields : Fields τ δ} {values : τ}
    (h : ∀ name ∈ fields.names, documents name = documents' name)
    (hgives : fields.Gives documents values) : fields.Gives documents' values := by
  induction fields with
  | nil => trivial
  | cons field others ih =>
    obtain ⟨x, values⟩ := values
    obtain ⟨hx, hvalues⟩ := hgives
    refine ⟨?_, ih (fun name hmem => h name (List.mem_cons_of_mem _ hmem)) hvalues⟩
    rwa [← h field.name List.mem_cons_self]

/-- Where a record is given, each of its fields has one document at most. -/
theorem Gives.last {documents : String → List Json} {fields : Fields τ δ} {values : τ}
    (hgives : fields.Gives documents values) :
    ∀ name ∈ fields.names, (documents name).getLast?.toList = documents name := by
  induction fields with
  | nil => simp [names]
  | cons field others ih =>
    obtain ⟨x, values⟩ := values
    obtain ⟨hx, hvalues⟩ := hgives
    intro name hmem
    rcases List.mem_cons.1 hmem with rfl | hmem
    · exact hx.last
    · exact ih hvalues name hmem

/-- A record is the same out of the members in the order in which they are written as out of the
map of them. -/
theorem ofMembers_ofList {fields : Fields τ δ} (h : fields.names.Nodup)
    {members : List (String × Json)} {values : τ}
    (hvalues : fields.ofMembers members = .ok values) :
    fields.ofMembers (OrderedMap.ofList members).entries = .ok values := by
  have hgives := (ofMembers_eq_ok_iff h).1 hvalues
  refine (ofMembers_eq_ok_iff h).2 (hgives.congr fun name hname => ?_)
  rw [named_ofList, hgives.last name hname]

/-- Members of other names than the fields have change nothing, not even the fault. -/
theorem ofMembers_filter (fields : Fields τ δ) (members : List (String × Json)) :
    fields.ofMembers (members.filter (·.1 ∈ fields.names)) = fields.ofMembers members := by
  rw [ofMembers_eq, ofMembers_eq]
  generalize fields.blank = draft
  congr 1
  induction members generalizing draft with
  | nil => rfl
  | cons member members ih =>
    obtain ⟨name, document⟩ := member
    by_cases hname : name ∈ fields.names
    · rw [List.filter_cons_of_pos (by simpa using hname), draftOf, draftOf]
      exact congrArg _ (funext ih)
    · rw [List.filter_cons_of_neg (by simpa using hname), draftOf, ofMember_of_notMem hname]
      exact ih draft

/-! ## Out of a list -/

/-- What a record is that has the documents of a list for its fields, in their order. -/
def GivesItems {τ δ : Type} : Fields τ δ → List Json → τ → Prop
  | nil, items, () => items = []
  | cons field others, items, (x, values) =>
    field.Gives items.head?.toList x ∧ others.GivesItems items.tail values

theorem absentFrom_eq_ok_iff {fields : Fields τ δ} {expected : String} (index : Nat) {values : τ} :
    fields.absentFrom expected index = .ok values ↔ fields.GivesItems [] values := by
  induction fields generalizing index with
  | nil => simp [absentFrom, GivesItems]
  | cons field others ih =>
    obtain ⟨x, values⟩ := values
    have hrest : _ ↔ others.GivesItems [] values := ih (index + 1)
    rw [absentFrom, GivesItems, List.tail_nil, ← hrest]
    cases habsent : field.absent with
    | none => simp [Field.Gives, habsent]
    | some y =>
      cases others.absentFrom expected (index + 1) <;> simp [Field.Gives, Except.map, habsent]

/-- A record takes one item after the other for its fields, and none may be left over. -/
theorem ofItems_eq_ok_iff {fields : Fields τ δ} {expected : String} (index : Nat)
    {items : List Json} {values : τ} :
    fields.ofItems expected index items = .ok (values, []) ↔ fields.GivesItems items values := by
  induction fields generalizing index items with
  | nil => simp [ofItems, GivesItems]
  | cons field others ih =>
    obtain ⟨x, values⟩ := values
    cases items with
    | nil =>
      have habsent : (cons field others).absentFrom expected index = .ok (x, values) ↔ _ :=
        absentFrom_eq_ok_iff index
      rw [ofItems, ← habsent]
      cases (cons field others).absentFrom expected index <;> simp [Except.map]
    | cons item items =>
      have hrest : _ ↔ others.GivesItems items values := ih (index + 1)
      rw [ofItems, GivesItems, List.head?_cons, List.tail_cons, ← hrest]
      cases hread : field.codec.ofJson item with
      | error fault => simp [Field.Gives, hread]
      | ok y =>
        cases others.ofItems expected (index + 1) items <;>
          simp [Field.Gives, Except.map, hread, Prod.ext_iff, and_assoc]

end Fields

/-! ## A record in a document -/

namespace Codec

variable {α τ δ : Type} {title : String} {fields : Fields τ δ} {ofFields : τ → α}
  {toFields : α → τ} {x : α}

theorem record_ofJson_object_iff (h : fields.names.Nodup) (hof : ∀ x, ofFields (toFields x) = x)
    (hto : ∀ values, toFields (ofFields values) = values) {members : List (String × Json)} :
    (record title fields ofFields toFields).ofJson (.object members) = .ok x ↔
      fields.Gives (fun name => named name members) (toFields x) := by
  rw [← Fields.ofMembers_eq_ok_iff h]
  simp only [record]
  cases fields.ofMembers members with
  | error fault => simp [Except.map]
  | ok values =>
    simp only [Except.map, Except.ok.injEq]
    exact ⟨fun hx => hx ▸ (hto values).symm, fun hvalues => hvalues ▸ hof x⟩

theorem record_ofJson_list_iff (hof : ∀ x, ofFields (toFields x) = x)
    (hto : ∀ values, toFields (ofFields values) = values) {items : List Json} :
    (record title fields ofFields toFields).ofJson (.list items) = .ok x ↔
      fields.GivesItems items (toFields x) := by
  have hgives : fields.GivesItems items (toFields x) ↔
      fields.ofItems (describe title fields.count) 0 items = .ok (toFields x, []) :=
    (Fields.ofItems_eq_ok_iff 0).symm
  rw [hgives]
  simp only [record]
  rcases fields.ofItems (describe title fields.count) 0 items with fault | ⟨values, _ | ⟨_, _⟩⟩
  · simp
  · simp only [Except.ok.injEq, Prod.mk.injEq, and_true]
    exact ⟨fun hx => hx ▸ (hto values).symm, fun hvalues => hvalues ▸ hof x⟩
  · simp

end Codec

end Vitals.Json
