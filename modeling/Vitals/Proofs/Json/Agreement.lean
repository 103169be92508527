import Vitals.Proofs.Json.Member
import Vitals.Proofs.Json.Skip

/-!
# Reading at once and reading a document first

A value can be read from a text at once, or a document is read there first and the value taken out
of it. A codec agrees with itself if the second way gives what the first gives (`Codec.Agrees`).
Scalars agree, since both ways read them alike (`agrees_scalar`), and so do values that may be
lacking, lists and maps of what agrees. Of a record the first way reads the members as they come
and passes over those that are no field, while the second finds them in the order of their names,
the last one of each (`agrees_record`).
-/

set_option linter.unusedSectionVars false

namespace Vitals.Json

/-! ## Whole texts -/

/-- What is read of a whole text is read of its beginning. -/
theorem exists_rest_of_readWhole {α : Type} {read : List UInt8 → Read α} {s : List UInt8} {x : α}
    (h : readWhole read s = .ok x) : ∃ rest, read s = .ok (x, rest) := by
  unfold readWhole at h
  cases hread : read s with
  | error fault => simp [hread] at h
  | ok result =>
    obtain ⟨y, rest⟩ := result
    cases hrest : skipBlanks rest with
    | nil =>
      simp only [hread, hrest] at h
      exact ⟨rest, by rw [Except.ok.inj h]⟩
    | cons b after => simp [hread, hrest] at h

namespace Codec

variable {α τ δ : Type} {codec : Codec α}

/-- What is read from a text is what the document is that stands there, and both end at the same
place. -/
def Agrees (codec : Codec α) : Prop :=
  ∀ ⦃s rest last : List UInt8⦄ ⦃document : Json⦄ ⦃x : α⦄, codec.read s = .ok (x, rest) →
    ValueAt s document last → last = rest ∧ codec.ofJson document = .ok x

/-- What is read from a whole text is what the document of the text is. -/
theorem Agrees.ofJson_eq (h : codec.Agrees) {s : List UInt8} {document : Json} {x : α}
    (hdocument : Json.parse s = .ok document) (hx : codec.parse s = .ok x) :
    codec.ofJson document = .ok x := by
  obtain ⟨last, hdocument⟩ := exists_rest_of_readWhole hdocument
  obtain ⟨rest, hx⟩ := exists_rest_of_readWhole hx
  exact (h hx (valueAt_of_read hdocument)).2

/-! ## Scalars -/

/-- A reader of scalars agrees with the document, which is read by the same reader of scalars. -/
theorem agrees_scalar (expected : String) (ofScalar : Json → Except ShapeFault α)
    (toJson : α → Json) : (scalar expected ofScalar toJson).Agrees := by
  intro s rest last document x hread h
  simp only [scalar] at hread ⊢
  cases hs : skipBlanks s with
  | nil => simp [hs] at hread
  | cons b tail =>
    simp only [hs] at hread
    by_cases hb : b = byte '[' ∨ b = byte '{'
    · simp [hb] at hread
    · simp only [if_neg hb, h.scalar_of hs hb] at hread
      cases hvalue : ofScalar document with
      | error fault => simp [hvalue] at hread
      | ok y =>
        simp only [hvalue, Except.ok.injEq, Prod.mk.injEq] at hread
        exact ⟨hread.2, by rw [hread.1]⟩

theorem agrees_string : string.Agrees := agrees_scalar _ _ _

theorem agrees_bool : bool.Agrees := agrees_scalar _ _ _

theorem agrees_uint64 : uint64.Agrees := agrees_scalar _ _ _

theorem agrees_int64 : int64.Agrees := agrees_scalar _ _ _

/-! ## Values that may be lacking -/

/-- The word for none has to be no value by itself. -/
theorem agrees_option (h : codec.Agrees) (hnull : ∀ x, codec.ofJson .null ≠ .ok x) :
    (option codec).Agrees := by
  intro s rest last document x hread hdocument
  simp only [option] at hread
  cases hs : skipBlanks s with
  | nil => simp [hs] at hread
  | cons b tail =>
    simp only [hs] at hread
    by_cases hb : b = byte 'n'
    · subst hb
      rw [if_pos rfl] at hread
      have hword := hdocument.scalar_of hs (by decide)
      rw [readScalar, if_pos rfl] at hword
      obtain ⟨after, hafter, hpair⟩ := eq_of_map_eq_ok hword
      rw [hafter] at hread
      cases hpair
      cases hread
      exact ⟨rfl, rfl⟩
    · rw [if_neg hb] at hread
      obtain ⟨⟨y, after⟩, hy, hpair⟩ := eq_of_map_eq_ok hread
      cases hpair
      have hblanks := hdocument.after_blanks
      rw [hs] at hblanks
      obtain ⟨hlast, hvalue⟩ := h hy hblanks
      refine ⟨hlast, ?_⟩
      cases document with
      | null => exact absurd hvalue (hnull y)
      | _ => exact congrArg (Except.map some) hvalue

/-! ## Lists -/

theorem Agrees.items (h : codec.Agrees) {fuel : Nat} {first : Bool} {s rest last : List UInt8}
    {items : List Json} {xs : List α} (hread : codec.readItems fuel first s = .ok (xs, rest))
    (hitems : ItemsAt first s items last) :
    last = rest ∧ items.mapM codec.ofJson = .ok xs := by
  induction fuel generalizing first s items xs with
  | zero => cases hread
  | succ fuel ih =>
    rw [readItems] at hread
    cases hitems with
    | nil hnext =>
      simp only [hnext, Except.ok.injEq, Prod.mk.injEq] at hread
      obtain ⟨rfl, rfl⟩ := hread
      exact ⟨rfl, rfl⟩
    | cons hnext hitem hitems =>
      simp only [hnext] at hread
      split at hread
      · cases hread
      · rename_i hx
        obtain ⟨rfl, hvalue⟩ := h hx hitem
        obtain ⟨⟨ys, after⟩, hys, hpair⟩ := eq_of_map_eq_ok hread
        cases hpair
        obtain ⟨hlast, hvalues⟩ := ih hys hitems
        refine ⟨hlast, ?_⟩
        rw [List.mapM_cons, hvalue, hvalues]
        rfl

theorem agrees_list (h : codec.Agrees) : (list codec).Agrees := by
  intro s rest last document xs hread hdocument
  simp only [list] at hread
  cases hs : skipBlanks s with
  | nil => simp [hs] at hread
  | cons b tail =>
    simp only [hs] at hread
    by_cases hb : b = byte '['
    · subst hb
      obtain ⟨items, rfl, hitems⟩ := hdocument.list_of hs
      rw [if_pos rfl] at hread
      exact h.items hread hitems
    · simp [hb] at hread

/-! ## Maps -/

/-- The documents of some members are the values of some entries, under the same keys. -/
def Decodes (codec : Codec α) (members : List (String × Json)) (entries : List (String × α)) :
    Prop :=
  List.Forall₂ (fun member entry =>
    member.1 = entry.1 ∧ codec.ofJson member.2 = .ok entry.2) members entries

/-- Members and entries that are put under one key stay in step. -/
theorem Decodes.putEntry {members : List (String × Json)} {entries : List (String × α)}
    (h : codec.Decodes members entries) (name : String) {document : Json} {x : α}
    (hx : codec.ofJson document = .ok x) :
    codec.Decodes (OrderedMap.putEntry name document members)
      (OrderedMap.putEntry name x entries) := by
  induction h with
  | nil => exact .cons ⟨rfl, hx⟩ .nil
  | cons hentry hrest ih =>
    rw [OrderedMap.putEntry, OrderedMap.putEntry, hentry.1]
    split_ifs
    · exact .cons ⟨rfl, hx⟩ (.cons hentry hrest)
    · exact .cons hentry ih
    · exact .cons ⟨rfl, hx⟩ hrest

/-- Members of a document are decoded one after another into the map of the entries. -/
theorem Decodes.foldlM {members : List (String × Json)} {entries : List (String × α)}
    (h : codec.Decodes members entries) (before : OrderedMap String α) :
    members.foldlM (fun before (name, document) =>
      (codec.ofJson document).map (before.put name ·)) before =
        .ok (entries.foldl (fun m e => m.put e.1 e.2) before) := by
  induction h generalizing before with
  | nil => rfl
  | @cons member entry _ _ hentry _ ih =>
    obtain ⟨name, document⟩ := member
    obtain ⟨hname, hvalue⟩ := hentry
    rw [List.foldlM_cons, List.foldl_cons, ← ih, ← hname]
    simp only [hvalue]
    rfl

/-- The entries that are read are those that the members decode to, the last one of each key. -/
theorem Agrees.entries (h : codec.Agrees) {fuel : Nat} {first : Bool} {s rest last : List UInt8}
    {members : List (String × Json)} {documents : OrderedMap String Json}
    {before values : OrderedMap String α} (hbefore : codec.Decodes documents.entries before.entries)
    (hread : codec.readEntries fuel first before s = .ok (values, rest))
    (hmembers : MembersAt first s members last) :
    last = rest ∧ codec.Decodes (members.foldl (fun m e => m.put e.1 e.2) documents).entries
      values.entries := by
  induction fuel generalizing first s members documents before with
  | zero => cases hread
  | succ fuel ih =>
    rw [readEntries] at hread
    cases hmembers with
    | nil hnext =>
      simp only [hnext, Except.ok.injEq, Prod.mk.injEq] at hread
      obtain ⟨rfl, rfl⟩ := hread
      exact ⟨rfl, hbefore⟩
    | @cons _ _ _ _ _ _ name document _ hnext hcolon hvalue hmembers =>
      simp only [hnext, hcolon] at hread
      split at hread
      · cases hread
      · rename_i x after hx
        obtain ⟨rfl, hdocument⟩ := h hx hvalue
        have hput : codec.Decodes (documents.put name document).entries
          (before.put name x).entries := hbefore.putEntry name hdocument
        rw [List.foldl_cons]
        exact ih hput hread hmembers

theorem agrees_map (h : codec.Agrees) : (map codec).Agrees := by
  intro s rest last document values hread hdocument
  simp only [map] at hread
  cases hs : skipBlanks s with
  | nil => simp [hs] at hread
  | cons b tail =>
    simp only [hs] at hread
    by_cases hb : b = byte '{'
    · subst hb
      obtain ⟨members, rfl, hmembers⟩ := hdocument.object_of hs
      rw [if_pos rfl] at hread
      have hempty : codec.Decodes OrderedMap.empty.entries OrderedMap.empty.entries := .nil
      obtain ⟨hlast, hdecodes⟩ := h.entries hempty hread hmembers
      refine ⟨hlast, (hdecodes.foldlM .empty).trans ?_⟩
      exact congrArg Except.ok (OrderedMap.ofList_entries values)
    · simp [hb] at hread

end Codec

/-! ## Records -/

namespace Fields

variable {α τ δ : Type}

/-- The codec of every field agrees. -/
def Agrees {τ δ : Type} : Fields τ δ → Prop
  | nil => True
  | cons field others => field.codec.Agrees ∧ others.Agrees

/-- The value of a member is read as it is taken out of its document, and what belongs to no field
is passed over to the same place. -/
theorem Agrees.member {fields : Fields τ δ} (h : fields.Agrees) {name : String} {draft next : δ}
    {s t rest last : List UInt8} {document : Json}
    (hread : fields.readMember name draft s = .ok (next, rest)) (hcolon : skipColon s = .ok t)
    (hdocument : ValueAt t document last) :
    last = rest ∧ fields.ofMember name document draft = .ok next := by
  induction fields with
  | nil =>
    simp only [readMember, hcolon] at hread
    obtain ⟨after, hskip, hpair⟩ := eq_of_map_eq_ok hread
    cases hpair
    exact ⟨(hdocument.skipValue_eq hskip).symm, rfl⟩
  | cons field others ih =>
    obtain ⟨slot, draft⟩ := draft
    obtain ⟨hfield, hothers⟩ := h
    rw [readMember] at hread
    rw [ofMember]
    split_ifs at hread ⊢
    · simp only [hcolon] at hread
      obtain ⟨⟨x, after⟩, hx, hpair⟩ := eq_of_map_eq_ok hread
      cases hpair
      obtain ⟨hlast, hvalue⟩ := hfield hx hdocument
      exact ⟨hlast, by rw [hvalue]; rfl⟩
    · obtain ⟨⟨filled, after⟩, hfilled, hpair⟩ := eq_of_map_eq_ok hread
      cases hpair
      obtain ⟨hlast, hmember⟩ := ih hothers hfilled
      exact ⟨hlast, by rw [hmember]; rfl⟩

/-- The fields that are read are those that the members of the document fill in. -/
theorem Agrees.members {fields : Fields τ δ} (h : fields.Agrees) {fuel : Nat} {first : Bool}
    {draft filled : δ} {s rest last : List UInt8} {members : List (String × Json)}
    (hread : fields.readMembers fuel first draft s = .ok (filled, rest))
    (hmembers : MembersAt first s members last) :
    last = rest ∧ fields.draftOf draft members = .ok filled := by
  induction fuel generalizing first draft s members with
  | zero => cases hread
  | succ fuel ih =>
    rw [readMembers] at hread
    cases hmembers with
    | nil hnext =>
      simp only [hnext, Except.ok.injEq, Prod.mk.injEq] at hread
      obtain ⟨rfl, rfl⟩ := hread
      exact ⟨rfl, rfl⟩
    | cons hnext hcolon hvalue hmembers =>
      simp only [hnext] at hread
      split at hread
      · cases hread
      · rename_i hmember
        obtain ⟨rfl, hnextDraft⟩ := h.member hmember hcolon hvalue
        obtain ⟨hlast, hdraft⟩ := ih hread hmembers
        exact ⟨hlast, by rw [draftOf, hnextDraft]; exact hdraft⟩

theorem endItems_eq_ok {s rest : List UInt8} (h : endItems s = .ok rest) :
    skipBlanks s = byte ']' :: rest := by
  unfold endItems at h
  cases hs : skipBlanks s with
  | nil => simp [hs] at h
  | cons b tail =>
    simp only [hs] at h
    split_ifs at h with hclose
    rw [hclose, Except.ok.inj h]

theorem nextItem_of_close {first : Bool} {s rest : List UInt8}
    (hs : skipBlanks s = byte ']' :: rest) : nextItem first s = .ok (none, rest) := by
  simp [nextItem, hs]

/-- The items are read as they are taken out of their documents; where the fields end before the
list does, the end of the list follows. -/
theorem Agrees.items {fields : Fields τ δ} (h : fields.Agrees) {expected : String} {index : Nat}
    {values : τ} {ended : Bool} {s t rest last : List UInt8} {items : List Json}
    (hread : fields.readItems expected index s = .ok ((values, ended), t))
    (hrest : (if ended then .ok t else endItems t) = .ok rest)
    (hitems : ItemsAt (index == 0) s items last) :
    last = rest ∧ fields.ofItems expected index items = .ok (values, []) := by
  induction fields generalizing index ended s items with
  | nil =>
    cases hread
    have hend := @nextItem_of_close (index == 0) _ _ (endItems_eq_ok hrest)
    cases hitems with
    | nil hnext =>
      cases hend.symm.trans hnext
      exact ⟨rfl, rfl⟩
    | cons hnext => cases hend.symm.trans hnext
  | cons field others ih =>
    obtain ⟨hfield, hothers⟩ := h
    rw [readItems] at hread
    cases hitems with
    | nil hnext =>
      simp only [hnext] at hread
      split at hread
      · cases hread
      · rename_i hvalues
        cases hread
        cases hrest
        exact ⟨rfl, by rw [ofItems, hvalues]; rfl⟩
    | cons hnext hitem hitems =>
      simp only [hnext] at hread
      split at hread
      · cases hread
      · rename_i hx
        obtain ⟨rfl, hvalue⟩ := hfield hx hitem
        obtain ⟨⟨⟨others', ended'⟩, after⟩, hothers', hpair⟩ := eq_of_map_eq_ok hread
        cases hpair
        obtain ⟨hlast, hvalues⟩ := ih hothers hothers' hrest hitems
        exact ⟨hlast, by rw [ofItems, hvalue, hvalues]; rfl⟩

end Fields

/-- A record agrees if its fields do and have different names. -/
theorem Codec.agrees_record {α τ δ : Type} (title : String) {fields : Fields τ δ}
    {ofFields : τ → α} {toFields : α → τ} (h : fields.Agrees) (hnames : fields.names.Nodup) :
    (Codec.record title fields ofFields toFields).Agrees := by
  intro s rest last document x hread hdocument
  simp only [record] at hread
  cases hs : skipBlanks s with
  | nil => simp [hs] at hread
  | cons b tail =>
    simp only [hs] at hread
    by_cases hlist : b = byte '['
    · subst hlist
      obtain ⟨items, rfl, hitems⟩ := hdocument.list_of hs
      rw [if_pos rfl] at hread
      split at hread
      · cases hread
      · rename_i hvalues
        cases hread
        obtain ⟨hlast, hitems⟩ := h.items hvalues rfl hitems
        exact ⟨hlast, by simp only [record, hitems]⟩
      · rename_i hvalues
        obtain ⟨after, hend, hpair⟩ := eq_of_map_eq_ok hread
        cases hpair
        obtain ⟨hlast, hitems⟩ := h.items hvalues hend hitems
        exact ⟨hlast, by simp only [record, hitems]⟩
    · by_cases hobject : b = byte '{'
      · subst hobject
        obtain ⟨members, rfl, hmembers⟩ := hdocument.object_of hs
        rw [if_neg hlist, if_pos rfl] at hread
        split at hread
        · cases hread
        · rename_i hdraft
          split at hread
          · rename_i hfinish
            cases hread
            obtain ⟨hlast, hdraft⟩ := h.members hdraft hmembers
            have hvalues := fields.ofMembers_eq members
            rw [hdraft] at hvalues
            have hordered := Fields.ofMembers_ofList hnames (hvalues.trans hfinish)
            exact ⟨hlast, by simp only [record, hordered]; rfl⟩
          · cases hread
      · simp [hlist, hobject] at hread

end Vitals.Json
