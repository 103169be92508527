import Vitals.Json.Record
import Vitals.Proofs.Json.Codec

/-!
# Faithful records

A field is faithful if its values are, and if a value that is left out is the one that the
field has where the record says nothing about it (`Field.Faithful`). The members written for a
record of faithful fields with names of their own (`Fields.Faithful`) are read one after
another, each into its own field (`Fields.Within.readMembers_written`), and what was left out
is filled in at the end (`Fields.finish_draft`) ; the record is then faithful
(`Codec.faithful_record`).
-/

set_option linter.unusedSectionVars false

namespace Vitals.Json

/-- Nothing is lost of a value of the field. -/
structure Field.Faithful {α : Type} (field : Field α) : Prop where
  codec : field.codec.Faithful
  /-- A value that is left out is the one that is assumed then. -/
  hidden (x : α) (h : field.hidden x) : field.absent = some x

namespace Fields

variable {α τ δ τ' δ' : Type}

/-- The names of the fields. -/
def names {τ δ : Type} : Fields τ δ → List String
  | nil => []
  | cons field others => field.name :: others.names

/-- Every field is faithful and has a name of its own. -/
def Faithful {τ δ : Type} : Fields τ δ → Prop
  | nil => True
  | cons field others => field.Faithful ∧ field.name ∉ others.names ∧ others.Faithful

/-- The record once the members written for the values have been read. -/
def draft {τ δ : Type} : Fields τ δ → τ → δ
  | nil, () => ()
  | cons field others, (x, values) =>
    (if field.hidden x then none else some x, others.draft values)

theorem finish_draft {fields : Fields τ δ} (h : fields.Faithful) (values : τ) :
    fields.finish (fields.draft values) = .ok values := by
  induction fields with
  | nil => rfl
  | cons field others ih =>
    obtain ⟨x, values⟩ := values
    obtain ⟨hfield, -, hothers⟩ := h
    have hslot : ((if field.hidden x then none else some x) <|> field.absent) = some x := by
      split
      · exact hfield.hidden x ‹_›
      · rfl
    simp only [draft, finish, hslot, ih hothers]
    rfl

theorem readMember_self {field : Field α} (h : field.codec.Faithful) (others : Fields τ δ)
    (draft : δ) (x : α) {rest : List UInt8} (hrest : Ends rest) :
    (cons field others).readMember field.name (none, draft)
        (byte ':' :: (field.codec.written x ++ rest)) = .ok ((some x, draft), rest) := by
  simp only [readMember, if_true, Option.isSome_none, Bool.false_eq_true, if_false,
    skipColon_colon, h.reads x hrest]
  rfl

/-! ## Some of the fields of a record -/

/-- `fields` are some of the fields of `all`, with the drafts of the other fields fixed :
`embed` takes a draft of `fields` to one of `all`, and reads their members alike. -/
def Within (all : Fields τ' δ') (fields : Fields τ δ) (embed : δ → δ') : Prop :=
  ∀ name ∈ fields.names, ∀ draft s,
    all.readMember name (embed draft) s =
      (fields.readMember name draft s).map fun (draft, rest) => (embed draft, rest)

theorem within_self (fields : Fields τ δ) : fields.Within fields id := by
  intro name _ draft s
  rw [id_eq]
  cases fields.readMember name draft s <;> rfl

/-- Whatever is known of the first field, the others read alike. -/
theorem Within.others {all : Fields τ' δ'} {field : Field α} {others : Fields τ δ}
    {embed : Option α × δ → δ'} (h : all.Within (cons field others) embed)
    (hname : field.name ∉ others.names) (slot : Option α) :
    all.Within others fun draft => embed (slot, draft) := by
  intro name hmem draft s
  have hne : name ≠ field.name := by
    rintro rfl
    exact hname hmem
  rw [h name (List.mem_cons_of_mem _ hmem) (slot, draft) s]
  simp only [readMember, if_neg hne]
  cases others.readMember name draft s <;> rfl

/-- The members written for some of the fields are read into these fields. -/
theorem Within.readMembers_written {all : Fields τ' δ'} {fields : Fields τ δ}
    {embed : δ → δ'} (hall : all.Within fields embed) (h : fields.Faithful) (values : τ)
    {fuel : Nat} (hfuel : (fields.members values).length < fuel) (first : Bool)
    (rest : List UInt8) :
    all.readMembers fuel first (embed fields.blank)
        (separated first ((fields.members values).map memberBytes) ++ byte '}' :: rest) =
      .ok (embed (fields.draft values), rest) := by
  induction fields generalizing fuel first with
  | nil =>
    obtain ⟨fuel, rfl⟩ := Nat.exists_eq_add_one.2 hfuel
    simp only [members, List.map_nil, separated, List.nil_append, readMembers,
      nextMember_close, blank, draft]
  | cons field others ih =>
    obtain ⟨x, values⟩ := values
    obtain ⟨hfield, hname, hothers⟩ := h
    by_cases hhidden : field.hidden x
    · have hmembers : (cons field others).members (x, values) = others.members values := by
        rw [members, if_pos hhidden]
      rw [hmembers] at hfuel ⊢
      rw [draft, if_pos hhidden]
      exact ih (hall.others hname none) hothers values hfuel first
    · have hmembers : (cons field others).members (x, values) =
          (field.name, field.codec.toJson x) :: others.members values := by
        rw [members, if_neg hhidden]
      rw [hmembers] at hfuel ⊢
      obtain ⟨fuel, rfl⟩ := Nat.exists_eq_add_one.2 (Nat.zero_lt_of_lt hfuel)
      have hends := ends_separated ((others.members values).map memberBytes)
        (ends_cons (Or.inr (Or.inr rfl)) rest : Ends (byte '}' :: rest))
      have hmember := (hall field.name List.mem_cons_self (none, others.blank) _).trans
        (congrArg (Except.map _)
          (readMember_self hfield.codec others others.blank x hends))
      rw [List.map_cons, separated, List.append_assoc, List.append_assoc, readMembers,
        memberBytes, List.append_assoc, nextMember_member, draft, if_neg hhidden]
      simp only [List.cons_append]
      rw [show (field.codec.toJson x).bytes = field.codec.written x from rfl, blank, hmember]
      exact ih (hall.others hname (some x)) hothers values (Nat.lt_of_succ_lt_succ hfuel) false

end Fields

/-! ## Whole records -/

theorem Codec.faithful_record {α τ δ : Type} (title : String) {fields : Fields τ δ}
    {ofFields : τ → α} {toFields : α → τ} (h : fields.Faithful)
    (hinverse : ∀ x, ofFields (toFields x) = x) :
    (Codec.record title fields ofFields toFields).Faithful := by
  have hwritten : ∀ x, (Codec.record title fields ofFields toFields).written x =
      byte '{' :: (separated true ((fields.members (toFields x)).map memberBytes) ++
        [byte '}']) := fun x => bytes_object _
  refine ⟨fun x => ⟨_, _, hwritten x, by decide, by decide⟩, fun x rest _ => ?_⟩
  have hfuel := length_lt_separated
    (fun member (_ : member ∈ fields.members (toFields x)) => memberBytes_ne_nil member) true
    (byte '}' :: rest)
  have hread := fields.within_self.readMembers_written h (toFields x) hfuel true rest
  have hbracket : byte '{' ≠ byte '[' := by decide
  simp only [id_eq] at hread
  rw [hwritten, List.cons_append, List.append_assoc, List.singleton_append]
  simp only [Codec.record]
  rw [skipBlanks_cons (by decide)]
  simp only [if_neg hbracket, if_true, hread, Fields.finish_draft h, hinverse]

end Vitals.Json
