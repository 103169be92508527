import Vitals.Json.Codec
import Vitals.Proofs.Json.Text
import Vitals.Proofs.OrderedMap

/-!
# Faithful codecs

A codec is faithful if reading what was written for a value gives back the value and leaves
what follows (`Codec.Faithful`), provided that what follows ends a value (`Ends`). Lists and
maps of what is faithful are faithful (`faithful_list`, `faithful_map`) : their pieces stand
between separators (`separated`), and each step of a reader passes one separator and one
piece. The text of a value of a faithful codec parses as the value
(`Codec.Faithful.parse_text`).
-/

set_option linter.unusedSectionVars false

namespace Vitals.Json

/-! ## Written documents -/

/-- The bytes of a document without blanks. -/
def bytes (document : Json) : List UInt8 := encoded document.write

/-- The bytes of a member. -/
def memberBytes (member : String × Json) : List UInt8 :=
  encoded (writeText member.1) ++ byte ':' :: member.2.bytes

/-- The comma before a piece that is not the first. -/
def separator : Bool → List UInt8
  | true => []
  | false => [byte ',']

/-- Pieces with commas between them, and one before the first unless it is the first of all. -/
def separated : Bool → List (List UInt8) → List UInt8
  | _, [] => []
  | first, piece :: pieces => separator first ++ piece ++ separated false pieces

/-- The items of a list are pieces with commas between them. -/
theorem encoded_writeItems (items : List Json) :
    encoded (writeItems items) = separated true (items.map bytes) := by
  induction items with
  | nil => rfl
  | cons item items ih =>
    cases items with
    | nil => simp [writeItems, separated, separator, bytes]
    | cons next items =>
      rw [writeItems, encoded_append, encoded_cons_of_ascii (by decide), ih]
      · rfl
      · rintro ⟨⟩

theorem encoded_writeMember (member : String × Json) :
    encoded (writeText member.1 ++ ':' :: write member.2) = memberBytes member := by
  rw [encoded_append, encoded_cons_of_ascii (by decide)]
  rfl

/-- The members of an object are pieces with commas between them. -/
theorem encoded_writeMembers (members : List (String × Json)) :
    encoded (writeMembers members) = separated true (members.map memberBytes) := by
  induction members with
  | nil => rfl
  | cons member members ih =>
    cases members with
    | nil => simp [writeMembers, separated, separator, ← encoded_writeMember]
    | cons next members =>
      rw [writeMembers, encoded_append, encoded_writeMember, encoded_cons_of_ascii (by decide),
        ih]
      · rfl
      · rintro ⟨⟩

/-- A list is its items between brackets. -/
theorem bytes_list (items : List Json) :
    (list items).bytes = byte '[' :: separated true (items.map bytes) ++ [byte ']'] := by
  rw [bytes, write, encoded_append, encoded_cons_of_ascii (by decide), encoded_writeItems]
  rfl

/-- An object is its members between braces. -/
theorem bytes_object (members : List (String × Json)) :
    (object members).bytes =
      byte '{' :: separated true (members.map memberBytes) ++ [byte '}'] := by
  rw [bytes, write, encoded_append, encoded_cons_of_ascii (by decide), encoded_writeMembers]
  rfl

theorem bytes_text (s : String) : (text s).bytes = byte '"' :: textBody s := by
  rw [bytes, write, encoded_writeText]

theorem memberBytes_ne_nil (member : String × Json) : memberBytes member ≠ [] := by
  rw [memberBytes, encoded_writeText, List.cons_append]
  exact List.cons_ne_nil _ _

/-- There are at least as many bytes as pieces, so that a reader which takes a piece a step
has steps enough. -/
theorem length_lt_separated {β : Type} {piece : β → List UInt8} {xs : List β}
    (h : ∀ x ∈ xs, piece x ≠ []) (first : Bool) (rest : List UInt8) :
    xs.length < (separated first (xs.map piece) ++ rest).length + 1 := by
  induction xs generalizing first with
  | nil => exact Nat.zero_lt_succ _
  | cons x xs ih =>
    have hpiece := List.length_pos_iff.2 (h x List.mem_cons_self)
    have hrest := ih (fun y hy => h y (List.mem_cons_of_mem x hy)) false
    simp only [List.map_cons, separated, List.length_cons, List.length_append] at hrest ⊢
    omega

/-! ## Separators read back -/

/-- What follows a value is nothing, or begins with a byte that ends the value. -/
def Ends (rest : List UInt8) : Prop :=
  ∀ b ∈ rest.head?, b = byte ',' ∨ b = byte ']' ∨ b = byte '}'

theorem ends_nil : Ends [] := fun _ hb => nomatch hb

theorem ends_cons {b : UInt8} (hb : b = byte ',' ∨ b = byte ']' ∨ b = byte '}')
    (rest : List UInt8) : Ends (b :: rest) := by
  intro c hc
  obtain rfl : b = c := by simpa using hc
  exact hb

/-- What is left to write behind a piece begins with a comma, or is what follows all of them. -/
theorem ends_separated (pieces : List (List UInt8)) {rest : List UInt8} (h : Ends rest) :
    Ends (separated false pieces ++ rest) := by
  cases pieces with
  | nil => exact h
  | cons piece pieces => exact ends_cons (Or.inl rfl) _

theorem skipBlanks_cons {b : UInt8} (hb : isBlankByte b = false) (rest : List UInt8) :
    skipBlanks (b :: rest) = b :: rest := by
  rw [skipBlanks, List.dropWhile_cons_of_neg (by simp [hb])]

/-- A bracket is the end of the items. -/
theorem nextItem_close (first : Bool) (rest : List UInt8) :
    nextItem first (byte ']' :: rest) = .ok (none, rest) := by
  rw [nextItem, skipBlanks_cons (by decide)]
  exact if_pos rfl

/-- An item is reached past its comma, and its own bytes are all left. -/
theorem nextItem_item (first : Bool) {b : UInt8} (hblank : isBlankByte b = false)
    (hclose : b ≠ byte ']') (rest : List UInt8) :
    nextItem first (separator first ++ b :: rest) = .ok (some (), b :: rest) := by
  cases first with
  | true =>
    rw [separator, List.nil_append, nextItem, skipBlanks_cons hblank]
    simp only [if_neg hclose, if_true]
  | false =>
    have hcomma : byte ',' ≠ byte ']' := by decide
    rw [separator, List.singleton_append, nextItem, skipBlanks_cons (by decide)]
    simp only [if_neg hcomma, Bool.false_eq_true, if_false, ne_eq, not_true_eq_false]
    rw [skipBlanks_cons hblank]
    simp only [if_neg hclose]

/-- A brace is the end of the members. -/
theorem nextMember_close (first : Bool) (rest : List UInt8) :
    nextMember first (byte '}' :: rest) = .ok (none, rest) := by
  rw [nextMember, skipBlanks_cons (by decide)]
  exact if_pos rfl

/-- A member is reached past its comma, and its name is read. -/
theorem nextMember_member (first : Bool) (name : String) (rest : List UInt8) :
    nextMember first (separator first ++ (encoded (writeText name) ++ rest)) =
      .ok (some name, rest) := by
  have hmark : byte '"' ≠ byte '}' := by decide
  rw [encoded_writeText, List.cons_append]
  cases first with
  | true =>
    rw [separator, List.nil_append, nextMember, skipBlanks_cons (by decide)]
    simp only [if_neg hmark, if_true, readTextBody_write]
    rfl
  | false =>
    have hcomma : byte ',' ≠ byte '}' := by decide
    rw [separator, List.singleton_append, nextMember, skipBlanks_cons (by decide)]
    simp only [if_neg hcomma, Bool.false_eq_true, if_false, ne_eq, not_true_eq_false]
    rw [skipBlanks_cons (by decide)]
    simp only [if_true, readTextBody_write]
    rfl

theorem skipColon_colon (rest : List UInt8) : skipColon (byte ':' :: rest) = .ok rest := by
  rw [skipColon, skipBlanks_cons (by decide)]
  exact if_pos rfl

/-! ## Faithful codecs -/

namespace Codec

variable {α : Type} {codec : Codec α}

/-- The bytes that are written for a value. -/
def written (codec : Codec α) (x : α) : List UInt8 := (codec.toJson x).bytes

/-- Reading what was written for a value gives back the value. -/
structure Faithful (codec : Codec α) : Prop where
  /-- A written value begins with a byte that is neither a blank nor the end of a list. -/
  starts (x : α) : ∃ b rest, codec.written x = b :: rest ∧ isBlankByte b = false ∧ b ≠ byte ']'
  /-- A written value is read, and what follows is left. -/
  reads (x : α) {rest : List UInt8} (h : Ends rest) :
    codec.read (codec.written x ++ rest) = .ok (x, rest)

theorem Faithful.written_ne_nil (h : codec.Faithful) (x : α) : codec.written x ≠ [] := by
  obtain ⟨b, rest, hx, -⟩ := h.starts x
  rw [hx]
  exact List.cons_ne_nil b rest

/-- A written value is found as the next item. -/
theorem Faithful.nextItem_written (h : codec.Faithful) (first : Bool) (x : α)
    (rest : List UInt8) :
    nextItem first (separator first ++ (codec.written x ++ rest)) =
      .ok (some (), codec.written x ++ rest) := by
  obtain ⟨b, tail, hx, hblank, hclose⟩ := h.starts x
  rw [hx, List.cons_append]
  exact nextItem_item first hblank hclose (tail ++ rest)

/-- The text of a value parses as the value. -/
theorem Faithful.parse_text (h : codec.Faithful) (x : α) :
    codec.parse (Utf8.encode (codec.text x)) = .ok x := by
  have hbytes : Utf8.encode (codec.text x) = codec.written x ++ [] := by
    rw [text, compact, Utf8.encode_ofList, List.append_nil]
    rfl
  rw [parse, readWhole, hbytes, h.reads x ends_nil]
  rfl

/-- Different values have different texts. -/
theorem Faithful.injective_text (h : codec.Faithful) : Function.Injective codec.text := by
  intro x y htext
  have hx := h.parse_text x
  rw [htext, h.parse_text y] at hx
  exact (Except.ok.inj hx).symm

/-! ### Lists -/

/-- Written items are read one after another, with more steps than there are items. -/
theorem Faithful.readItems_written (h : codec.Faithful) (xs : List α) {fuel : Nat}
    (hfuel : xs.length < fuel) (first : Bool) (rest : List UInt8) :
    codec.readItems fuel first (separated first (xs.map codec.written) ++ byte ']' :: rest) =
      .ok (xs, rest) := by
  induction xs generalizing fuel first with
  | nil =>
    obtain ⟨fuel, rfl⟩ := Nat.exists_eq_add_one.2 hfuel
    simp only [List.map_nil, separated, List.nil_append, readItems, nextItem_close]
  | cons x xs ih =>
    obtain ⟨fuel, rfl⟩ := Nat.exists_eq_add_one.2 (Nat.zero_lt_of_lt hfuel)
    have hends := ends_separated (xs.map codec.written)
      (ends_cons (Or.inr (Or.inl rfl)) rest : Ends (byte ']' :: rest))
    have hrest := ih (Nat.lt_of_succ_lt_succ hfuel) false
    rw [List.map_cons, separated, List.append_assoc, List.append_assoc, readItems,
      h.nextItem_written]
    simp only [h.reads x hends, hrest]
    rfl

/-- Lists of what is faithful are faithful. -/
theorem faithful_list (h : codec.Faithful) : (list codec).Faithful := by
  have hwritten : ∀ xs, (list codec).written xs =
      byte '[' :: (separated true (xs.map codec.written) ++ [byte ']']) := by
    intro xs
    rw [written, list, bytes_list, List.map_map]
    rfl
  refine ⟨fun xs => ⟨_, _, hwritten xs, by decide, by decide⟩, fun xs rest _ => ?_⟩
  have hfuel := length_lt_separated (fun x (_ : x ∈ xs) => h.written_ne_nil x) true
    (byte ']' :: rest)
  rw [hwritten, List.cons_append, List.append_assoc, List.singleton_append]
  simp only [list]
  rw [skipBlanks_cons (by decide)]
  exact (if_pos rfl).trans (h.readItems_written xs hfuel true rest)

/-! ### Maps -/

/-- The bytes that are written for an entry of a map. -/
def writtenEntry (codec : Codec α) (entry : String × α) : List UInt8 :=
  memberBytes (entry.1, codec.toJson entry.2)

/-- Written entries are put into the map one after another. -/
theorem Faithful.readEntries_written (h : codec.Faithful) (entries : List (String × α))
    {fuel : Nat} (hfuel : entries.length < fuel) (first : Bool) (before : OrderedMap String α)
    (rest : List UInt8) :
    codec.readEntries fuel first before
        (separated first (entries.map codec.writtenEntry) ++ byte '}' :: rest) =
      .ok (entries.foldl (fun m e => m.put e.1 e.2) before, rest) := by
  induction entries generalizing fuel first before with
  | nil =>
    obtain ⟨fuel, rfl⟩ := Nat.exists_eq_add_one.2 hfuel
    simp only [List.map_nil, separated, List.nil_append, readEntries, nextMember_close,
      List.foldl_nil]
  | cons entry entries ih =>
    obtain ⟨fuel, rfl⟩ := Nat.exists_eq_add_one.2 (Nat.zero_lt_of_lt hfuel)
    have hends := ends_separated (entries.map codec.writtenEntry)
      (ends_cons (Or.inr (Or.inr rfl)) rest : Ends (byte '}' :: rest))
    have hrest := ih (Nat.lt_of_succ_lt_succ hfuel) false (before.put entry.1 entry.2)
    rw [List.map_cons, separated, List.append_assoc, List.append_assoc, readEntries,
      writtenEntry, memberBytes, List.append_assoc, nextMember_member]
    simp only [List.cons_append, skipColon_colon]
    rw [show (codec.toJson entry.2).bytes = codec.written entry.2 from rfl,
      h.reads entry.2 hends]
    exact hrest

/-- Maps of what is faithful are faithful : entries in their order are put back as they were. -/
theorem faithful_map (h : codec.Faithful) : (map codec).Faithful := by
  have hwritten : ∀ m : OrderedMap String α, (map codec).written m =
      byte '{' :: (separated true (m.entries.map codec.writtenEntry) ++ [byte '}']) := by
    intro m
    rw [written, map, bytes_object, List.map_map]
    rfl
  refine ⟨fun m => ⟨_, _, hwritten m, by decide, by decide⟩, fun m rest _ => ?_⟩
  have hentry : ∀ entry ∈ m.entries, codec.writtenEntry entry ≠ [] :=
    fun _ _ => memberBytes_ne_nil _
  have hfuel := length_lt_separated hentry true (byte '}' :: rest)
  rw [hwritten, List.cons_append, List.append_assoc, List.singleton_append]
  simp only [map]
  rw [skipBlanks_cons (by decide)]
  refine (if_pos rfl).trans ?_
  rw [h.readEntries_written m.entries hfuel]
  exact congrArg (fun m => Except.ok (m, rest)) (OrderedMap.ofList_entries m)

end Codec

end Vitals.Json
