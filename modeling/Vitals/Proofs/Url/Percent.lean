import Mathlib.Tactic.SplitIfs
import Vitals.Url.Percent

/-!
# Texts as segments of a path

A text is made fit for a segment of a path by putting something in the place of three characters,
one after another. As `%` comes first, nothing that was put in is replaced again, so that each
character is replaced by itself (`Percent.toList_escapeSegment`). No slash and no space is left
(`Percent.notMem_escapeSegment`), any other mark stays where it is
(`Percent.mem_escapeSegment_iff`), and the segment stands for the text that it was made of
(`Percent.decodeSegment?_escapeSegment`), so that different texts have different segments.
-/

namespace Vitals.Percent

/-- What stands in a segment for a character. -/
def escapeChar (c : Char) : List Char :=
  if c = '%' then ['%', '2', '5']
  else if c = '/' then ['%', '2', 'F']
  else if c = ' ' then ['%', '2', '0']
  else [c]

theorem escapeChar_of_ne {c : Char} (hpercent : c ≠ '%') (hslash : c ≠ '/') (hspace : c ≠ ' ') :
    escapeChar c = [c] := by
  rw [escapeChar, if_neg hpercent, if_neg hslash, if_neg hspace]

theorem substitute_cons (old : Char) (new : List Char) (c : Char) (text : List Char) :
    substitute old new (c :: text) =
      (if c = old then new else [c]) ++ substitute old new text :=
  List.flatMap_cons

theorem substitute_append (old : Char) (new a b : List Char) :
    substitute old new (a ++ b) = substitute old new a ++ substitute old new b :=
  List.flatMap_append

/-- Each character is replaced by itself. -/
theorem toList_escapeSegment (text : String) :
    (escapeSegment text).toList = text.toList.flatMap escapeChar := by
  rw [escapeSegment, String.toList_ofList]
  induction text.toList with
  | nil => rfl
  | cons c text ih =>
    rw [substitute_cons, substitute_append, substitute_append, ih, List.flatMap_cons]
    congr 1
    by_cases hpercent : c = '%'
    · subst hpercent
      decide
    by_cases hslash : c = '/'
    · subst hslash
      decide
    by_cases hspace : c = ' '
    · subst hspace
      decide
    · rw [escapeChar_of_ne hpercent hslash hspace]
      simp [substitute, hpercent, hslash, hspace]

/-! ## What a segment holds -/

/-- Anything but the marks of the encoding is left where it was. -/
theorem eq_of_mem_escapeChar {c d : Char} (h : c ∉ ['%', '2', '5', 'F', '0'])
    (hc : c ∈ escapeChar d) : c = d := by
  unfold escapeChar at hc
  split_ifs at hc <;> simp_all

theorem mem_escapeSegment_iff {c : Char} (h : c ∉ ['%', '2', '5', 'F', '0', '/', ' '])
    {text : String} : c ∈ (escapeSegment text).toList ↔ c ∈ text.toList := by
  rw [toList_escapeSegment, List.mem_flatMap]
  constructor
  · rintro ⟨d, hd, hc⟩
    obtain rfl := eq_of_mem_escapeChar (by simp_all) hc
    exact hd
  · intro hc
    simp only [List.mem_cons, List.not_mem_nil, or_false, not_or] at h
    refine ⟨c, hc, ?_⟩
    rw [escapeChar_of_ne h.1 h.2.2.2.2.2.1 h.2.2.2.2.2.2]
    exact List.mem_cons_self

/-- The characters that are not marks of the encoding but are replaced are nowhere left. -/
theorem notMem_escapeSegment {c : Char} (h : c ∈ ['/', ' ']) (text : String) :
    c ∉ (escapeSegment text).toList := by
  have hreplaced : c ∉ ['%', '2', '5', 'F', '0'] ∧ c ∉ escapeChar c := by
    obtain rfl | rfl : c = '/' ∨ c = ' ' := by simpa using h
    all_goals decide
  rw [toList_escapeSegment, List.mem_flatMap]
  rintro ⟨d, -, hc⟩
  obtain rfl := eq_of_mem_escapeChar hreplaced.1 hc
  exact hreplaced.2 hc

theorem slash_notMem_escapeSegment (text : String) : '/' ∉ (escapeSegment text).toList :=
  notMem_escapeSegment (by decide) text

/-! ## What a segment stands for -/

theorem decode_cons {c : Char} (h : c ≠ '%') (rest : List Char) :
    decode (c :: rest) = String.utf8EncodeChar c ++ decode rest := by
  rw [decode]
  exact fun _ _ _ hc => absurd hc h

theorem decode_hex {a b : Char} {high low : Nat} (ha : digitIn? 16 a = some high)
    (hb : digitIn? 16 b = some low) (rest : List Char) :
    decode ('%' :: a :: b :: rest) = UInt8.ofNat (high * 16 + low) :: decode rest := by
  rw [decode, ha, hb]

/-- What stands for a character is read as the bytes of the character. -/
theorem decode_escapeChar (c : Char) (rest : List Char) :
    decode (escapeChar c ++ rest) = String.utf8EncodeChar c ++ decode rest := by
  have htwo : digitIn? 16 '2' = some 2 := rfl
  by_cases hpercent : c = '%'
  · subst hpercent
    exact decode_hex htwo (show digitIn? 16 '5' = some 5 from rfl) rest
  by_cases hslash : c = '/'
  · subst hslash
    exact decode_hex htwo (show digitIn? 16 'F' = some 15 from rfl) rest
  by_cases hspace : c = ' '
  · subst hspace
    exact decode_hex htwo (show digitIn? 16 '0' = some 0 from rfl) rest
  · rw [escapeChar_of_ne hpercent hslash hspace]
    exact decode_cons hpercent rest

/-- The bytes of a segment are those of the text. -/
theorem decode_escape (text : List Char) :
    decode (text.flatMap escapeChar) = text.flatMap String.utf8EncodeChar := by
  induction text with
  | nil => rfl
  | cons c text ih => rw [List.flatMap_cons, decode_escapeChar, ih, List.flatMap_cons]

/-- A segment stands for the text that it was made of. -/
theorem decodeSegment?_escapeSegment (text : String) :
    decodeSegment? (escapeSegment text) = some text := by
  rw [decodeSegment?, toList_escapeSegment, decode_escape]
  exact Utf8.decode?_encode text

example : escapeSegment "50%2F /" = "50%252F%20%2F" := by decide +kernel

theorem escapeSegment_injective : Function.Injective escapeSegment := by
  intro a b h
  have hdecode := congrArg decodeSegment? h
  rw [decodeSegment?_escapeSegment, decodeSegment?_escapeSegment] at hdecode
  exact Option.some.inj hdecode

end Vitals.Percent
