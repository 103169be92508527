import Vitals.Json.Skip
import Vitals.Proofs.Json.Reader

/-!
# What is read can be passed over

A value that nobody asks for is passed over without being read. Where it can be read, both go to
the same place: scalars by `skipScalar_of_read`, lists and objects with everything in them by
`ValueAt.skips`, in which the lists and objects around the value are those that are still to be
passed over. So `skipValue` ends where the value ends (`ValueAt.skipValue_eq`).
-/

namespace Vitals.Json

/-! ## Texts -/

theorem skipText_unicode {h₁ h₂ h₃ h₄ : UInt8} {unit : Nat} (h : hexUnit? h₁ h₂ h₃ h₄ = some unit)
    (rest : List UInt8) :
    skipText (byte '\\' :: byte 'u' :: h₁ :: h₂ :: h₃ :: h₄ :: rest) = skipText rest := by
  have hmark : byte '\\' ≠ byte '"' := by decide
  rw [skipText.eq_def]
  simp only [hmark, h, if_false, if_true, Option.isSome_some]

theorem skipText_escape {e b : UInt8} (he : e ≠ byte 'u') (hb : escapedByte? e = some b)
    (rest : List UInt8) : skipText (byte '\\' :: e :: rest) = skipText rest := by
  have hmark : byte '\\' ≠ byte '"' := by decide
  rw [skipText.eq_def]
  simp only [hmark, he, hb, if_false, if_true, Option.isSome_some]

theorem skipText_plain {b : UInt8} (hmark : b ≠ byte '"') (hescape : b ≠ byte '\\')
    (hcontrol : ¬b < 0x20) (rest : List UInt8) : skipText (b :: rest) = skipText rest := by
  rw [skipText.eq_def]
  simp only [hmark, hescape, hcontrol, if_false]

/-- A text that is read is passed over. -/
theorem skipText_of_readTextBytes {before s bytes rest : List UInt8}
    (h : readTextBytes before s = .ok (bytes, rest)) : skipText s = .ok rest := by
  fun_induction readTextBytes before s with
  | case2 before after =>
    obtain ⟨-, rfl⟩ := Prod.mk.inj (Except.ok.inj h)
    rw [skipText.eq_def]
    exact if_pos rfl
  | case11 before _ _ _ _ first _ _ _ b hb e he _ _ _ _ after second _ _ _ ih =>
    obtain rfl := not_not.1 hb
    obtain rfl := not_not.1 he
    rw [skipText_unicode ‹_›, skipText_unicode ‹_›]
    exact ih h
  | case14 before _ _ _ _ after unit _ _ _ _ ih =>
    rw [skipText_unicode ‹_›]
    exact ih h
  | case16 before e after he b hescaped _ ih =>
    rw [skipText_escape he hescaped]
    exact ih h
  | case19 before b after hmark hescape hcontrol ih =>
    rw [skipText_plain hmark hescape hcontrol]
    exact ih h
  | _ => cases h

/-- A text that can be read can be passed over, and both end at the same place. -/
theorem skipText_of_readTextBody {s rest : List UInt8} {text : String}
    (h : readTextBody s = .ok (text, rest)) : skipText s = .ok rest := by
  unfold readTextBody at h
  cases hbytes : readTextBytes [] s with
  | error fault => simp [hbytes] at h
  | ok read =>
    obtain ⟨bytes, after⟩ := read
    simp only [hbytes] at h
    cases hdecoded : Utf8.decode? bytes with
    | none => simp [hdecoded] at h
    | some decoded =>
      simp only [hdecoded, Except.ok.injEq, Prod.mk.injEq] at h
      rw [← h.2]
      exact skipText_of_readTextBytes hbytes

/-! ## Numbers -/

theorem rest_of_finishReal {negative : Bool} {significand : Nat} {exponent : Int}
    {rest rest' : List UInt8} {document : Json}
    (h : finishReal negative significand exponent rest = .ok (document, rest')) : rest = rest' := by
  unfold finishReal at h
  split at h
  · exact (Prod.mk.inj (Except.ok.inj h)).2
  · cases h

/-- The digits that a text begins with, if it begins with one. -/
theorem exists_digit_of_takeWhile {s : List UInt8} (h : (s.takeWhile isDigitByte).isEmpty = false) :
    ∃ d rest, s = d :: rest ∧ isDigitByte d = true := by
  cases s with
  | nil => cases h
  | cons d rest =>
    cases hd : isDigitByte d with
    | true => exact ⟨d, rest, rfl, hd⟩
    | false => simp [hd] at h

/-- An exponent that is read can be passed over. -/
theorem skipExponent_of_read {negative : Bool} {significand : Nat} {exponent : Int}
    {s rest : List UInt8} {document : Json}
    (h : readExponentPart negative significand exponent s = .ok (document, rest)) :
    skipExponent s = .ok rest := by
  unfold readExponentPart at h
  unfold skipExponent
  generalize hsign : splitExponentSign s = split at h
  obtain ⟨down, after⟩ := split
  simp only at h ⊢
  cases hdigits : (after.takeWhile isDigitByte).isEmpty with
  | true =>
    simp only [hdigits, if_true] at h
    split at h <;> cases h
  | false =>
    obtain ⟨d, tail, rfl, hd⟩ := exists_digit_of_takeWhile hdigits
    simp only [hdigits, Bool.false_eq_true, if_false] at h
    have hrest : (d :: tail).dropWhile isDigitByte = rest := by
      split at h
      · split_ifs at h
        exact (Prod.mk.inj (Except.ok.inj h)).2
      · exact rest_of_finishReal h
    rw [List.dropWhile_cons_of_pos hd] at hrest
    simp only [hd, if_true, hrest]

/-- A fraction that is read can be passed over. -/
theorem skipAfterDigits_of_readFraction {negative : Bool} {significand : Nat} {exponent : Int}
    {s rest : List UInt8} {document : Json}
    (h : readFraction negative significand exponent s = .ok (document, rest)) :
    skipAfterDigits (byte '.' :: s) = .ok rest := by
  unfold readFraction at h
  rw [skipAfterDigits, if_pos rfl]
  cases hdigits : (s.takeWhile isDigitByte).isEmpty with
  | true => simp [hdigits] at h
  | false =>
    simp only [hdigits, Bool.false_eq_true, if_false] at h ⊢
    cases hafter : s.dropWhile isDigitByte with
    | nil =>
      rw [hafter] at h
      exact congrArg Except.ok (rest_of_finishReal h)
    | cons mark tail =>
      rw [hafter, readAfterFraction] at h
      cases hmark : isExponentMark mark with
      | true =>
        simp only [hmark, if_true] at h ⊢
        exact skipExponent_of_read h
      | false =>
        simp only [hmark, Bool.false_eq_true, if_false] at h ⊢
        rw [rest_of_finishReal h]

/-- An integer ends where its digits end, whether all of them are kept or not. -/
theorem rest_of_integer {negative kept : Bool} {significand : Nat} {exponent : Int}
    {rest rest' : List UInt8} {document : Json}
    (h : (if kept then .ok (integerOrReal negative significand, rest)
      else finishReal negative significand exponent rest) = .ok (document, rest')) :
    rest = rest' := by
  cases kept with
  | true => exact (Prod.mk.inj (Except.ok.inj h)).2
  | false => exact rest_of_finishReal h

/-- A number that is read can be passed over. -/
theorem skipNumber_of_read {negative : Bool} {s rest : List UInt8} {document : Json}
    (h : readNumber negative s = .ok (document, rest)) : skipNumber s = .ok rest := by
  unfold readNumber at h
  cases s with
  | nil => cases h
  | cons d tail =>
    cases hd : isDigitByte d with
    | false => simp [hd] at h
    | true =>
      simp only [List.takeWhile_cons_of_pos hd, List.dropWhile_cons_of_pos hd] at h
      by_cases hzeros : d = byte '0' ∧ !(tail.takeWhile isDigitByte).isEmpty
      · simp [hzeros] at h
      rw [if_neg hzeros] at h
      have hnumber : skipNumber (d :: tail) = skipAfterDigits (tail.dropWhile isDigitByte) := by
        by_cases hzero : d = byte '0'
        · have hempty : (tail.takeWhile isDigitByte).isEmpty := by simpa [hzero] using hzeros
          have htail : tail.dropWhile isDigitByte = tail := by
            have hsplit := List.takeWhile_append_dropWhile (p := isDigitByte) (l := tail)
            rwa [List.isEmpty_iff.1 hempty] at hsplit
          rw [skipNumber, if_pos hzero, if_pos hempty, htail]
        · rw [skipNumber, if_neg hzero, if_pos hd]
      rw [hnumber]
      cases hafter : tail.dropWhile isDigitByte with
      | nil =>
        simp only [hafter] at h
        rw [skipAfterDigits]
        exact congrArg Except.ok (rest_of_integer h)
      | cons b after =>
        simp only [hafter] at h
        by_cases hpoint : b = byte '.'
        · subst hpoint
          simp only [if_true] at h
          exact skipAfterDigits_of_readFraction h
        · rw [skipAfterDigits, if_neg hpoint]
          simp only [if_neg hpoint] at h
          cases hmark : isExponentMark b with
          | true =>
            simp only [hmark, if_true] at h ⊢
            exact skipExponent_of_read h
          | false =>
            simp only [hmark, Bool.false_eq_true, if_false] at h ⊢
            rw [rest_of_integer h]

/-- A scalar that is read is passed over. -/
theorem skipScalar_of_read {b : UInt8} {s rest : List UInt8} {document : Json}
    (h : readScalar b s = .ok (document, rest)) : skipScalar b s = .ok rest := by
  unfold readScalar at h
  unfold skipScalar
  have hword {word : List Char} {value : Json}
      (h : (readWord word s).map (value, ·) = .ok (document, rest)) :
      readWord word s = .ok rest := by
    obtain ⟨after, hread, hpair⟩ := eq_of_map_eq_ok h
    rw [hread, (Prod.mk.inj hpair).2]
  split_ifs at h ⊢
  · exact hword h
  · exact hword h
  · exact hword h
  · exact skipNumber_of_read h
  · exact skipNumber_of_read h
  · obtain ⟨⟨text, after⟩, hread, hpair⟩ := eq_of_map_eq_ok h
    rw [← (Prod.mk.inj hpair).2]
    exact skipText_of_readTextBody hread

/-! ## Values -/

/-- Passing over a value, and over the rest of the lists and objects around it, leads to `rest`. -/
def Skips (frames : List Frame) (s rest : List UInt8) : Prop :=
  ∃ fuel, skipValueIn fuel frames s = .ok rest

/-- Passing over the rest of some lists and objects leads to `rest`; `started` says whether an item
of the innermost one has been passed over. -/
def SkipsRest (started : Bool) (frames : List Frame) (s rest : List UInt8) : Prop :=
  ∃ fuel, skipItemsIn fuel started frames s = .ok rest

section Steps

variable {frames : List Frame} {frame : Frame} {s tail after rest : List UInt8} {b : UInt8}

theorem Skips.scalar (h : Skips frames s rest) (hs : skipBlanks s = b :: tail)
    (hb : ¬(b = byte '[' ∨ b = byte '{')) (hscalar : skipScalar b tail = .ok after) :
    SkipsRest true frames after rest := by
  obtain ⟨hlist, hobject⟩ := not_or.1 hb
  obtain ⟨_ | fuel, h⟩ := h
  · cases h
  · simp only [skipValueIn, hs, if_neg hlist, if_neg hobject, hscalar] at h
    exact ⟨fuel, h⟩

theorem Skips.list (h : Skips frames s rest) (hs : skipBlanks s = byte '[' :: tail) :
    SkipsRest false (.list :: frames) tail rest := by
  obtain ⟨_ | fuel, h⟩ := h
  · cases h
  · simp only [skipValueIn, hs, if_true] at h
    exact ⟨fuel, h⟩

theorem Skips.object (h : Skips frames s rest) (hs : skipBlanks s = byte '{' :: tail) :
    SkipsRest false (.object :: frames) tail rest := by
  have hbracket : byte '{' ≠ byte '[' := by decide
  obtain ⟨_ | fuel, h⟩ := h
  · cases h
  · simp only [skipValueIn, hs, if_neg hbracket, if_true] at h
    exact ⟨fuel, h⟩

theorem Skips.of_skipBlanks (h : Skips frames s rest) : Skips frames (skipBlanks s) rest := by
  obtain ⟨_ | fuel, h⟩ := h
  · cases h
  · refine ⟨fuel + 1, ?_⟩
    simpa only [skipValueIn, skipBlanks_skipBlanks] using h

theorem SkipsRest.close {started : Bool} (h : SkipsRest started (frame :: frames) s rest)
    (hs : skipBlanks s = frame.close :: tail) : SkipsRest true frames tail rest := by
  obtain ⟨_ | fuel, h⟩ := h
  · cases h
  · simp only [skipItemsIn, hs, if_true] at h
    exact ⟨fuel, h⟩

theorem SkipsRest.first (h : SkipsRest false (frame :: frames) s rest)
    (hs : skipBlanks s = b :: tail) (hb : b ≠ frame.close)
    (hname : frame.skipName (b :: tail) = .ok after) : Skips (frame :: frames) after rest := by
  obtain ⟨_ | fuel, h⟩ := h
  · cases h
  · simp only [skipItemsIn, hs, if_neg hb, hname, Bool.false_eq_true, false_and, if_false] at h
    exact ⟨fuel, h⟩

theorem SkipsRest.next (h : SkipsRest true (frame :: frames) s rest)
    (hs : skipBlanks s = byte ',' :: tail) (hname : frame.skipName tail = .ok after) :
    Skips (frame :: frames) after rest := by
  have hcomma : byte ',' ≠ frame.close := by cases frame <;> decide
  obtain ⟨_ | fuel, h⟩ := h
  · cases h
  · simp only [skipItemsIn, hs, if_neg hcomma, hname, ne_eq, not_true_eq_false, and_false,
      if_false, if_true] at h
    exact ⟨fuel, h⟩

/-- The name of a member that is read is passed over, with the colon behind it. -/
theorem skipName_of_read {name : String} {t : List UInt8} (hs : skipBlanks s = byte '"' :: tail)
    (hname : readTextBody tail = .ok (name, t)) (hcolon : skipColon t = .ok after) :
    Frame.object.skipName s = .ok after := by
  simp only [Frame.skipName, hs, ne_eq, not_true_eq_false, if_false, skipText_of_readTextBody hname,
    skipColon_eq_ok hcolon, if_true]

end Steps

mutual

/-- A value that stands in the text is passed over, whatever stands around it. -/
theorem ValueAt.skips {last : List UInt8} :
    ∀ {s rest : List UInt8} {document : Json}, ValueAt s document rest →
      ∀ {frames : List Frame}, Skips frames s last → SkipsRest true frames rest last
  | _, _, _, .scalar hs hb h, _, hskip => hskip.scalar hs hb (skipScalar_of_read h)
  | _, _, _, .list hs h, _, hskip => h.skips (hskip.list hs)
  | _, _, _, .object hs h, _, hskip => h.skips (hskip.object hs)

/-- The items of a list are passed over, by induction on how they stand in the text. -/
theorem ItemsAt.skips {last : List UInt8} :
    ∀ {first : Bool} {s rest : List UInt8} {items : List Json}, ItemsAt first s items rest →
      ∀ {frames : List Frame}, SkipsRest (!first) (.list :: frames) s last →
        SkipsRest true frames rest last
  | _, _, _, _, .nil h, _, hskip => hskip.close (nextItem_eq_none h)
  | _, _, _, _, .cons h hitem hitems, _, hskip => by
    refine hitems.skips (hitem.skips ?_)
    rcases nextItem_eq_some h with ⟨rfl, b, tail, hs, hb, rfl⟩ | ⟨rfl, tail, hs, rfl⟩
    · exact hskip.first hs hb rfl
    · exact (hskip.next hs rfl).of_skipBlanks

/-- The members of an object are passed over, by induction on how they stand in the text. -/
theorem MembersAt.skips {last : List UInt8} :
    ∀ {first : Bool} {s rest : List UInt8} {members : List (String × Json)},
      MembersAt first s members rest → ∀ {frames : List Frame},
        SkipsRest (!first) (.object :: frames) s last → SkipsRest true frames rest last
  | _, _, _, _, .nil h, _, hskip => hskip.close (nextMember_eq_none h)
  | _, _, _, _, .cons h hcolon hvalue hmembers, _, hskip => by
    refine hmembers.skips (hvalue.skips ?_)
    obtain ⟨tail, hname, ⟨rfl, hs⟩ | ⟨rfl, more, hs, hmore⟩⟩ := nextMember_eq_some h
    · exact hskip.first hs (by decide) (skipName_of_read (skipBlanks_of_eq hs) hname hcolon)
    · exact hskip.next hs (skipName_of_read hmore hname hcolon)

end

/-- Passing over a value that can be read ends where the value ends. -/
theorem ValueAt.skipValue_eq {s rest last : List UInt8} {document : Json}
    (h : ValueAt s document rest) (hskip : skipValue s = .ok last) : last = rest := by
  obtain ⟨fuel, hrest⟩ := h.skips ⟨_, hskip⟩
  rw [skipItemsIn] at hrest
  exact (Except.ok.inj hrest).symm

end Vitals.Json
