import Vitals.Json.Printer
import Vitals.Json.Scalar
import Vitals.Proofs.Utf8

/-!
# Written texts read back

Every character of a text is written either as its own bytes, none of which ends the text or
begins an escape, or as an escape of it (`readTextBytes_escapeChar`). Reading what was written
for a text therefore gives back the text, and leaves what follows its closing mark
(`readTextBody_write`).
-/

namespace Vitals.Json

/-- The bytes of written characters. -/
def encoded (chars : List Char) : List UInt8 := chars.flatMap String.utf8EncodeChar

@[simp] theorem encoded_nil : encoded [] = [] := rfl

theorem encoded_append (a b : List Char) : encoded (a ++ b) = encoded a ++ encoded b :=
  List.flatMap_append

theorem encoded_cons (c : Char) (chars : List Char) :
    encoded (c :: chars) = String.utf8EncodeChar c ++ encoded chars :=
  List.flatMap_cons

theorem encoded_cons_of_ascii {c : Char} (h : c.toNat < 0x80) (chars : List Char) :
    encoded (c :: chars) = byte c :: encoded chars := by
  rw [encoded_cons, Utf8.utf8EncodeChar_of_ascii h]
  rfl

/-! ## Characters of a text -/

/-- A byte that stands for itself inside a text. -/
def IsPlain (b : UInt8) : Prop := b ≠ byte '"' ∧ b ≠ byte '\\' ∧ ¬b < 0x20

/-- Bytes beyond ASCII are plain. -/
theorem isPlain_of_le {b : UInt8} (h : 0x80 ≤ b) : IsPlain b := by
  rw [UInt8.le_iff_toNat_le] at h
  change 128 ≤ b.toNat at h
  refine ⟨?_, ?_, ?_⟩
  · rintro rfl
    exact absurd h (by decide)
  · rintro rfl
    exact absurd h (by decide)
  · rw [UInt8.lt_iff_toNat_lt]
    change ¬b.toNat < 32
    omega

/-- Plain bytes are taken as they are. -/
theorem readTextBytes_plain {bytes : List UInt8} (h : ∀ b ∈ bytes, IsPlain b)
    (before rest : List UInt8) :
    readTextBytes before (bytes ++ rest) = readTextBytes (bytes.reverse ++ before) rest := by
  induction bytes generalizing before with
  | nil => rfl
  | cons b bytes ih =>
    obtain ⟨hmark, hescape, hcontrol⟩ := h b List.mem_cons_self
    rw [List.cons_append, readTextBytes.eq_def]
    simp only [hmark, hescape, hcontrol, if_false]
    rw [ih fun b hb => h b (List.mem_cons_of_mem _ hb), List.reverse_cons, List.append_assoc,
      List.singleton_append]

/-- An escaped character is read as its byte. -/
theorem readTextBytes_escape {e b : UInt8} (he : e ≠ byte 'u') (hb : escapedByte? e = some b)
    (before rest : List UInt8) :
    readTextBytes before (byte '\\' :: e :: rest) = readTextBytes (b :: before) rest := by
  have hmark : byte '\\' ≠ byte '"' := by decide
  rw [readTextBytes.eq_def]
  simp only [hmark, he, hb, if_false, if_true]

/-- An escaped code unit that is no half of a pair is read as its character. -/
theorem readTextBytes_unicode {h₁ h₂ h₃ h₄ : UInt8} {unit : Nat}
    (hunit : hexUnit? h₁ h₂ h₃ h₄ = some unit) (hsecond : isSecondHalf unit = false)
    (hfirst : isFirstHalf unit = false) (before rest : List UInt8) :
    readTextBytes before (byte '\\' :: byte 'u' :: h₁ :: h₂ :: h₃ :: h₄ :: rest) =
      readTextBytes (pushCodePoint unit before) rest := by
  have hmark : byte '\\' ≠ byte '"' := by decide
  rw [readTextBytes.eq_def]
  simp only [hmark, hunit, hsecond, hfirst, if_false, if_true, Bool.false_eq_true]

theorem hexDigit?_digitChar : ∀ n < 16, hexDigit? (byte (Nat.digitChar n)) = some n := by
  decide

theorem toNat_digitChar_lt : ∀ n < 16, (Nat.digitChar n).toNat < 0x80 := by
  decide

/-- The escape of a control character without an escape of its own. -/
theorem readTextBytes_control {c : Char} (h : c.toNat < 0x20) (before rest : List UInt8) :
    readTextBytes before (encoded ['\\', 'u', '0', '0', Nat.digitChar (c.toNat / 16),
        Nat.digitChar (c.toNat % 16)] ++ rest) =
      readTextBytes ((String.utf8EncodeChar c).reverse ++ before) rest := by
  have hhigh : c.toNat / 16 < 16 := by omega
  have hlow : c.toNat % 16 < 16 := by omega
  rw [encoded_cons_of_ascii (by decide), encoded_cons_of_ascii (by decide),
    encoded_cons_of_ascii (by decide), encoded_cons_of_ascii (by decide),
    encoded_cons_of_ascii (toNat_digitChar_lt _ hhigh),
    encoded_cons_of_ascii (toNat_digitChar_lt _ hlow)]
  have hunit : hexUnit? (byte '0') (byte '0') (byte (Nat.digitChar (c.toNat / 16)))
      (byte (Nat.digitChar (c.toNat % 16))) = some c.toNat := by
    rw [hexUnit?, hexDigit?_digitChar _ hhigh, hexDigit?_digitChar _ hlow]
    show some (((0 * 16 + 0) * 16 + c.toNat / 16) * 16 + c.toNat % 16) = some c.toNat
    congr 1
    omega
  have hsecond : isSecondHalf c.toNat = false := by
    rw [isSecondHalf, Bool.and_eq_false_iff]
    exact Or.inl (decide_eq_false (by omega))
  have hfirst : isFirstHalf c.toNat = false := by
    rw [isFirstHalf, Bool.and_eq_false_iff]
    exact Or.inl (decide_eq_false (by omega))
  exact (readTextBytes_unicode hunit hsecond hfirst before rest).trans
    (by rw [pushCodePoint, Char.ofNat_toNat])

/-- A character that needs no escape is written in plain bytes. -/
theorem isPlain_of_mem_utf8EncodeChar {c : Char} (hmark : c ≠ '"') (hescape : c ≠ '\\')
    (hcontrol : ¬c.toNat < 0x20) {b : UInt8} (hb : b ∈ String.utf8EncodeChar c) : IsPlain b := by
  rcases Nat.lt_or_ge c.toNat 0x80 with hascii | hwide
  · rw [Utf8.utf8EncodeChar_of_ascii hascii, List.mem_singleton] at hb
    subst hb
    have hinj : ∀ d : Char, d.toNat < 0x80 → UInt8.ofNat c.toNat = byte d → c = d := by
      intro d hd h
      have hmod : c.toNat % 256 = d.toNat % 256 := congrArg UInt8.toNat h
      exact Char.ext (UInt32.toNat_inj.1 (show c.toNat = d.toNat by omega))
    refine ⟨fun h => hmark (hinj _ (by decide) h), fun h => hescape (hinj _ (by decide) h), ?_⟩
    rw [UInt8.lt_iff_toNat_lt, UInt8.toNat_ofNat', Nat.mod_eq_of_lt (by omega)]
    exact hcontrol
  · exact isPlain_of_le (Utf8.le_of_mem_utf8EncodeChar hwide hb)

/-- What is written for a character reads as its bytes. -/
theorem readTextBytes_escapeChar (c : Char) (before rest : List UInt8) :
    readTextBytes before (encoded (escapeChar c) ++ rest) =
      readTextBytes ((String.utf8EncodeChar c).reverse ++ before) rest := by
  unfold escapeChar
  split
  iterate 7 exact readTextBytes_escape (by decide) (by decide) before rest
  rename_i hmark hescape _ _ _ _ _
  split
  · exact readTextBytes_control ‹_› before rest
  · rw [show encoded [c] = String.utf8EncodeChar c from List.append_nil _]
    exact readTextBytes_plain
      (fun b hb => isPlain_of_mem_utf8EncodeChar hmark hescape ‹_› hb) before rest

/-! ## Whole texts -/

theorem readTextBytes_write (chars : List Char) (before rest : List UInt8) :
    readTextBytes before (encoded (chars.flatMap escapeChar) ++ byte '"' :: rest) =
      .ok (before.reverse ++ encoded chars, rest) := by
  induction chars generalizing before with
  | nil =>
    rw [List.flatMap_nil, encoded_nil, List.nil_append, readTextBytes.eq_def, List.append_nil]
    exact if_pos rfl
  | cons c chars ih =>
    rw [List.flatMap_cons, encoded_append, List.append_assoc, readTextBytes_escapeChar, ih,
      List.reverse_append, List.reverse_reverse, encoded_cons, List.append_assoc]

/-- A written text without its opening mark. -/
def textBody (s : String) : List UInt8 := encoded (s.toList.flatMap escapeChar) ++ [byte '"']

/-- A text is written as its opening mark and its body. -/
theorem encoded_writeText (s : String) : encoded (writeText s) = byte '"' :: textBody s := by
  rw [writeText, List.cons_append, encoded_cons_of_ascii (by decide), encoded_append]
  rfl

/-- What is written for a text reads back, whatever follows. -/
theorem readTextBody_write (s : String) (rest : List UInt8) :
    readTextBody (textBody s ++ rest) = .ok (s, rest) := by
  rw [readTextBody, textBody, List.append_assoc, List.singleton_append, readTextBytes_write]
  simp only [List.reverse_nil, List.nil_append]
  rw [show encoded s.toList = Utf8.encode s from rfl, Utf8.decode?_encode]

end Vitals.Json
