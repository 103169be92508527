import Vitals.Text.Digits

/-!
# Words of TOML

Blanks, comments, the four kinds of quoted text, and keys. A reader takes what it reads from
the beginning of a text and gives the rest; it gives nothing where the text is not TOML.
-/

namespace Vitals.Toml

/-! ## Blanks and comments -/

/-- Whether a character is a blank within a line. -/
def isBlank (c : Char) : Bool := c == ' ' || c == '\t'

/-- A text without the blanks at its beginning. -/
def skipBlanks (text : List Char) : List Char := text.dropWhile isBlank

/-- Whether a character may stand in a comment or in a text on one line. -/
def isVisible (c : Char) : Bool := c == '\t' || (0x20 ≤ c.toNat && c.toNat ≠ 0x7f)

/-- What follows the end of a line. -/
def afterLine : List Char → Option (List Char)
  | '\n' :: rest => some rest
  | '\r' :: '\n' :: rest => some rest
  | _ => none

/-- A text without the comment at its beginning, if it begins with one. -/
def skipComment (text : List Char) : List Char :=
  match text with
  | '#' :: rest => rest.dropWhile isVisible
  | text => text

/-- What follows the rest of a line that holds blanks and a comment alone. -/
def endLine (text : List Char) : Option (List Char) :=
  match skipComment (skipBlanks text) with
  | [] => some []
  | rest => afterLine rest

/-- A text without the blanks, comments and ends of lines at its beginning, so many at most. -/
def skipLines : Nat → List Char → List Char
  | 0, text => text
  | limit + 1, text =>
    let rest := skipComment (skipBlanks text)
    match afterLine rest with
    | some rest => skipLines limit rest
    | none => rest

/-- A text without the blanks, comments and ends of lines at its beginning. -/
def skipSpace (text : List Char) : List Char := skipLines (text.length + 1) text

/-! ## Quoted texts -/

/-- The character of a code, unless the code is that of none. -/
def charOf (code : Nat) : Option Char :=
  if h : code.isValidChar then some (Char.ofNatAux code h) else none

/-- The character whose code the next digits write. -/
def readCode (count : Nat) (text : List Char) : Option (Char × List Char) :=
  let digits := text.take count
  if digits.length = count ∧ digits.all (isDigitIn 16) then
    (charOf (numberIn 16 digits)).map (·, text.drop count)
  else none

/-- The character that is written after a backslash. -/
def readEscape : List Char → Option (Char × List Char)
  | 'b' :: rest => some ('\x08', rest)
  | 't' :: rest => some ('\t', rest)
  | 'n' :: rest => some ('\n', rest)
  | 'f' :: rest => some ('\x0c', rest)
  | 'r' :: rest => some ('\r', rest)
  | 'e' :: rest => some ('\x1b', rest)
  | '"' :: rest => some ('"', rest)
  | '\\' :: rest => some ('\\', rest)
  | 'x' :: rest => readCode 2 rest
  | 'u' :: rest => readCode 4 rest
  | 'U' :: rest => readCode 8 rest
  | _ => none

/-- The rest of a text on one line, up to its quotation mark. A backslash begins an escape in a
text between double marks. -/
def readLine (mark : Char) : Nat → List Char → Option (List Char × List Char)
  | 0, _ | _, [] => none
  | limit + 1, c :: rest =>
    if c = mark then some ([], rest)
    else if c = '\\' ∧ mark = '"' then do
      let (c, rest) ← readEscape rest
      let (others, rest) ← readLine mark limit rest
      return (c :: others, rest)
    else if isVisible c then do
      let (others, rest) ← readLine mark limit rest
      return (c :: others, rest)
    else none

/-- Whether a character is left out after a backslash at the end of a line. -/
def isFolded (c : Char) : Bool := isBlank c || c == '\n' || c == '\r'

/-- What follows a backslash at the end of a line, if it stands there. -/
def afterFold (text : List Char) : Option (List Char) :=
  (afterLine (skipBlanks text)).map (·.dropWhile isFolded)

/-- The rest of a text on several lines, up to three quotation marks. One or two more marks
before the three belong to the text. -/
def readLines (mark : Char) : Nat → List Char → Option (List Char × List Char)
  | 0, _ | _, [] => none
  | limit + 1, c :: rest =>
    let next (c : Char) (rest : List Char) : Option (List Char × List Char) := do
      let (others, rest) ← readLines mark limit rest
      return (c :: others, rest)
    if c = mark then
      let marks := ((c :: rest).takeWhile (· = mark)).length
      if 3 ≤ marks then
        if marks ≤ 5 then some (List.replicate (marks - 3) mark, (c :: rest).drop marks) else none
      else next c rest
    else if c = '\\' ∧ mark = '"' then
      match afterFold rest with
      | some rest => readLines mark limit rest
      | none => do
        let (c, rest) ← readEscape rest
        next c rest
    else if isVisible c then next c rest
    else
      match afterLine (c :: rest) with
      | some rest => next '\n' rest
      | none => none

/-- A quoted text. -/
def readQuoted (lines : Bool) (text : List Char) : Option (String × List Char) :=
  match text with
  | mark :: rest =>
    if mark = '"' ∨ mark = '\'' then
      let read : Option (List Char × List Char) :=
        match rest with
        | a :: b :: inner =>
          if lines ∧ a = mark ∧ b = mark then
            let inner := (afterLine inner).getD inner
            readLines mark (inner.length + 1) inner
          else readLine mark (rest.length + 1) rest
        | _ => readLine mark (rest.length + 1) rest
      read.map fun (chars, rest) => (String.ofList chars, rest)
    else none
  | [] => none

/-! ## Keys -/

/-- Whether a character may stand in a key without marks. -/
def isBare (c : Char) : Bool := c.isAlphanum || c == '-' || c == '_'

/-- A name, with marks or without. -/
def readName (text : List Char) : Option (String × List Char) :=
  match readQuoted false text with
  | some found => some found
  | none =>
    let name := text.takeWhile isBare
    if name.isEmpty then none else some (String.ofList name, text.dropWhile isBare)

/-- The names of a key between its points, so many at most. -/
def readNames : Nat → List Char → Option (List String × List Char)
  | 0, _ => none
  | limit + 1, text => do
    let (name, rest) ← readName (skipBlanks text)
    match skipBlanks rest with
    | '.' :: rest => do
      let (names, rest) ← readNames limit rest
      return (name :: names, rest)
    | rest => return ([name], rest)

/-- A key, and the text after the blanks that follow it. -/
def readKey (text : List Char) : Option (List String × List Char) :=
  readNames (text.length + 1) text

end Vitals.Toml
