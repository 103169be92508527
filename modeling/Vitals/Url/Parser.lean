import Vitals.Url.Basic
import Vitals.Url.Host

/-!
# Reading URLs

`Url.parse` reads a URL that stands by itself and puts it into its normal form: the scheme and
the host in lower case, the usual port left out, the names `.` and `..` taken out of the path,
and what must not stand in a part written with `%`.
-/

namespace Vitals

/-- Why a text is not a URL. -/
inductive UrlFault where
  /-- It begins with no scheme. -/
  | noScheme
  /-- It names no host where it has to. -/
  | emptyHost
  | host
  | port
deriving Repr, DecidableEq, Inhabited

namespace Url

/-! ## Schemes -/

/-- The usual ports of the schemes of the web. -/
def webPorts : List (String × Nat) :=
  [("http", 80), ("https", 443), ("ws", 80), ("wss", 443), ("ftp", 21)]

/-- How the rest of a URL is read, depending on its scheme. -/
inductive Manner where
  /-- It has a host, and a backslash counts as a slash. -/
  | web
  /-- It may have a host, and a backslash counts as a slash. -/
  | file
  | other
deriving Repr, DecidableEq

/-- How a URL of a scheme is read. -/
def manner (scheme : String) : Manner :=
  if webPorts.any (·.1 == scheme) then .web else if scheme == "file" then .file else .other

/-- Whether a character may stand in a scheme after its first letter. -/
def isSchemeChar (c : Char) : Bool := c.isAlphanum || c == '+' || c == '-' || c == '.'

/-- The scheme at the beginning of a text, and what follows its colon. -/
def readScheme (text : List Char) : Option (String × List Char) :=
  let scheme := text.takeWhile isSchemeChar
  match scheme, text.dropWhile isSchemeChar with
  | first :: _, ':' :: rest =>
    if first.isAlpha then some (String.ofList (scheme.map Char.toLower), rest) else none
  | _, _ => none

/-! ## Characters -/

/-- Whether a character separates the names of a path. -/
def isSlash (manner : Manner) (c : Char) : Bool := c == '/' || (manner != .other && c == '\\')

/-- Whether a character ends the part of a URL before its path. -/
def endsAuthority (manner : Manner) (c : Char) : Bool :=
  isSlash manner c || c == '?' || c == '#'

/-- Whether a character is a printable one of ASCII and none of some others. -/
def isPlainBut (others : List Char) (c : Char) : Bool :=
  0x20 ≤ c.toNat && c.toNat < 0x7f && !others.contains c

/-- What may stand in a path. -/
def inPath : Char → Bool := isPlainBut [' ', '"', '#', '<', '>', '?', '`', '\x7b', '\x7d']

/-- What may stand in a query. -/
def inQuery (manner : Manner) (c : Char) : Bool :=
  isPlainBut [' ', '"', '#', '<', '>'] c && !(manner != .other && c == '\'')

/-- What may stand in a fragment. -/
def inFragment : Char → Bool := isPlainBut [' ', '"', '<', '>', '`']

/-! ## Host and port -/

/-- What follows the name and the password of a user. -/
def afterUser (manner : Manner) (text : List Char) : Except UrlFault (List Char) :=
  let authority := text.takeWhile (!endsAuthority manner ·)
  if '@' ∈ authority then
    let kept := (authority.reverse.takeWhile (· ≠ '@')).reverse
    let user := authority.take (authority.length - kept.length - 1)
    let rest := text.dropWhile (!endsAuthority manner ·)
    if kept.isEmpty && (!user.isEmpty || !rest.isEmpty) then .error .emptyHost
    else .ok (kept ++ rest)
  else .ok text

/-- The characters of a host at the beginning of a text; a colon ends it unless brackets are
open. -/
def hostChars (manner : Manner) : Bool → List Char → List Char
  | _, [] => []
  | bracketed, c :: rest =>
    if endsAuthority manner c || (c == ':' && !bracketed) then []
    else c :: hostChars manner (c == '[' || (bracketed && c != ']')) rest

/-- The port at the beginning of a text, if one is written. -/
def readPort (text : List Char) : Except UrlFault (Option Nat × List Char) :=
  match text with
  | ':' :: rest =>
    let digits := rest.takeWhile Char.isDigit
    let after := rest.dropWhile Char.isDigit
    let port := numberIn 10 digits
    if 65535 < port || !(after.head?.all fun c => c ∈ ['/', '\\', '?', '#']) then .error .port
    else .ok (if digits.isEmpty then none else some port, after)
  | text => .ok (none, text)

/-- The host and the port at the beginning of a text. -/
def readHost (scheme : String) (manner : Manner) (text : List Char) :
    Except UrlFault (Option String × Option Nat × List Char) := do
  let host := hostChars manner false text
  let rest := text.drop host.length
  if host.isEmpty then
    if manner == .web || rest.head? == some ':' then throw .emptyHost
    return (some "", none, rest)
  let parsed := if manner == .other then Host.opaque? host else Host.parse? host
  match parsed with
  | none => throw .host
  | some name =>
    let (port, rest) ← readPort rest
    let usual := (webPorts.find? (·.1 == scheme)).map (·.2)
    return (some name, if port = usual then none else port, rest)

/-! ## Path, query and fragment -/

/-- Whether a name in a path stands for the path itself. -/
def isDot (name : String) : Bool := name.toLower ∈ [".", "%2e"]

/-- Whether a name in a path stands for the path above. -/
def isDoubleDot (name : String) : Bool :=
  name.toLower ∈ ["..", "%2e%2e", "%2e.", ".%2e"]

/-- The names of a path, the last one first, after one more name; `last` says that no slash
follows the name. -/
def addName (last : Bool) (names : List String) (name : String) : List String :=
  if isDoubleDot name then if last then "" :: names.drop 1 else names.drop 1
  else if isDot name then if last then "" :: names else names
  else name :: names

/-- The names of a path in which those that stand for another path are followed. -/
def addNames (names : List String) : List String → List String
  | [] => names
  | [name] => addName true names name
  | name :: others => addNames (addName false names name) others

/-- The names between the slashes of a text. -/
def splitPath (manner : Manner) (text : List Char) : List String :=
  (text.splitOnP (isSlash manner)).map fun name => String.ofList (Percent.encode inPath name)

/-- The normal form of a path, which begins with a slash. -/
def normalPath (manner : Manner) (text : List Char) : String :=
  let names := (addNames [] (splitPath manner text)).reverse
  String.join (names.map ("/" ++ ·))

/-- The path of a URL with a host, or of one whose path begins with a slash. -/
def readPath (manner : Manner) (text : List Char) : String :=
  match text with
  | [] => if manner == .other then "" else "/"
  | c :: rest => if isSlash manner c then normalPath manner rest else normalPath manner text

/-- The text after a mark, if the mark is there. -/
def after? (mark : Char) (text : List Char) : Option (List Char) :=
  match text.dropWhile (· ≠ mark) with
  | [] => none
  | _ :: rest => some rest

/-! ## The whole -/

/-- The parts of a text at its first `#` and at the first `?` before it. -/
def splitMarks (text : List Char) : List Char × Option (List Char) × Option (List Char) :=
  let beforeFragment := text.takeWhile (· ≠ '#')
  (beforeFragment.takeWhile (· ≠ '?'), after? '?' beforeFragment, after? '#' text)

/-- Whether a character is left out at both ends of a URL. -/
def isOuter (c : Char) : Bool := c.toNat ≤ 0x20

/-- The characters that count. -/
def significant (text : List Char) : List Char :=
  let inner := ((text.dropWhile isOuter).reverse.dropWhile isOuter).reverse
  inner.filter fun c => !(c == '\t' || c == '\n' || c == '\r')

/-- The URL of a scheme and what follows the scheme. -/
def ofParts (scheme : String) (text : List Char) : Except UrlFault Url := do
  let manner := manner scheme
  let (body, query, fragment) := splitMarks text
  let query := query.map fun q => String.ofList (Percent.encode (inQuery manner) q)
  let fragment := fragment.map fun f => String.ofList (Percent.encode inFragment f)
  let hosted (text : List Char) : Except UrlFault Url := do
    let (host, port, rest) ← readHost scheme manner (← afterUser manner text)
    return { scheme, host, port, path := readPath manner rest, query, fragment }
  match manner with
  | .web => hosted (body.dropWhile (isSlash manner))
  | .file =>
    match body with
    | c :: d :: rest =>
      if isSlash manner c && isSlash manner d then
        let name := rest.takeWhile (!isSlash manner ·)
        let path := readPath manner (rest.drop name.length)
        if name.isEmpty then return { scheme, host := some "", path, query, fragment }
        match Host.parse? name with
        | none => throw .host
        | some host =>
          let host := if host == "localhost" then "" else host
          return { scheme, host := some host, path, query, fragment }
      else return { scheme, host := some "", path := readPath manner body, query, fragment }
    | body => return { scheme, host := some "", path := readPath manner body, query, fragment }
  | .other =>
    match body with
    | '/' :: '/' :: rest => hosted rest
    | '/' :: _ => return { scheme, path := readPath manner body, query, fragment }
    | body =>
      let path := String.ofList (Percent.encode (isPlainBut []) body)
      return { scheme, path, query, fragment }

/-- The URL that a text is. -/
def parse (text : String) : Except UrlFault Url :=
  match readScheme (significant text.toList) with
  | none => .error .noScheme
  | some (scheme, rest) => ofParts scheme rest

end Url

end Vitals
