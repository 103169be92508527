import Vitals.Http.Exchange
import Vitals.Text.Digits

/-!
# Messages on a connection

Requests and answers as bytes. A message is a first line, headers and a body, whose end is told
by its length, by the last of its chunks or by the end of the connection. `Request.read` and
`Response.read` read what has arrived so far and say whether more has to arrive.
-/

namespace Vitals.Http

/-! ## Writing -/

/-- The end of a line. -/
def lineEnd : List UInt8 := [13, 10]

/-- The bytes of a message. -/
def writeMessage (start : String) (headers : List (String × String)) (body : List UInt8) :
    List UInt8 :=
  let line (text : String) : List UInt8 := Utf8.encode text ++ lineEnd
  line start ++ headers.flatMap (fun (name, value) => line (name ++ ": " ++ value)) ++ lineEnd
    ++ body

/-- The headers that a message with a body has in any case. -/
def bodyHeaders (contentType : Option String) (body : Body) : List (String × String) :=
  (contentType.toList.map fun value => ("content-type", value)) ++
    [("content-length", toString body.bytes.length), ("connection", "close")]

/-- The bytes of a request to a host. -/
def Request.write (host : String) (request : Request) : List UInt8 :=
  writeMessage (request.method ++ " " ++ request.target ++ " HTTP/1.1")
    (("host", host) :: ("accept", "*/*") :: bodyHeaders request.contentType request.body)
    request.body.bytes

/-- The bytes of an answer. -/
def Response.write (response : Response) : List UInt8 :=
  let reason := response.status.reason?.getD ""
  writeMessage s!"HTTP/1.1 {response.status.code} {reason}"
    (bodyHeaders response.contentType response.body) response.body.bytes

/-! ## Reading -/

/-- What has arrived of something. -/
inductive Arrival (α : Type) where
  | whole (value : α)
  /-- More has to arrive. -/
  | part
  | malformed

/-- The first line, without its end, and what follows it. -/
def splitLine (bytes : List UInt8) : Option (List UInt8 × List UInt8) :=
  match bytes.dropWhile (· ≠ 10) with
  | [] => none
  | _ :: rest =>
    let line := bytes.takeWhile (· ≠ 10)
    some (if line.getLast? = some 13 then line.dropLast else line, rest)

/-- The first line and the headers of a message. -/
structure Head where
  start : List String
  /-- The headers, their names in lower case. -/
  headers : List (String × String)
deriving Inhabited

/-- A header. -/
def readHeader (line : String) : String × String :=
  let name := line.toList.takeWhile (· ≠ ':')
  let value := (line.toList.drop (name.length + 1)).dropWhile (· == ' ')
  (String.ofList (name.map Char.toLower),
    String.ofList (value.reverse.dropWhile (· == ' ')).reverse)

/-- The lines up to an empty one, at most so many, and what follows that. -/
def splitHead : Nat → List UInt8 → Option (List String × List UInt8)
  | 0, _ => none
  | limit + 1, bytes => do
    let (line, rest) ← splitLine bytes
    if line.isEmpty then return ([], rest)
    let (lines, rest) ← splitHead limit rest
    return (Utf8.decodeLossy line :: lines, rest)

/-- The head of a message, and what follows it. -/
def readHead (bytes : List UInt8) : Option (Head × List UInt8) :=
  match splitHead bytes.length bytes with
  | some (start :: lines, rest) => some (⟨start.splitOn " ", lines.map readHeader⟩, rest)
  | _ => none

namespace Head

/-- The value of a header. -/
def header? (head : Head) (name : String) : Option String :=
  (head.headers.find? (·.1 == name)).map (·.2)

/-- Whether the body comes in chunks. -/
def isChunked (head : Head) : Bool :=
  (head.header? "transfer-encoding").any fun value => value.toLower == "chunked"

/-- The length of the body, if it is told. -/
def length? (head : Head) : Option Nat := (head.header? "content-length").bind fun length => decimal? length.toList

end Head

/-- The chunks of a body, at most so many: the bytes before the end or a fault, and what has
arrived. -/
def readChunks : Nat → List UInt8 → List UInt8 × Arrival Unit
  | 0, _ => ([], .part)
  | limit + 1, bytes =>
    match splitLine bytes with
    | none => ([], .part)
    | some (line, rest) =>
      let digits := (Utf8.decodeLossy line).toList.takeWhile (isDigitIn 16)
      let size := numberIn 16 digits
      if digits.isEmpty then ([], .malformed)
      else if size = 0 then ([], .whole ())
      else if rest.length < size then (rest, .part)
      else
        match splitLine (rest.drop size) with
        | none => (rest.take size, .part)
        | some ([], rest') =>
          let (more, arrival) := readChunks limit rest'
          (rest.take size ++ more, arrival)
        | some _ => (rest.take size, .malformed)

/-- The body after a head, and what has arrived of it. Without a length a request has no body,
and an answer ends with the connection. -/
def readBody (head : Head) (endsWithConnection : Bool) (bytes : List UInt8) :
    Body × Arrival Unit :=
  if head.isChunked then
    let (found, arrival) := readChunks (bytes.length + 1) bytes
    ({ bytes := found, complete := arrival matches .whole () }, arrival)
  else
    match head.length? with
    | some length =>
      if length ≤ bytes.length then ({ bytes := bytes.take length }, .whole ())
      else ({ bytes, complete := false }, .part)
    | none => if endsWithConnection then ({ bytes }, .part) else ({}, .whole ())

/-- A request; `closed` says that nothing more arrives. -/
def Request.read (closed : Bool) (bytes : List UInt8) : Arrival Request :=
  match readHead bytes with
  | none => if closed then .malformed else .part
  | some (head, rest) =>
    match head.start with
    | method :: target :: _ =>
      let (body, arrival) := readBody head false rest
      if !closed && arrival matches .part then .part
      else .whole { method, target, contentType := head.header? "content-type", body }
    | _ => .malformed

/-- An answer; `closed` says that nothing more arrives. -/
def Response.read (closed : Bool) (bytes : List UInt8) : Arrival Response :=
  match readHead bytes with
  | none => if closed then .malformed else .part
  | some (head, rest) =>
    match (head.start[1]?).bind fun code => decimal? code.toList with
    | some code =>
      let (body, arrival) := readBody head true rest
      if !closed && arrival matches .part then .part
      else .whole ⟨⟨code⟩, head.header? "content-type", body⟩
    | none => .malformed

end Vitals.Http
