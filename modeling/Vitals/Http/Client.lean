import Vitals.Access
import Vitals.Http.Exchange
import Vitals.Json.Fault
import Vitals.Url.Parser

/-!
# Asking over the network

How a question is put to a URL, what may come instead of an answer, and how the body of an
answer is read.
-/

namespace Vitals.Http

/-- Why there is no answer, or none that can be read. -/
inductive ClientFault where
  /-- The text is not a URL. -/
  | notUrl
  /-- A URL of this kind cannot be asked. -/
  | cannotAsk (url : Url)
  | unreachable (url : Url)
  | closed (url : Url)
  /-- No answer came in the time that there was. -/
  | silent (url : Url)
  /-- The body of the answer cannot be read. -/
  | undecodable
deriving Repr, DecidableEq, Inhabited

namespace ClientFault

/-- The wording of the fault. -/
def message : ClientFault → String
  | notUrl => "builder error"
  | cannotAsk url => s!"builder error for url ({url.text})"
  | unreachable url | closed url | silent url => s!"error sending request for url ({url.text})"
  | undecodable => "error decoding response body"

/-- What the fault means for the one who asked. -/
def toAccessFault (fault : ClientFault) : AccessFault :=
  match fault with
  | silent _ => .timeout
  | unreachable _ => .connection fault.message
  | undecodable => .parse fault.message
  | _ => .http fault.message

end ClientFault

/-! ## Questions -/

/-- The greatest length of a URL that can be asked. -/
def longestUrl : Nat := 65534

/-- Whether a URL can be asked. Some characters are taken in a name of a host but not asked
for. -/
def canAsk (url : Url) : Bool :=
  (url.scheme == "http" || url.scheme == "https")
    && url.host.any (fun host => host.toList.all fun c => !(['"', '`', '\x7b', '\x7d'].contains c))
    && url.text.utf8ByteSize ≤ longestUrl

/-- The URL that a text is, if it can be asked. -/
def askable (text : String) : Except ClientFault Url :=
  match Url.parse text with
  | .error _ => .error .notUrl
  | .ok url => if canAsk url then .ok url else .error (.cannotAsk url)

/-- A question that is put to a URL. -/
structure Question where
  url : String
  method : String
  contentType : Option String := none
  body : Body := {}
deriving Repr, DecidableEq, Inhabited

/-- The content type of JSON. -/
def jsonType : String := "application/json"

namespace Question

/-- A question without a body. -/
def get (url : String) : Question := { url, method := "GET" }

/-- A question whose body is JSON. -/
def postJson (url text : String) : Question :=
  { url, method := "POST", contentType := some jsonType, body := .ofText text }

/-- The request that puts a question to a URL. -/
def request (question : Question) (url : Url) : Request where
  method := question.method
  target := url.target
  contentType := question.contentType
  body := question.body

end Question

/-- The answer to a question. -/
def ask (network : Network) (question : Question) : Except ClientFault Response := do
  let url ← askable question.url
  match network url (question.request url) with
  | .answered response => return response
  | .unreachable => throw (.unreachable url)
  | .closed => throw (.closed url)
  | .silent => throw (.silent url)

/-! ## Answers -/

namespace Response

/-- The text of a body, for a message; empty where the body breaks off. -/
def detail (response : Response) : String :=
  if response.body.complete then Utf8.decodeLossy response.body.bytes else ""

/-- The value that the body of an answer writes, as `parse` reads it. -/
def decode {α : Type} (parse : List UInt8 → Except Json.Fault α) (response : Response) :
    Except ClientFault α :=
  if response.body.complete then
    match parse response.body.bytes with
    | .ok value => .ok value
    | .error _ => .error .undecodable
  else .error .undecodable

end Response

end Vitals.Http
