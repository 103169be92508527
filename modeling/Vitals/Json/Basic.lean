import Vitals.Binary64.Basic

/-!
# JSON documents

A document is a tree of scalars, lists and objects. The members of an object stand in the
order in which they are written; a document that was read has them in the order of their
names (`Json.parse`).
-/

namespace Vitals

/-- A JSON document. -/
inductive Json where
  | null
  | flag (value : Bool)
  | integer (value : Int)
  | real (value : Binary64)
  | text (value : String)
  | list (items : List Json)
  | object (members : List (String × Json))
deriving Repr, Inhabited

namespace Json

/-- The value of the first member with the name, if the document is an object that has
one. -/
def member? (name : String) : Json → Option Json
  | object members => (members.find? fun m => m.1 = name).map Prod.snd
  | _ => none

end Json

end Vitals
