import Vitals.Binary64.Basic

/-!
# TOML values

What the keys of a TOML document may have as values.
-/

namespace Vitals

/-- A TOML value. -/
inductive Toml where
  | string (s : String)
  | integer (n : Int)
  | real (x : Binary64)
  | flag (b : Bool)
  /-- A date, a time or both, in their normal form. -/
  | date (text : String)
  | list (items : List Toml)
  /-- The entries in their order; no name is repeated. -/
  | table (entries : List (String × Toml))
deriving Repr, Inhabited

end Vitals
