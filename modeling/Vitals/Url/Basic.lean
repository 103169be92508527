import Vitals.Url.Percent

/-!
# Uniform resource locators

The parts of a URL and its text. A user's name and password are no part of it: they are for the
one who is asked, and no message repeats them.
-/

namespace Vitals

/-- A URL in its normal form. -/
structure Url where
  scheme : String
  /-- The host as it is written, if there is one. -/
  host : Option String := none
  /-- The port, unless it is the usual one of the scheme. -/
  port : Option Nat := none
  path : String := ""
  query : Option String := none
  fragment : Option String := none
deriving Repr, DecidableEq, Inhabited

namespace Url

/-- The host and the port. -/
def authority (url : Url) : Option String :=
  url.host.map fun host => host ++ ((url.port.map fun port => s!":{port}").getD "")

/-- The text of a URL. Where a path without a host begins with two slashes, a dot keeps the
first name in it from being read as a host. -/
def text (url : Url) : String :=
  let beginning := match url.authority with
    | some authority => "//" ++ authority
    | none => if "//".toList.isPrefixOf url.path.toList then "/." else ""
  url.scheme ++ ":" ++ beginning ++ url.path ++ ((url.query.map ("?" ++ ·)).getD "")
    ++ ((url.fragment.map ("#" ++ ·)).getD "")

/-- What a server is asked for. -/
def target (url : Url) : String := url.path ++ (url.query.map ("?" ++ ·)).getD ""

end Url

end Vitals
