import Vitals.Call
import Vitals.Registry.Basic

/-!
# Warnings

What goes wrong without stopping the work is told in a warning, which has a message and named
details.
-/

namespace Vitals

/-- Something that went wrong on the side. -/
inductive Warning where
  /-- A node gave no snapshot. -/
  | scrape (service address : String) (fault : CallFault)
  /-- The nodes of a service could not be looked up. -/
  | unresolved (service : String) (fault : RegistryFault)
  /-- The directory could not be brought up to date. -/
  | refresh (fault : RegistryFault)
  /-- The work on a node broke off. -/
  | aborted
deriving Repr, DecidableEq, Inhabited

namespace Warning

/-- The message of a warning. -/
def message : Warning → String
  | scrape .. => "error scraping node"
  | unresolved .. => "failed to resolve service nodes"
  | refresh _ => "directory refresh failed, keeping previous directory"
  | aborted => "scrape task aborted"

/-- The details of a warning with their names. -/
def details : Warning → List (String × String)
  | scrape service address fault =>
    [("service", service), ("address", address), ("error", fault.message)]
  | unresolved service fault => [("service", service), ("error", fault.message)]
  | refresh fault => [("error", fault.message)]
  | aborted => []

end Warning

end Vitals
