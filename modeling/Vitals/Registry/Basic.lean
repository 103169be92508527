import Vitals.Service

/-!
# Registries

A registry says which services there are and, by name, which nodes run them. `Registry` is
what one answers at one moment, and `Discovery` says how the answers come from the state that a
registry of some kind is in, and whether they have to be waited for.
-/

namespace Vitals

/-- Why a registry gives no answer. -/
inductive RegistryFault where
  /-- It cannot be reached. -/
  | unavailable (detail : String)
  /-- It knows no service of the name. -/
  | notFound (name : String)
  /-- Its answer cannot be understood. -/
  | invalid (detail : String)
deriving Repr, DecidableEq, Inhabited

/-- The wording of the fault. -/
def RegistryFault.message : RegistryFault → String
  | unavailable detail => s!"registry unavailable: {detail}"
  | notFound name => s!"service not found: {name}"
  | invalid detail => s!"invalid registry data: {detail}"

/-- The answers of a registry at one moment. -/
structure Registry where
  /-- Every service, possibly without its nodes. -/
  listing : Except RegistryFault (List Service)
  /-- Every version of the service of a name, with its nodes. -/
  lookup : String → Except RegistryFault (List Service)
deriving Inhabited

/-- Values of a type are the state of a registry, which answers accordingly. -/
class Discovery (ρ : Type) where
  /-- The answers of a registry in this state. -/
  view : ρ → Registry
  /-- Whether it answers at once, so that nothing can happen between a question and its answer. -/
  prompt : Bool

/-- The services of a name, of which there has to be one. -/
def namedServices (name : String) (services : List Service) :
    Except RegistryFault (List Service) :=
  match services.filter (·.name == name) with
  | [] => .error (.notFound name)
  | found => .ok found

end Vitals
