import Vitals.Registry.Basic

/-!
# A registry in memory

Services are registered and deregistered one at a time. The listing leaves their nodes out,
so that each has to be looked up.
-/

namespace Vitals

/-- The services registered, one of each identity, in the order of their registration. -/
structure MemoryRegistry where
  services : List Service := []
  /-- Whether it refuses every answer. -/
  offline : Bool := false
deriving Inhabited

namespace MemoryRegistry

/-- Registers a service in the place of the one of its identity. -/
def register (registry : MemoryRegistry) (service : Service) : MemoryRegistry :=
  { registry with
    services := registry.services.filter (·.identity ≠ service.identity) ++ [service] }

/-- Whether a version of the service is registered. -/
def holds (registry : MemoryRegistry) (name : String) : Bool :=
  registry.services.any (·.name == name)

/-- Removes every version of a service. -/
def deregister (registry : MemoryRegistry) (name : String) : MemoryRegistry :=
  { registry with services := registry.services.filter (·.name ≠ name) }

/-- Makes it refuse every answer, or answer again. -/
def setOffline (registry : MemoryRegistry) (offline : Bool) : MemoryRegistry :=
  { registry with offline }

/-- What it answers while it refuses every answer. -/
def offlineFault : RegistryFault := .unavailable "registry offline"

/-- Its answers. -/
def view (registry : MemoryRegistry) : Registry where
  listing :=
    if registry.offline then .error offlineFault
    else .ok (registry.services.map Service.withoutNodes)
  lookup name :=
    if registry.offline then .error offlineFault else namedServices name registry.services

instance : Discovery MemoryRegistry := ⟨view, true⟩

end MemoryRegistry

end Vitals
