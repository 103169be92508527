import Vitals.Endpoint
import Vitals.Http.Client
import Vitals.Wire.Json

/-!
# A registry on the network

The registry answers with lists of services as JSON: one URL lists all of them, and one URL for
each name gives every version of the service of that name.
-/

namespace Vitals

/-- A registry at an endpoint, as it is reached over a network. -/
structure HttpRegistry where
  endpoint : String
  network : Http.Network
deriving Inhabited

namespace HttpRegistry

/-- Where a registry is, unless it is said. -/
def defaultEndpoint : String := "http://localhost:8500"

/-- The registry at a place, which may be written with slashes at its end. -/
def ofPlace (place : Option String) (network : Http.Network) : HttpRegistry where
  endpoint := Endpoint.withoutSlashes (place.getD defaultEndpoint)
  network

/-- The services that an answer gives; `name` is the name that was asked for, if any. -/
def servicesOf (name : Option String) (response : Http.Response) :
    Except AccessFault (List Service) :=
  match name, response.status == .notFound with
  | some name, true => .error (.notFound name)
  | _, _ =>
    if response.status.isSuccess then
      (response.decode (Json.Codec.list Service.codec).parse).mapError
        Http.ClientFault.toAccessFault
    else .error (.http s!"API returned status {response.status.text}")

/-- The question for every service. -/
def listingQuestion (registry : HttpRegistry) : Http.Question :=
  .get (Endpoint.services registry.endpoint)

/-- The question for the service of a name. -/
def lookupQuestion (registry : HttpRegistry) (name : String) : Http.Question :=
  .get (Endpoint.service registry.endpoint name)

/-- Asks the registry. -/
def fetch (registry : HttpRegistry) (question : Http.Question) (name : Option String) :
    Except AccessFault (List Service) :=
  match Http.ask registry.network question with
  | .ok response => servicesOf name response
  | .error fault => .error fault.toAccessFault

/-- Every service. -/
def listing (registry : HttpRegistry) : Except AccessFault (List Service) :=
  registry.fetch registry.listingQuestion none

/-- Every version of the service of a name, of which there has to be one. -/
def lookup (registry : HttpRegistry) (name : String) : Except AccessFault (List Service) := do
  match ← registry.fetch (registry.lookupQuestion name) (some name) with
  | [] => throw (.notFound name)
  | services => return services

/-- The answers of the registry. -/
def view (registry : HttpRegistry) : Registry where
  listing := registry.listing.mapError AccessFault.toRegistryFault
  lookup name := (registry.lookup name).mapError AccessFault.toRegistryFault

instance : Discovery HttpRegistry := ⟨view, false⟩

end HttpRegistry

end Vitals
