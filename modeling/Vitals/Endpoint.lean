import Vitals.Url.Percent

/-!
# Where requests are sent

The URLs that are made of an address and names. An address is a host with or without a port,
or the beginning of a URL; `Endpoint.read` is where a stats server is read, `Endpoint.call`
where a method of a service is called on a node, and `Endpoint.services` and
`Endpoint.service` where a registry is asked.
-/

namespace Vitals.Endpoint

/-- Whether a text begins with another one. -/
def begins (beginning text : String) : Bool := beginning.toList.isPrefixOf text.toList

/-- Whether an address is the beginning of a URL. -/
def isUrl (address : String) : Bool := begins "http://" address || begins "https://" address

/-- A text without the slashes at its end. -/
def withoutSlashes (text : String) : String :=
  String.ofList (text.toList.reverse.dropWhile (· == '/')).reverse

/-- Where the stats server at an address is read. -/
def read (address : String) : String :=
  let base := withoutSlashes address
  if isUrl base then base ++ "/stats/read" else "http://" ++ base ++ "/stats/read"

/-- The beginning of the URLs of a node. -/
def node (address : String) : String :=
  if isUrl address then withoutSlashes address else "http://" ++ address

/-- Where a method of a service is called on the node at an address. -/
def call (address service method : String) : String :=
  node address ++ "/" ++ Percent.escapeSegment service ++ "/" ++ Percent.escapeSegment method

/-- Where a registry lists its services. -/
def services (registry : String) : String := registry ++ "/services"

/-- Where a registry tells of the service of a name. -/
def service (registry name : String) : String :=
  registry ++ "/services/" ++ Percent.escapeSegment name

end Vitals.Endpoint
