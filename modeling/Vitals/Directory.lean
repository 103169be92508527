import Vitals.Warning

/-!
# The directory of services

The directory is the best known list of services with their nodes. A refresh asks a registry
for all of them: services listed without nodes are looked up by name, and of several services
with one identity the last one found stands. A service whose lookup fails is left out until
the next refresh; a refresh without a listing leaves the directory as it was.

A registry may take its time to answer. `Survey` is a scan between a question and its answer,
and `Survey.answer` says where the answer takes it.
-/

namespace Vitals

/-- The services known, and how many lists of them have been put in place. -/
structure Directory where
  services : List Service := []
  revision : Nat := 0
deriving Inhabited

/-- What a registry was asked and what it gave. -/
structure Scan where
  /-- The names looked up, in order. -/
  lookups : List String := []
  /-- The lookups that failed. -/
  failures : List (String × RegistryFault) := []
  /-- The services found. -/
  found : OrderedMap Identity Service := .empty
deriving Inhabited

namespace Scan

/-- Takes in services that were found. -/
def add (scan : Scan) (services : List Service) : Scan :=
  { scan with
    found := services.foldl (fun found service => found.put service.identity service) scan.found }

/-- Takes in what the lookup of a name gave. -/
def take (scan : Scan) (name : String) (found : Except RegistryFault (List Service)) : Scan :=
  let scan := { scan with lookups := scan.lookups ++ [name] }
  match found with
  | .ok services => scan.add services
  | .error fault => { scan with failures := scan.failures ++ [(name, fault)] }

/-- Takes in an entry of the listing. -/
def visit (registry : Registry) (scan : Scan) (entry : Service) : Scan :=
  if entry.nodes.isEmpty then scan.take entry.name (registry.lookup entry.name)
  else scan.add [entry]

/-- Asks a registry for all services. -/
def ofRegistry (registry : Registry) : Except RegistryFault Scan :=
  registry.listing.map (·.foldl (visit registry) {})

/-- The services found, in the order of their identities. -/
def services (scan : Scan) : List Service := scan.found.values

/-- What went wrong on the side. -/
def warnings (scan : Scan) : List Warning :=
  scan.failures.map fun (name, fault) => .unresolved name fault

end Scan

/-- A scan that waits for an answer of the registry. -/
inductive Survey where
  /-- It waits for the listing. -/
  | listing
  /-- It waits for the lookup of a name; the rest of the listing comes after that. -/
  | lookup (scan : Scan) (name : String) (rest : List Service)
deriving Inhabited

namespace Survey

/-- Where a scan is after an answer. -/
inductive Outcome where
  | waits (survey : Survey)
  | done (result : Except RegistryFault Scan)
deriving Inhabited

/-- Takes in the entries of a listing up to the first that has to be looked up. -/
def resume (scan : Scan) : List Service → Outcome
  | [] => .done (.ok scan)
  | entry :: rest =>
    if entry.nodes.isEmpty then .waits (.lookup scan entry.name rest)
    else resume (scan.add [entry]) rest

/-- Takes in the answer of the registry. -/
def answer (registry : Registry) : Survey → Outcome
  | listing =>
    match registry.listing with
    | .ok entries => resume {} entries
    | .error fault => .done (.error fault)
  | lookup scan name rest => resume (scan.take name (registry.lookup name)) rest

/-- What the answer gives to warn of. -/
def warnings (registry : Registry) : Survey → List Warning
  | listing => []
  | lookup _ name _ =>
    match registry.lookup name with
    | .ok _ => []
    | .error fault => [.unresolved name fault]

/-- How many answers it takes at most until the scan is over, if the registry stays as it is. -/
def answersLeft (registry : Registry) : Survey → Nat
  | listing => (registry.listing.toOption.getD []).length + 1
  | lookup _ _ rest => rest.length + 1

end Survey

namespace Directory

/-- The number of nodes of all services. -/
def nodeCount (directory : Directory) : Nat :=
  directory.services.foldl (fun count service => count + service.nodes.length) 0

/-- The directory of another list of services. -/
def replace (directory : Directory) (services : List Service) : Directory :=
  ⟨services, directory.revision + 1⟩

/-- The directory once a scan has come to its result. -/
def adopt (directory : Directory) : Except RegistryFault Scan → Directory
  | .ok scan => directory.replace scan.services
  | .error _ => directory

/-- Brings the directory up to date, if the registry has a listing. -/
def refresh (directory : Directory) (registry : Registry) :
    Except RegistryFault Scan × Directory :=
  let result := Scan.ofRegistry registry
  (result, directory.adopt result)

end Directory

end Vitals
