import Vitals.OrderedMap

/-!
# Services and their nodes

What a registry knows: versions of services, each with the nodes that run it.
-/

namespace Vitals

/-- What is said about a node or a service beyond its name. -/
abbrev Metadata := OrderedMap String String

/-- A running node of a service. -/
structure Node where
  id : String := ""
  address : String := ""
  metadata : Metadata := .empty
deriving DecidableEq, Inhabited

namespace Node

/-- The key under which a node says how it is to be called. -/
def protocolKey : String := "protocol"

/-- The node with an entry more. -/
def withMetadata (node : Node) (key value : String) : Node :=
  { node with metadata := node.metadata.put key value }

/-- The node, to be called by the protocol. -/
def withProtocol (node : Node) (protocol : String) : Node :=
  node.withMetadata protocolKey protocol

/-- How the node says it is to be called. -/
def protocol? (node : Node) : Option String := node.metadata.get? protocolKey

end Node

/-- A version of a service with its nodes. -/
structure Service where
  name : String := ""
  version : String := ""
  metadata : Metadata := .empty
  nodes : List Node := []
deriving DecidableEq, Inhabited

/-- The name and the version of a service. -/
structure Identity where
  name : String
  version : String
deriving Repr, DecidableEq, Inhabited

namespace Identity

/-- Identities are ordered by name, and under one name by version. -/
instance : LT Identity where
  lt a b := a.name < b.name ∨ a.name = b.name ∧ a.version < b.version

instance : DecidableLT Identity := fun a b =>
  inferInstanceAs (Decidable (a.name < b.name ∨ a.name = b.name ∧ a.version < b.version))

theorem lt_trans {a b c : Identity} (hab : a < b) (hbc : b < c) : a < c := by
  rcases hab with hab | ⟨hab, vab⟩ <;> rcases hbc with hbc | ⟨hbc, vbc⟩
  · exact .inl (String.lt_trans hab hbc)
  · exact .inl (hbc ▸ hab)
  · exact .inl (hab ▸ hbc)
  · exact .inr ⟨hab.trans hbc, String.lt_trans vab vbc⟩

instance : Trans (α := Identity) (· < ·) (· < ·) (· < ·) := ⟨lt_trans⟩

end Identity

namespace Service

/-- What tells a service from another. -/
def identity (service : Service) : Identity := ⟨service.name, service.version⟩

/-- The service with a node more. -/
def withNode (service : Service) (node : Node) : Service :=
  { service with nodes := service.nodes ++ [node] }

/-- The service without its nodes. -/
def withoutNodes (service : Service) : Service := { service with nodes := [] }

end Service

end Vitals
