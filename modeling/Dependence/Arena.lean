import Dependence.Chain
import Dependence.Missing
import Dependence.Payload
import Dependence.Slots

/-!
# Arenas

An arena owns the nodes of dependence graphs and the edges between them. Nodes and edges are never
removed, so a handle keeps leading to the same node. An arena that was read from text may have
vacant slots, and these are filled before the arena grows.

Edges lie in slots of their own. Every edge stands in two chains, that of the edges with the same
source and that of the edges with the same target. The listings `dependents` and `dependencies`
follow these chains: parallel edges are all kept, and an edge from a node to itself stands once in
either listing.
-/

namespace Dependence

/-- A dependence of the target on the source. -/
structure Edge where
  source : Handle
  target : Handle
  kind : Kind
  deriving DecidableEq

/-- Nodes and the edges between them, chained by their sources and by their targets. -/
structure Arena where
  nodes : Slots Payload := {}
  edges : Slots Edge := {}
  outgoing : Chain := {}
  incoming : Chain := {}
  deriving DecidableEq

namespace Arena

/-- The arena without nodes and edges. -/
def empty : Arena := {}

/-! ### Nodes -/

/-- The payload that a handle leads to. -/
def node? (a : Arena) (h : Handle) : Option Payload := a.nodes.get? h.index

/-- The payload that a handle leads to; a handle that leads nowhere is reported. -/
def node (a : Arena) (h : Handle) : Except Missing Payload :=
  match a.node? h with
  | some payload => .ok payload
  | none => .error (.node h)

/-- Whether a handle leads to a node. -/
def contains (a : Arena) (h : Handle) : Bool := (a.node? h).isSome

/-- How many nodes the arena has. -/
def nodeCount (a : Arena) : Nat := a.nodes.count

/-- The handle that the next new node gets. -/
def nextHandle (a : Arena) : Handle := .ofIndex a.nodes.next

/-- The arena with one more node, which is found under `nextHandle`. -/
def addNode (a : Arena) (payload : Payload) : Arena :=
  { a with nodes := a.nodes.insert payload }

/-! ### Edges -/

/-- How many edges the arena has. -/
def edgeCount (a : Arena) : Nat := a.edges.count

/-- Links an edge, without asking whether its ends are nodes. -/
def link (a : Arena) (edge : Edge) : Arena :=
  { a with
    edges := a.edges.insert edge
    outgoing := a.outgoing.link edge.source.index a.edges.next
    incoming := a.incoming.link edge.target.index a.edges.next }

/-- Links an edge between two nodes. Both must be there; the source is looked for first. -/
def connect (a : Arena) (edge : Edge) : Except Missing Arena :=
  if !a.contains edge.source then .error (.node edge.source)
  else if !a.contains edge.target then .error (.node edge.target)
  else .ok (a.link edge)

/-- The edges in the chain of a node; none, if the handle leads nowhere. -/
def chained (a : Arena) (chain : Chain) (h : Handle) : List Edge :=
  if a.contains h then (chain.slots h.index).filterMap a.edges.get? else []

/-- The nodes that depend on a node, each with the kind of its dependence. -/
def dependents (a : Arena) (h : Handle) : List (Handle × Kind) :=
  (a.chained a.outgoing h).map fun edge => (edge.target, edge.kind)

/-- The nodes that a node depends on, each with the kind of its dependence. -/
def dependencies (a : Arena) (h : Handle) : List (Handle × Kind) :=
  (a.chained a.incoming h).map fun edge => (edge.source, edge.kind)

end Arena

end Dependence
