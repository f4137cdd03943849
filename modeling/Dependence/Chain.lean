import Dependence.Slots

/-!
# Chains

The edges that begin at one node, or those that end at one node, hang together in a chain. A node
knows the slot of the edge linked to it last, and an edge knows the slot of the edge linked to the
same node before it. Linking an edge therefore changes two links, and the edges of a node are found
by following the links, the edge linked last coming first.

One `Chain` keeps the chains of all nodes for one of the two ends of the edges. An edge stands in the
chain of one node only, so no walk is longer than there are links.
-/

namespace Dependence

/-- For each node the slot of its first edge, and for each edge the slot of the next one. -/
structure Chain where
  first : Slots Nat := {}
  next : Slots Nat := {}
  deriving DecidableEq

namespace Chain

/-- Puts the edge in a slot in front of the chain of a node. -/
def link (c : Chain) (node slot : Nat) : Chain where
  first := c.first.assign node (some slot)
  next := c.next.assign slot (c.first.get? node)

/-- The slots on the way from a given one, at most so many. -/
def walk (c : Chain) : Nat → Option Nat → List Nat
  | fuel + 1, some slot => slot :: c.walk fuel (c.next.get? slot)
  | _, _ => []

/-- The slots of the edges of a node. -/
def slots (c : Chain) (node : Nat) : List Nat := c.walk c.next.cells.length (c.first.get? node)

end Chain

end Dependence
