import Dependence.Arena

/-!
# Blueprints

The plain description of an arena, in which it is written down and from which it is built: the
payloads of its nodes in the order of their slots, the slots that are vacant, and the edges in the
order of their slots with the vacant ones marked.

`Blueprint.build` checks a description and builds the arena that it describes; `Arena.blueprint`
describes an arena. A description does not tell in which order edges were linked, so building links
them in the order of their slots; and it leaves out the vacant slots after the last occupied one.
-/

namespace Dependence

/-- A description of an arena. -/
structure Blueprint where
  nodes : List Payload
  holes : List Handle := []
  isDirected : Bool := true
  edges : List (Option Edge)
  deriving DecidableEq

/-- Why a description describes no arena. -/
inductive Flaw
  /-- The edges have no direction. -/
  | undirected
  /-- A vacant slot is out of order, or beyond the last slot. -/
  | hole (index : Nat)
  /-- An edge ends beyond the last slot. -/
  | loose (index bound : Nat)
  deriving DecidableEq

/-- The sentence that says what is wrong with a description. -/
def Flaw.message : Flaw → String
  | .undirected => "graph edge property mismatch, expected Directed, found Undirected"
  | .hole i => "invalid value: node hole `" ++ toString i ++ "` is not allowed."
  | .loose i n =>
      "invalid value: node index `" ++ toString i ++
        "` does not exist in graph with node bound " ++ toString n

namespace Blueprint

/-- How many node slots a description speaks of. -/
def bound (b : Blueprint) : Nat := b.nodes.length + b.holes.length

/-- Lays out nodes from slot `start` on, leaving the given holes vacant. Every hole has to come after
the one before it and before `bound`. -/
def layOut (bound : Nat) : Nat → List Payload → List Nat → Except Flaw (List (Option Payload))
  | _, nodes, [] => .ok (nodes.map some)
  | start, nodes, hole :: holes =>
    if start ≤ hole ∧ hole < bound then do
      let rest ← layOut bound (hole + 1) (nodes.drop (hole - start)) holes
      .ok ((nodes.take (hole - start)).map some ++ none :: rest)
    else .error (.hole hole)

/-- The greater of the two ends of an edge. -/
def farEnd (edge : Edge) : Nat := max edge.source.index edge.target.index

/-- The first edge that has an end beyond the last slot. -/
def loose? (b : Blueprint) : Option Edge :=
  (b.edges.filterMap id).find? fun edge => b.bound ≤ farEnd edge

/-- The chains of edges that are linked in the order of their slots. -/
def chain (node : Edge → Handle) (edges : Slots Edge) : Chain :=
  edges.entries.foldl (fun c (slot, edge) => c.link (node edge).index slot) {}

/-- The arena that a description describes. -/
def build (b : Blueprint) : Except Flaw Arena :=
  if !b.isDirected then .error .undirected
  else do
    let cells ← layOut b.bound 0 b.nodes (b.holes.map Id.index)
    match b.loose? with
    | some edge => .error (.loose (farEnd edge) b.bound)
    | none =>
      let edges : Slots Edge := ⟨b.edges⟩
      .ok
        { nodes := ⟨cells⟩
          edges := edges
          outgoing := chain Edge.source edges
          incoming := chain Edge.target edges }

end Blueprint

/-- The description of an arena. -/
def Arena.blueprint (a : Arena) : Blueprint where
  nodes := a.nodes.present
  holes := a.nodes.trimmed.vacancies.map Id.ofIndex
  edges := a.edges.trimmed.cells

end Dependence
