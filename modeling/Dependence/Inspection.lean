import Dependence.Persistence
import Dependence.Snapshot
import Dependence.Store

/-!
# Inspection

The snapshots of all values of the domain, and the texts of identities and of missing things.

A style reaches every number and truth value inside a value. The message of a missing thing obeys no
style at all.
-/

namespace Dependence

/-! ### Identities and missing things -/

/-- An identity is shown with the name of its kind. -/
def Id.snapshot {e : Entity} (x : Id e) : Snapshot := .tuple e.idName [.number x.index]

/-- An identity as a bare number. -/
def Id.display {e : Entity} (style : Style) (x : Id e) : String := String.ofList (style.number x.index)

/-- A missing thing is shown as its sentence in any style. -/
def Missing.display (_ : Style) (m : Missing) : String := m.message

/-- The parts of a missing thing. -/
def Missing.snapshot : Missing → Snapshot
  | .formal f a => .record "FormalArgNotFound" [("function", f.snapshot), ("arg", a.snapshot)]
  | .value f v => .record "ValueNotFound" [("function", f.snapshot), ("value", v.snapshot)]
  | .node h => .record "NodeNotFound" [("id", h.snapshot)]

/-- A value that may be absent. -/
def Snapshot.optional : Option Snapshot → Snapshot
  | none => .verbatim "None"
  | some x => .tuple "Some" [x]

/-! ### Declarations, calls, payloads -/

/-- A declaration with its parts. -/
def Declaration.snapshot (d : Declaration) : Snapshot :=
  .record "FunctionDecl"
    [("id", d.id.snapshot), ("name", .text d.name), ("params", .list (d.params.map Id.snapshot)),
      ("is_var_arg", .boolean d.isVariadic)]

/-- A call with its parts. -/
def Call.snapshot (c : Call) : Snapshot :=
  .record "CallSite"
    [("instruction", c.instruction.snapshot), ("callee", .optional (c.callee.map Id.snapshot))]

/-- A payload with its parts. -/
def Payload.snapshot : Payload → Snapshot
  | .formal f a => .record "FormalArgument" [("function", f.snapshot), ("arg", a.snapshot)]
  | .value v => .record "Value" [("value", v.snapshot)]
  | .variadic f => .record "VarArg" [("function", f.snapshot)]
  | .synthetic label => .record "Synthetic" [("label", .text label)]

/-- A kind of dependence is shown as its name. -/
def Kind.snapshot (k : Kind) : Snapshot := .verbatim k.name

/-! ### Stores -/

/-- The name of a stage. -/
def Stage.name : Stage → String
  | .building => "Building"
  | .built => "Built"

/-- A stage is shown as its name. -/
def Stage.snapshot (s : Stage) : Snapshot := .verbatim s.name

/-- An index is a table in the order of recording. -/
def Index.snapshot {key : Entity} (x : Index key) : Snapshot :=
  .table (x.entries.map fun (k, node) => (k.snapshot, node.snapshot))

/-- A store with its parts. -/
def Store.snapshot (s : Store) : Snapshot :=
  .record "FunctionPdg"
    [("function", s.declaration.snapshot), ("state", s.stage.snapshot),
      ("formal_arg_nodes", s.formals.snapshot),
      ("var_arg_node", .optional (s.variadicNode.map Id.snapshot)),
      ("value_nodes", s.values.snapshot), ("nodes", .list (s.listed.map Id.snapshot)),
      ("call_sites", .list (s.calls.map Call.snapshot))]

/-! ### Arenas -/

/-- The slot that is filled next, or the greatest word when no slot is vacant. -/
def Slots.vacancyWord {α : Type} (s : Slots α) : Nat := s.vacancy?.getD (UInt32.size - 1)

/-- The occupied slots as a table. -/
def Slots.snapshot {α : Type} (s : Slots α) (item : α → Snapshot) : Snapshot :=
  .table (s.entries.map fun (i, x) => (.number i, item x))

/-- The ends of an edge, in any style. -/
def Edge.ends (e : Edge) : List Char :=
  '(' :: Nat.toDigits 10 e.source.index ++ [',', ' '] ++ Nat.toDigits 10 e.target.index ++ [')']

/-- A word with a number in brackets, in any style. -/
def Snapshot.wrapped (name : String) (n : Nat) : Snapshot :=
  .verbatim (name ++ "(" ++ toString n ++ ")")

/-- An arena with its parts. The ends of the edges stand on one line in the order of their slots,
and are left out when there is no edge. -/
def Arena.snapshot (a : Arena) : Snapshot :=
  let ends :=
    if a.edgeCount = 0 then []
    else
      [("edges", .verbatim (String.ofList (Snapshot.inline (a.edges.present.map Edge.ends))))]
  .record "DependenceGraph"
    [("graph",
      .record "StableGraph"
        ([("Ty", .text "Directed"), ("node_count", .number a.nodeCount),
            ("edge_count", .number a.edgeCount)] ++ ends ++
          [("node weights", a.nodes.snapshot Payload.snapshot),
            ("edge weights", a.edges.snapshot fun e => e.kind.snapshot),
            ("free_node", .wrapped "NodeIndex" a.nodes.vacancyWord),
            ("free_edge", .wrapped "EdgeIndex" a.edges.vacancyWord)]))]

end Dependence
