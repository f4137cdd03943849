import Dependence.Arena.Blueprint
import Dependence.Declaration
import Dependence.Format.Choice

/-!
# Persistence

How declarations, calls, payloads, kinds of dependence and whole arenas are written as JSON and read
back.

* An identity is its number.
* A payload is an object with one member, named for what the node stands for.
* An arena is written as its blueprint, and read by building what a blueprint describes.
-/

namespace Dependence

/-- An identity is its number. -/
def Id.format {e : Entity} : Format (Id e) := Format.word.map Id.mk Id.word

/-! ### Declarations and calls -/

/-- The fields of a declaration. -/
def Declaration.row :=
  Row.field "id" (@Id.format .function) <| .field "name" .string <|
    .field "params" (.list (@Id.format .argument)) <| .field "is_var_arg" .boolean .nil

/-- A declaration is a record. -/
def Declaration.format : Format Declaration :=
  (Format.record "FunctionDecl" Declaration.row).map
    (fun (id, name, params, isVariadic, ()) => { id, name, params, isVariadic })
    (fun d => (d.id, d.name, d.params, d.isVariadic, ()))

/-- The fields of a call. Without a callee it is a call through a pointer. -/
def Call.row :=
  Row.field "instruction" (@Id.format .instruction) <|
    .cons "callee" (.optional (@Id.format .function)) (some none) none .nil

/-- A call is a record. -/
def Call.format : Format Call :=
  (Format.record "CallSite" Call.row).map
    (fun (instruction, callee, ()) => { instruction, callee })
    (fun c => (c.instruction, c.callee, ()))

/-! ### Payloads and kinds -/

namespace Payload

/-- The fields of a formal argument. -/
def formalRow :=
  Row.field "function" (@Id.format .function) <| .field "arg" (@Id.format .argument) .nil

/-- The fields of a value. -/
def valueRow := Row.field "value" (@Id.format .value) .nil

/-- The fields of the further arguments of a function. -/
def variadicRow := Row.field "function" (@Id.format .function) .nil

/-- The fields of a node that belongs to no value. -/
def syntheticRow := Row.field "label" .string .nil

/-- A payload as a tree. -/
def write : Payload → Json
  | formal f a => .object [("FormalArgument", .object (formalRow.write (f, a, ())))]
  | value v => .object [("Value", .object (valueRow.write (v, ())))]
  | variadic f => .object [("VarArg", .object (variadicRow.write (f, ())))]
  | synthetic label => .object [("Synthetic", .object (syntheticRow.write (label, ())))]

/-- How each kind of payload is read. -/
def branches : List (Branch Payload) :=
  [.record "PdgNode" "FormalArgument" formalRow (fun (f, a, ()) => formal f a),
    .record "PdgNode" "Value" valueRow (fun (v, ()) => value v),
    .record "PdgNode" "VarArg" variadicRow (fun (f, ()) => variadic f),
    .record "PdgNode" "Synthetic" syntheticRow (fun (label, ()) => synthetic label)]

/-- A payload is a choice between records. -/
def format : Format Payload := .choice branches write

end Payload

namespace Kind

/-- The name of a kind of dependence. -/
def name : Kind → String
  | data => "Data"
  | control => "Control"
  | defUse => "DefUse"

/-- How each kind of dependence is read. -/
def branches : List (Branch Kind) :=
  [.constant data.name data, .constant control.name control, .constant defUse.name defUse]

/-- A kind of dependence is its name. -/
def format : Format Kind := .choice branches fun k => .string k.name

end Kind

/-! ### Arenas -/

/-- The parts of an edge. -/
def Edge.row :=
  Row.field "source" (@Id.format .node) <| .field "target" (@Id.format .node) <|
    .field "kind" Kind.format .nil

/-- An edge is a tuple of its source, its target and its kind. -/
def Edge.format : Format Edge :=
  (Format.tuple Edge.row).map
    (fun (source, target, kind, ()) => { source, target, kind })
    (fun e => (e.source, e.target, e.kind, ()))

namespace Blueprint

/-- Whether edges have a direction is written as a word. -/
def directionFormat : Format Bool :=
  .choice [.constant "undirected" false, .constant "directed" true]
    fun isDirected => .string (if isDirected then "directed" else "undirected")

/-- The fields of a blueprint. Without a list of holes it has none. -/
def row :=
  Row.field "nodes" (.list Payload.format) <|
    .cons "node_holes" (.list (@Id.format .node)) (some []) (some []) <|
    .field "edge_property" directionFormat <| .field "edges" (.list (.optional Edge.format)) .nil

/-- A blueprint is a record. -/
def format : Format Blueprint :=
  (Format.record "DeserStableGraph" row).map
    (fun (nodes, holes, isDirected, edges, ()) => { nodes, holes, isDirected, edges })
    (fun b => (b.nodes, b.holes, b.isDirected, b.edges, ()))

end Blueprint

namespace Arena

/-- The arena that a blueprint describes, or the sentence that says why it describes none. -/
def ofBlueprint (b : Blueprint) : Except String Arena := b.build.mapError Flaw.message

/-- The field of an arena. -/
def row := Row.field "graph" (Blueprint.format.refine ofBlueprint blueprint) .nil

/-- An arena is a record with its blueprint. -/
def format : Format Arena :=
  (Format.record "DependenceGraph" row).map
    (fun (arena, ()) => arena)
    (fun arena => (arena, ()))

/-- An arena as text. -/
def dump (a : Arena) : String := format.text a

end Arena

end Dependence
