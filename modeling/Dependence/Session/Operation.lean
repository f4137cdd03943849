import Dependence.Session.Answer

/-!
# Operations

The operations on an arena and on a store, as data. A query only looks; an update changes the arena
or the store that it is carried out on, and reports events.
-/

namespace Dependence

/-! ### On an arena -/

namespace Arena

/-- Questions to an arena. -/
inductive Query
  | node (h : Handle)
  | tryNode (h : Handle)
  | contains (h : Handle)
  | nodeCount
  | edgeCount
  | dependencies (h : Handle)
  | dependents (h : Handle)
  | dump
  | describe (isSpacious : Bool)

/-- Changes of an arena. -/
inductive Update
  | addNode (payload : Payload)
  | connect (edge : Edge)

/-- The answer to a question. -/
def ask (a : Arena) : Query → Except Failure Answer
  | .node h => .ok (.optionalPayload (a.node? h))
  | .tryNode h => answerOf (fun p => .optionalPayload (some p)) .missing (a.node h)
  | .contains h => .ok (.flag (a.contains h))
  | .nodeCount => .ok (.count a.nodeCount)
  | .edgeCount => .ok (.count a.edgeCount)
  | .dependencies h => .ok (.neighbours (a.dependencies h))
  | .dependents h => .ok (.neighbours (a.dependents h))
  | .dump => .ok (.text a.dump)
  | .describe isSpacious => .ok (.text (a.snapshot.describe isSpacious))

/-- Carries out a change. An edge between nodes that are not there changes nothing. -/
def update (a : Arena) : Update → Arena × Except Failure Answer
  | .addNode payload => (a.addNode payload, .ok (.handle a.nextHandle))
  | .connect edge =>
    match a.connect edge with
    | .ok a' => (a', .ok .done)
    | .error m => (a, .error (.missing m))

end Arena

/-! ### On a store -/

namespace Store

/-- Questions to a store. A demanded node is one that the caller claims to be there. -/
inductive Query
  | declaration
  | function
  | name
  | isVariadic
  | stage
  | isBuilt
  | variadicNode
  | size
  | isEmpty
  | hasFormal (argument : Id .argument)
  | tryFormal (argument : Id .argument)
  | demandFormal (argument : Id .argument)
  | hasValue (value : Id .value)
  | tryValue (value : Id .value)
  | demandValue (value : Id .value)
  | calls
  | listed
  | formals
  | values
  | describe (isSpacious : Bool)

/-- Changes of a store, of which some also change the arena. -/
inductive Update
  | setBuilt (built : Bool)
  | addFormal (argument : Id .argument)
  | recordFormal (argument : Id .argument) (node : Handle)
  | addFormals
  | recordValue (value : Id .value) (node : Handle)
  | listNode (node : Handle)
  | addCall (call : Call)
  deriving DecidableEq

/-- The answer to a question. -/
def ask (s : Store) : Query → Except Failure Answer
  | .declaration => .ok (.text (Declaration.format.text s.declaration))
  | .function => .ok (.function s.function)
  | .name => .ok (.text s.name)
  | .isVariadic => .ok (.flag s.declaration.isVariadic)
  | .stage => .ok (.stage s.stage)
  | .isBuilt => .ok (.flag s.isBuilt)
  | .variadicNode => .ok (.optionalHandle s.variadicNode)
  | .size => .ok (.count s.size)
  | .isEmpty => .ok (.flag s.listed.isEmpty)
  | .hasFormal argument => .ok (.flag (s.formals.contains argument))
  | .tryFormal argument => answerOf .handle .missing (s.formal argument)
  | .demandFormal argument => answerOf .handle .aborted (s.formal argument)
  | .hasValue value => .ok (.flag (s.values.contains value))
  | .tryValue value => answerOf .handle .missing (s.value value)
  | .demandValue value => answerOf .handle .aborted (s.value value)
  | .calls => .ok (.calls s.calls)
  | .listed => .ok (.handles s.listed)
  | .formals => .ok (.formals s.formals.entries)
  | .values => .ok (.values s.values.entries)
  | .describe isSpacious => .ok (.text (s.snapshot.describe isSpacious))

end Store

namespace Change

variable {σ τ α β : Type}

/-- A change seen as one of a larger state and with another answer. -/
def lift (c : Change σ α) (state : σ → τ) (answer : α → β) : Change τ β :=
  { state := state c.state, answer := answer c.answer, events := c.events }

end Change

namespace Store

/-- Carries out a change of a store and its arena. -/
def update (s : Store) (arena : Arena) : Update → Change (Store × Arena) Answer
  | .setBuilt built => (s.setBuilt built).lift (·, arena) fun _ => .done
  | .addFormal argument => (s.addFormal arena argument).lift id .flag
  | .recordFormal argument node => (s.recordFormal argument node).lift (·, arena) .flag
  | .addFormals => (s.addFormals arena).lift id .count
  | .recordValue value node => (s.recordValue value node).lift (·, arena) .flag
  | .listNode node => (s.listNode node).lift (·, arena) fun _ => .done
  | .addCall call => (s.addCall call).lift (·, arena) fun _ => .done

end Store

end Dependence
