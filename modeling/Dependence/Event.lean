import Dependence.Id

/-!
# Events

What a store reports while it works. Each event knows the name of the function whose store
reported it; how loud it is, its message and its fields are functions of the event.
-/

namespace Dependence

/-- How loud an event is. -/
inductive Level
  | trace
  | debug
  | warn
  deriving DecidableEq

/-- What is written to a store. -/
inductive Written
  | formal
  | value
  | unindexed
  | call
  deriving DecidableEq

/-- How a message names what is written. -/
def Written.text : Written → String
  | .formal => "formal argument node"
  | .value => "value node"
  | .unindexed => "unindexed node"
  | .call => "call site"

/-- What a store reports. -/
inductive Event
  /-- The store of a function was created. -/
  | created (function : String) (id : Id .function) (isVariadic : Bool)
  /-- The definition is built, with so many nodes listed and so many calls. -/
  | built (function : String) (nodes calls : Nat)
  /-- Somebody asked to take back that the definition is built. -/
  | resetIgnored (function : String)
  /-- Something is written although the definition is built. -/
  | lateWrite (function : String) (what : Written)
  /-- An argument got its node. -/
  | formalAdded (function : String) (argument : Id .argument) (node : Handle)
  /-- A value got its node. -/
  | valueAdded (function : String) (value : Id .value) (node : Handle)
  /-- A node that belongs to no index was listed. -/
  | nodeAdded (function : String) (node : Handle)
  /-- A call was recorded. -/
  | callAdded (function : String) (instruction : Id .instruction)
  deriving DecidableEq

namespace Event

/-- The content of a field of an event. -/
inductive Field
  | text (s : String)
  | flag (b : Bool)
  | count (n : Nat)
  deriving DecidableEq

/-- How loud an event is: writes are traced, milestones are for debugging, and what should not have
been asked for is warned of. -/
def level : Event → Level
  | created .. | built .. => .debug
  | resetIgnored _ | lateWrite .. => .warn
  | formalAdded .. | valueAdded .. | nodeAdded .. | callAdded .. => .trace

/-- The message of an event. -/
def message : Event → String
  | created .. => "created function pdg"
  | built .. => "function pdg definition built"
  | resetIgnored _ => "ignoring attempt to reset built function pdg"
  | lateWrite .. => "write to built function pdg"
  | formalAdded .. => "added formal argument node"
  | valueAdded .. => "added value node"
  | nodeAdded .. => "added unindexed node"
  | callAdded .. => "added call site"

/-- An identity in a field is written as its number. -/
def Field.ofId {e : Entity} (x : Id e) : Field := .text (toString x.index)

/-- The fields of an event, in order. -/
def fields : Event → List (String × Field)
  | created f id isVariadic =>
      [("function", .text f), ("id", .ofId id), ("var_arg", .flag isVariadic)]
  | built f nodes calls => [("function", .text f), ("nodes", .count nodes), ("call_sites", .count calls)]
  | resetIgnored f => [("function", .text f)]
  | lateWrite f what => [("function", .text f), ("what", .text what.text)]
  | formalAdded f argument node =>
      [("function", .text f), ("arg", .ofId argument), ("node", .ofId node)]
  | valueAdded f value node =>
      [("function", .text f), ("value", .ofId value), ("node", .ofId node)]
  | nodeAdded f node => [("function", .text f), ("node", .ofId node)]
  | callAdded f instruction => [("function", .text f), ("instruction", .ofId instruction)]

end Event

end Dependence
