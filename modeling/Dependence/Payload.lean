import Dependence.Id

/-!
# Payloads and kinds of dependence

What a node of a dependence graph stands for, and in which way one node can depend on another.
-/

namespace Dependence

/-- What a node stands for. -/
inductive Payload
  /-- A declared input of a function. -/
  | formal (function : Id .function) (argument : Id .argument)
  /-- A value of the program: the result of an instruction, a constant, a global. -/
  | value (value : Id .value)
  /-- The further arguments of a variadic function, taken as one thing. -/
  | variadic (function : Id .function)
  /-- Something that belongs to no value, such as the merge of several nodes. -/
  | synthetic (label : String)
  deriving DecidableEq

/-- The ways in which a target depends on a source. -/
inductive Kind
  /-- The target reads what the source may have produced. -/
  | data
  /-- The source decides whether the target runs. -/
  | control
  /-- The source is an operand of the target. -/
  | defUse
  deriving DecidableEq

end Dependence
