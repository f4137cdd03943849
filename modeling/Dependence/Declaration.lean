import Dependence.Id

/-!
# Declarations and calls

What a front end says about a program before any graph exists: the functions that it declares and
the calls that stand in their bodies.
-/

namespace Dependence

/-- The declaration of a function: its identity, the name shown for it, its formal arguments in
order, and whether it takes further arguments after them. -/
structure Declaration where
  id : Id .function
  name : String
  params : List (Id .argument) := []
  isVariadic : Bool := false
  deriving DecidableEq

/-- A call in a function body: the instruction that calls and, where it is known, the function
called. A call through a pointer has no known callee. -/
structure Call where
  instruction : Id .instruction
  callee : Option (Id .function) := none
  deriving DecidableEq

end Dependence
