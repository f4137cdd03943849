import Dependence.Id

/-!
# Missing things

The ways in which a look-up can fail. Each is a mistake of the caller: it asked for a node that was
never recorded, or it used a handle that the arena did not issue.
-/

namespace Dependence

/-- What a look-up did not find. -/
inductive Missing
  /-- A function has no node for one of its arguments. -/
  | formal (function : Id .function) (argument : Id .argument)
  /-- A function has no node for a value. -/
  | value (function : Id .function) (value : Id .value)
  /-- A handle leads to no node. -/
  | node (handle : Handle)
  deriving DecidableEq

/-- The name of an identity in a message, such as `ValueId(17)`. -/
def Id.mention {e : Entity} (x : Id e) : String :=
  e.idName ++ "(" ++ toString x.index ++ ")"

/-- The sentence that says what is missing. -/
def Missing.message : Missing → String
  | .formal f a => "no formal argument node for " ++ a.mention ++ " in " ++ f.mention
  | .value f v => "no node for " ++ v.mention ++ " in " ++ f.mention
  | .node h => "node not found: " ++ h.mention

end Dependence
