import Dependence.Inspection

/-!
# Answers

What the operations on arenas and stores answer, and the ways in which they can fail.
-/

namespace Dependence

/-- What an operation answers. -/
inductive Answer
  | done
  | flag (b : Bool)
  | count (n : Nat)
  | text (s : String)
  | stage (s : Stage)
  | function (id : Id .function)
  | handle (h : Handle)
  | optionalHandle (h : Option Handle)
  | optionalPayload (p : Option Payload)
  | neighbours (list : List (Handle × Kind))
  | handles (list : List Handle)
  | formals (entries : List (Id .argument × Handle))
  | values (entries : List (Id .value × Handle))
  | calls (list : List Call)
  deriving DecidableEq

/-- Why an operation has no answer. -/
inductive Failure
  /-- It speaks of an arena, a store or a declaration that there is not. -/
  | badRequest
  /-- Something it looked for is missing. -/
  | missing (m : Missing)
  /-- Something is missing that its caller claimed to be there, and the operation gave up. -/
  | aborted (m : Missing)
  /-- A tree could not be read. -/
  | unreadable (m : Mismatch)
  deriving DecidableEq

/-- A look-up as an answer. -/
def answerOf {α : Type} (answer : α → Answer) (failure : Missing → Failure)
    (result : Except Missing α) : Except Failure Answer :=
  (result.map answer).mapError failure

end Dependence
