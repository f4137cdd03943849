import Dependence.Session.Operation

/-! # Runs of operations on a store

A store is asked and updated in turn, and both are operations on it.  There are two ways to run several of
them.  `Store.attend` gives every operation an arena of its own, which may be any arena; `Store.serve`
gives each the arena that the one before it leaves, as somebody does who has one arena only.  Either way
the answers and the events come in the order of the operations. -/

namespace Dependence
namespace Store

/-- An operation on a store: a question or a change. -/
inductive Operation
  | ask (query : Query)
  | update (update : Update)

/-- Carries out an operation on a store and its arena. -/
def carryOut (s : Store) (arena : Arena) : Operation → Change (Store × Arena) (Except Failure Answer)
  | .ask query => { state := (s, arena), answer := s.ask query }
  | .update update => (s.update arena update).lift id .ok

/-- Carries out operations one after the other, each with an arena of its own. -/
def attend (s : Store) : List (Arena × Operation) → Change Store (List (Except Failure Answer))
  | [] => { state := s, answer := [] }
  | (arena, operation) :: rest =>
      let first := s.carryOut arena operation
      let others := first.state.1.attend rest
      { state := others.state
        answer := first.answer :: others.answer
        events := first.events ++ others.events }

/-- Carries out operations one after the other, each with the arena that the one before it leaves. -/
def serve (s : Store) (arena : Arena) :
    List Operation → Change (Store × Arena) (List (Except Failure Answer))
  | [] => { state := (s, arena), answer := [] }
  | operation :: rest =>
      let first := s.carryOut arena operation
      let others := first.state.1.serve first.state.2 rest
      { state := others.state
        answer := first.answer :: others.answer
        events := first.events ++ others.events }

end Store
end Dependence
