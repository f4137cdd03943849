import Dependence.Session.Operation

/-!
# Sessions

A session holds declarations, a row of arenas and a row of stores, and carries out steps. A step
makes a new arena or store, or it addresses one arena, or one store together with one arena. The
arena need not be the one that the store was made with.

`Session.step` yields the session after the step, the answer, and the events reported. A step that
fails leaves the session as it was.
-/

namespace Dependence

/-- Declarations, arenas and stores. -/
structure Session where
  declarations : List Declaration
  arenas : List Arena := [.empty]
  stores : List Store := []
  deriving DecidableEq

/-- What a session is asked to do. Arenas, stores and declarations are given by their positions. -/
inductive Step
  /-- Make an empty arena. -/
  | newArena
  /-- Copy an arena. -/
  | copyArena (arena : Nat)
  /-- Make the arena that a tree describes. -/
  | loadArena (tree : Json)
  | askArena (arena : Nat) (query : Arena.Query)
  | updateArena (arena : Nat) (update : Arena.Update)
  /-- Make the store of a declaration. -/
  | newStore (declaration arena : Nat)
  | askStore (store arena : Nat) (query : Store.Query)
  | updateStore (store arena : Nat) (update : Store.Update)

/-- What a step leaves behind, answers and reports. -/
structure Reply where
  session : Session
  answer : Except Failure Answer
  events : List Event := []

namespace Session

/-- The answer that changes nothing and reports nothing. -/
def say (s : Session) (answer : Except Failure Answer) : Reply := { session := s, answer }

/-- The session with one more arena. -/
def withArena (s : Session) (arena : Arena) : Reply where
  session := { s with arenas := s.arenas ++ [arena] }
  answer := .ok (.count s.arenas.length)

/-- Carries out a step. -/
def step (s : Session) : Step → Reply
  | .newArena => s.withArena .empty
  | .copyArena i =>
    match s.arenas[i]? with
    | some arena => s.withArena arena
    | none => s.say (.error .badRequest)
  | .loadArena tree =>
    match Arena.format.ofJson tree with
    | .ok arena => s.withArena arena
    | .error m => s.say (.error (.unreadable m))
  | .askArena i query =>
    match s.arenas[i]? with
    | some arena => s.say (arena.ask query)
    | none => s.say (.error .badRequest)
  | .updateArena i update =>
    match s.arenas[i]? with
    | some arena =>
      let (arena, answer) := arena.update update
      { session := { s with arenas := s.arenas.set i arena }, answer }
    | none => s.say (.error .badRequest)
  | .newStore d i =>
    match s.declarations[d]?, s.arenas[i]? with
    | some declaration, some arena =>
      let made := Store.create arena declaration
      { session :=
          { s with
            arenas := s.arenas.set i made.state.2, stores := s.stores ++ [made.state.1] }
        answer := .ok (.count s.stores.length)
        events := made.events }
    | _, _ => s.say (.error .badRequest)
  | .askStore j i query =>
    match s.stores[j]?, s.arenas[i]? with
    | some store, some _ => s.say (store.ask query)
    | _, _ => s.say (.error .badRequest)
  | .updateStore j i update =>
    match s.stores[j]?, s.arenas[i]? with
    | some store, some arena =>
      let change := store.update arena update
      { session :=
          { s with
            arenas := s.arenas.set i change.state.2, stores := s.stores.set j change.state.1 }
        answer := .ok change.answer
        events := change.events }
    | _, _ => s.say (.error .badRequest)

/-- Carries out steps one after the other. Yields the session after the last and all replies. -/
def run (s : Session) : List Step → Session × List Reply
  | [] => (s, [])
  | step :: steps =>
    let reply := s.step step
    let (last, replies) := reply.session.run steps
    (last, reply :: replies)

end Session

end Dependence
