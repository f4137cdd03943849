import Dependence.Arena
import Dependence.Declaration
import Dependence.Event
import Dependence.Index

/-!
# Stores

The store of a function collects what a builder finds while it walks the function's parameters and
body, and answers the question whether an argument or a value has a node already, and which one.

* The nodes themselves lie in an arena; the store holds handles only, and never asks whether a
  handle leads anywhere.
* Two indices, one for arguments and one for values, keep the first node recorded for an identity. They
  serve alike (`Indexed`): one look-up and one way to record a node do for both.
* `listed` holds the node of every recording that was the first one, and every node that was added
  without an identity, in the order of these writes.
* A variadic function gets a node for its further arguments at once. That node is not listed.
* A store is `built` once its builder is done, and stays so. Later writes are carried out all the
  same, but reported.

An operation yields a `Change`: the new state, its answer, and the events that it reports.
`record_state` and `addFormal_eq` say what becomes of a store when something is written to it, so that
nothing else has to look into these operations.
-/

namespace Dependence

/-- How far a builder has come. -/
inductive Stage
  | building
  | built
  deriving DecidableEq

/-- What an operation leaves behind, what it answers and what it reports. -/
structure Change (σ α : Type) where
  state : σ
  answer : α
  events : List Event := []

/-- The entities that a store keeps an index of. -/
inductive Indexed : Entity → Type
  | argument : Indexed .argument
  | value : Indexed .value

namespace Indexed

variable {key : Entity}

/-- How a warning names what is recorded. -/
def written : Indexed key → Written
  | argument => .formal
  | value => .value

/-- The report that an identity got its node. -/
def added (function : String) : Indexed key → Id key → Handle → Event
  | argument => .formalAdded function
  | value => .valueAdded function

/-- What is missing if an identity has no node. -/
def missing (function : Id .function) : Indexed key → Id key → Missing
  | argument => .formal function
  | value => .value function

end Indexed

/-- What is known of the nodes and calls of one function. -/
structure Store where
  declaration : Declaration
  stage : Stage := .building
  formals : Index .argument := {}
  variadicNode : Option Handle := none
  values : Index .value := {}
  listed : List Handle := []
  calls : List Call := []
  deriving DecidableEq

namespace Store

variable {key : Entity}

/-- The store of a declaration. The node of a variadic function's further arguments is added to the
arena right away. -/
def create (arena : Arena) (d : Declaration) : Change (Store × Arena) Unit :=
  if d.isVariadic then
    { state := ({ declaration := d, variadicNode := some arena.nextHandle },
        arena.addNode (.variadic d.id))
      answer := ()
      events := [.created d.name d.id d.isVariadic] }
  else
    { state := ({ declaration := d }, arena)
      answer := ()
      events := [.created d.name d.id d.isVariadic] }

/-- The name shown for the function, which is also the name of its graph. -/
def name (s : Store) : String := s.declaration.name

/-- The identity of the function. -/
def function (s : Store) : Id .function := s.declaration.id

/-- How many nodes are listed. -/
def size (s : Store) : Nat := s.listed.length

/-- Whether the builder is done. -/
def isBuilt (s : Store) : Bool := s.stage = .built

/-! ### Look-ups -/

/-- The index of the identities of one kind. -/
def index (s : Store) : Indexed key → Index key
  | .argument => s.formals
  | .value => s.values

/-- The node of an identity. -/
def find (s : Store) (k : Indexed key) (x : Id key) : Except Missing Handle :=
  match (s.index k).find? x with
  | some node => .ok node
  | none => .error (k.missing s.function x)

/-- The node of an argument. -/
def formal (s : Store) (argument : Id .argument) : Except Missing Handle := s.find .argument argument

/-- The node of a value. -/
def value (s : Store) (value : Id .value) : Except Missing Handle := s.find .value value

/-! ### The milestone -/

/-- Sets the milestone. Once it is reached it cannot be taken back; an attempt is reported. -/
def setBuilt (s : Store) (built : Bool) : Change Store Unit :=
  match s.stage, built with
  | .building, true =>
    { state := { s with stage := .built }
      answer := ()
      events := [.built s.name s.size s.calls.length] }
  | .built, false => { state := s, answer := (), events := [.resetIgnored s.name] }
  | _, _ => { state := s, answer := () }

/-! ### Writes -/

/-- The report of a write that comes after the milestone. -/
def lateWrite (s : Store) (what : Written) : List Event :=
  if s.isBuilt then [.lateWrite s.name what] else []

/-- The store with another index of the identities of one kind. -/
def withIndex (s : Store) : Indexed key → Index key → Store
  | .argument, x => { s with formals := x }
  | .value, x => { s with values := x }

/-- Records a node for an identity, if it has none. Answers whether it had none. -/
def record (s : Store) (k : Indexed key) (x : Id key) (node : Handle) : Change Store Bool :=
  if (s.index k).contains x then
    { state := s, answer := false, events := s.lateWrite k.written }
  else
    { state := { s.withIndex k ((s.index k).record x node) with listed := s.listed ++ [node] }
      answer := true
      events := s.lateWrite k.written ++ [k.added s.name x node] }

/-- Records a node for an argument. -/
def recordFormal (s : Store) (argument : Id .argument) (node : Handle) : Change Store Bool :=
  s.record .argument argument node

/-- Records a node for a value. -/
def recordValue (s : Store) (value : Id .value) (node : Handle) : Change Store Bool :=
  s.record .value value node

/-- Adds a node for an argument to the arena and records it, if the argument has none. -/
def addFormal (s : Store) (arena : Arena) (argument : Id .argument) :
    Change (Store × Arena) Bool :=
  if s.formals.contains argument then
    { state := (s, arena), answer := false, events := s.lateWrite .formal }
  else
    let change := s.recordFormal argument arena.nextHandle
    { state := (change.state, arena.addNode (.formal s.function argument))
      answer := change.answer
      events := change.events }

/-- Adds a node for each of the given arguments in turn. Answers how many had none. -/
def addEach (s : Store) (arena : Arena) : List (Id .argument) → Change (Store × Arena) Nat
  | [] => { state := (s, arena), answer := 0 }
  | argument :: rest =>
    let first := s.addFormal arena argument
    let others := first.state.1.addEach first.state.2 rest
    { state := others.state
      answer := first.answer.toNat + others.answer
      events := first.events ++ others.events }

/-- Adds a node for each declared parameter that has none. Answers how many these are. -/
def addFormals (s : Store) (arena : Arena) : Change (Store × Arena) Nat :=
  s.addEach arena s.declaration.params

/-- Lists a node that belongs to no identity. A node can be listed many times. -/
def listNode (s : Store) (node : Handle) : Change Store Unit :=
  { state := { s with listed := s.listed ++ [node] }
    answer := ()
    events := s.lateWrite .unindexed ++ [.nodeAdded s.name node] }

/-- Records a call. -/
def addCall (s : Store) (call : Call) : Change Store Unit :=
  { state := { s with calls := s.calls ++ [call] }
    answer := ()
    events := s.lateWrite .call ++ [.callAdded s.name call.instruction] }

/-! ### What writes do -/

theorem create_store (arena : Arena) (d : Declaration) :
    (create arena d).state.1 =
      { declaration := d, variadicNode := if d.isVariadic then some arena.nextHandle else none } := by
  unfold create
  split <;> rfl

section writes
variable {s : Store} {k : Indexed key} {x : Id key}

/-- A further node for an identity is turned down. -/
theorem record_of_contains (h : (s.index k).contains x = true) (node : Handle) :
    s.record k x node = { state := s, answer := false, events := s.lateWrite k.written } :=
  if_pos h

/-- The first node for an identity is recorded and listed. -/
theorem record_of_not_contains (h : (s.index k).contains x = false) (node : Handle) :
    s.record k x node =
      { state := { s.withIndex k ((s.index k).record x node) with listed := s.listed ++ [node] }
        answer := true
        events := s.lateWrite k.written ++ [k.added s.name x node] } :=
  if_neg (Bool.eq_false_iff.mp h)

variable (s k x)

theorem withIndex_index : s.withIndex k (s.index k) = s := by
  cases k <;> rfl

theorem record_answer (node : Handle) : (s.record k x node).answer = !(s.index k).contains x := by
  cases h : (s.index k).contains x with
  | true => rw [record_of_contains h, Bool.not_true]
  | false => rw [record_of_not_contains h, Bool.not_false]

theorem record_state (node : Handle) :
    (s.record k x node).state =
      { s.withIndex k ((s.index k).record x node) with
        listed := if (s.index k).contains x then s.listed else s.listed ++ [node] } := by
  cases h : (s.index k).contains x with
  | true => rw [record_of_contains h, Index.record_of_contains h, withIndex_index, if_pos rfl]
  | false => rw [record_of_not_contains h, if_neg Bool.false_ne_true]

/-- Adding a node for an argument is recording the next handle of the arena, which gets one node more
if the argument has none. -/
theorem addFormal_eq (arena : Arena) (argument : Id .argument) :
    s.addFormal arena argument =
      { state := ((s.record .argument argument arena.nextHandle).state,
          if s.formals.contains argument then arena
          else arena.addNode (.formal s.function argument))
        answer := (s.record .argument argument arena.nextHandle).answer
        events := (s.record .argument argument arena.nextHandle).events } := by
  unfold addFormal
  cases h : s.formals.contains argument with
  | true => rw [record_of_contains (k := .argument) h]; rfl
  | false => rfl

end writes

end Store

end Dependence
