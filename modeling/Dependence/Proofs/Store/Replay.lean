import Dependence.Proofs.Store.History
import Mathlib.Data.List.Induction

/-! # A store replays its history

`Store.replay` is the store that a history describes: the earliest node of every key in either index,
the listing, the calls, and the milestone if somebody set it.  Every operation on a replayed store
yields the replay of the longer history (`update_replay`, from one lemma for each kind of attempt),
and so does every sequence of calls on the store of a declaration (`afterCalls_eq_replay`).  The arenas
given to the calls may be any arenas, and the handles may lead anywhere or nowhere.

`Store.Recalls` gathers what an observer sees of this: the answers of the insertions, the look-ups,
the enumerations and the milestone, each in terms of the history alone. -/

namespace Dependence

open Attempt

/-! ### Indices -/

namespace Index
variable {key : Entity}

theorem find?_firsts (pairs : List (Id key × Handle)) (k : Id key) :
    find? ⟨firsts pairs⟩ k = nodeFor pairs k :=
  nodeFor_firsts pairs k

theorem contains_firsts (pairs : List (Id key × Handle)) (k : Id key) :
    contains ⟨firsts pairs⟩ k = hasKey pairs k := by
  unfold contains
  rw [find?_firsts, isSome_nodeFor]

/-- Recording a node in the index of the earliest pairs is the same as having one more pair. -/
theorem record_firsts (pairs : List (Id key × Handle)) (k : Id key) (node : Handle) :
    record ⟨firsts pairs⟩ k node = ⟨firsts (pairs ++ [(k, node)])⟩ := by
  unfold record
  rw [contains_firsts, firsts_append_singleton]
  split <;> rfl

end Index

namespace Store

/-! ### Runs -/

/-- Carries out updates one after the other, each with the arena that the one before it leaves. -/
def perform (s : Store) (arena : Arena) : List Update → Change (Store × Arena) (List Answer)
  | [] => { state := (s, arena), answer := [] }
  | u :: rest =>
      let first := s.update arena u
      let others := first.state.1.perform first.state.2 rest
      { state := others.state
        answer := first.answer :: others.answer
        events := first.events ++ others.events }

/-- The store of a declaration after several calls, each with an arena of its own. -/
def afterCalls (start : Arena) (d : Declaration) (calls : List (Arena × Update)) : Store :=
  calls.foldl (fun s (arena, u) => (s.update arena u).state.1) (create start d).state.1

/-- The store that a history describes. -/
def replay (d : Declaration) (variadicNode : Option Handle) (history : List Attempt) : Store where
  declaration := d
  stage := if milestone true ∈ history then .built else .building
  formals := ⟨firsts (formalPairs history)⟩
  variadicNode := variadicNode
  values := ⟨firsts (valuePairs history)⟩
  listed := listing history
  calls := history.filterMap call?

/-- The node that the constructor gives to the further arguments of a function. -/
def variadicStart (start : Arena) (d : Declaration) : Option Handle :=
  if d.isVariadic then some start.nextHandle else none

/-! ### One attempt -/

section attempts
variable (d : Declaration) (v : Option Handle) (history : List Attempt)

theorem create_eq_replay (start : Arena) :
    (create start d).state.1 = replay d (variadicStart start d) [] := by
  rw [create_store]
  simp [variadicStart, replay, formalPairs, valuePairs, pairs, firsts, listing, listedAfter]

/-- What one more attempt adds to a replayed store. -/
theorem replay_append_singleton (attempt : Attempt) :
    replay d v (history ++ [attempt]) =
      { replay d v history with
        stage := if milestone true ∈ history ++ [attempt] then .built else .building
        formals := ⟨firsts (formalPairs history ++ (pair? .argument attempt).toList)⟩
        values := ⟨firsts (valuePairs history ++ (pair? .value attempt).toList)⟩
        listed := listing history ++ attempt.listed history
        calls := history.filterMap call? ++ [attempt].filterMap call? } := by
  rw [replay, formalPairs, valuePairs, pairs_append_singleton, pairs_append_singleton,
    listing_append_singleton, List.filterMap_append]
  rfl

theorem index_replay {key : Entity} (k : Indexed key) :
    (replay d v history).index k = ⟨firsts (pairs k history)⟩ := by
  cases k <;> rfl

theorem contains_replay {key : Entity} (k : Indexed key) (x : Id key) :
    ((replay d v history).index k).contains x = hasKey (pairs k history) x := by
  rw [index_replay]
  exact Index.contains_firsts ..

theorem setBuilt_replay (built : Bool) :
    ((replay d v history).setBuilt built).state = replay d v (history ++ [.milestone built]) := by
  rw [replay_append_singleton]
  by_cases h : milestone true ∈ history <;> cases built <;>
    simp [setBuilt, replay, h, pair?, call?, Attempt.listed]

/-- A recording replays its attempt, whether it is the first one for its key or not. -/
theorem record_replay {key : Entity} (k : Indexed key) (x : Id key) (node : Handle) :
    ((replay d v history).record k x node).state = replay d v (history ++ [recording k x node]) := by
  have hindex : ((replay d v history).index k).record x node = ⟨firsts (pairs k history ++ [(x, node)])⟩ := by
    rw [index_replay, Index.record_firsts]
  rw [record_state, contains_replay, hindex, replay_append_singleton, listed_recording]
  cases k <;> split <;> simp [replay, withIndex, formalPairs, valuePairs, pair?, recording, call?]

theorem listNode_replay (node : Handle) :
    ((replay d v history).listNode node).state = replay d v (history ++ [.unindexed node]) := by
  rw [replay_append_singleton]
  simp [listNode, replay, pair?, call?, Attempt.listed]

theorem addCall_replay (c : Call) :
    ((replay d v history).addCall c).state = replay d v (history ++ [.call c]) := by
  rw [replay_append_singleton]
  simp [addCall, replay, pair?, call?, Attempt.listed]

/-- Adding a node for an argument replays the attempt to record the next handle of the arena. -/
theorem addFormal_replay (arena : Arena) (argument : Id .argument) :
    ((replay d v history).addFormal arena argument).state =
      (replay d v (history ++ [.formal argument arena.nextHandle]),
        if hasKey (formalPairs history) argument then arena
        else arena.addNode (.formal d.id argument)) := by
  have hcontains := contains_replay d v history .argument argument
  rw [addFormal_eq, record_replay, show (replay d v history).formals.contains argument = _ from hcontains]
  rfl

/-- A bulk insertion replays the attempts for its arguments, offered one after the other. -/
theorem addEach_replay (arena : Arena) (arguments : List (Id .argument)) :
    ((replay d v history).addEach arena arguments).state.1 =
      replay d v (history ++ each d.id history arena arguments) := by
  induction arguments generalizing history arena with
  | nil => simp [addEach, each]
  | cons argument rest ih =>
      simp only [addEach, each, addFormal_replay]
      rw [ih, List.append_assoc, List.singleton_append]

/-! ### One call and many -/

/-- Every call replays its attempts. -/
theorem update_replay (arena : Arena) (u : Update) :
    ((replay d v history).update arena u).state.1 =
      replay d v (history ++ ofUpdate d history arena u) := by
  cases u with
  | setBuilt built => exact setBuilt_replay d v history built
  | addFormal argument => exact congrArg Prod.fst (addFormal_replay d v history arena argument)
  | recordFormal argument node => exact record_replay d v history .argument argument node
  | addFormals => exact addEach_replay d v history arena d.params
  | recordValue w node => exact record_replay d v history .value w node
  | listNode node => exact listNode_replay d v history node
  | addCall c => exact addCall_replay d v history c

/-- A store is the replay of the calls that were made on it. -/
theorem afterCalls_eq_replay (start : Arena) (calls : List (Arena × Update)) :
    afterCalls start d calls = replay d (variadicStart start d) (ofCalls d calls) := by
  induction calls using List.reverseRecOn with
  | nil => exact create_eq_replay d start
  | append_singleton calls call ih =>
      obtain ⟨arena, u⟩ := call
      unfold afterCalls at ih ⊢
      rw [List.foldl_append, List.foldl_cons, List.foldl_nil, ih, ofCalls_append_singleton]
      exact update_replay d _ _ arena u

end attempts

/-! ### What is seen of a history -/

/-- A bulk insertion does what the insertions of its arguments do one after the other, and answers
how many of them were first. -/
theorem addEach_eq_perform (s : Store) (arena : Arena) (arguments : List (Id .argument)) :
    let sequence := s.perform arena (arguments.map .addFormal)
    (s.addEach arena arguments).state = sequence.state ∧
      (s.addEach arena arguments).answer = sequence.answer.count (.flag true) ∧
      (s.addEach arena arguments).events = sequence.events := by
  induction arguments generalizing s arena with
  | nil => exact ⟨rfl, rfl, rfl⟩
  | cons argument rest ih =>
      obtain ⟨hstate, hanswer, hevents⟩ :=
        ih (s.addFormal arena argument).state.1 (s.addFormal arena argument).state.2
      simp only [addEach, List.map_cons, perform, update, Change.lift, id]
      refine ⟨hstate, ?_, by rw [hevents]⟩
      rw [hanswer, List.count_cons]
      cases (s.addFormal arena argument).answer <;> simp [Nat.add_comm]

theorem addFormal_answer (s : Store) (arena : Arena) (argument : Id .argument) :
    (s.addFormal arena argument).answer = !s.formals.contains argument := by
  rw [addFormal_eq]
  exact record_answer ..

/-- What an observer sees of a store, in terms of a history: every answer, look-up and enumeration
is read off the attempts. -/
structure Recalls (s : Store) (d : Declaration) (variadicNode : Option Handle)
    (history : List Attempt) : Prop where
  /-- The store has nothing but what the history says. -/
  eq_replay : s = replay d variadicNode history
  /-- An insertion says whether its key is asked for the first time. -/
  addFormal : ∀ arena argument, (s.update arena (.addFormal argument)).answer =
    .flag (!hasKey (formalPairs history) argument)
  recordFormal : ∀ arena argument node, (s.update arena (.recordFormal argument node)).answer =
    .flag (!hasKey (formalPairs history) argument)
  recordValue : ∀ arena value node, (s.update arena (.recordValue value node)).answer =
    .flag (!hasKey (valuePairs history) value)
  /-- A bulk insertion is the sequence of the insertions for the parameters. -/
  addFormals : ∀ arena,
    let sequence := s.perform arena (d.params.map .addFormal)
    (s.update arena .addFormals).state = sequence.state ∧
      (s.update arena .addFormals).answer = .count (sequence.answer.count (.flag true)) ∧
      (s.update arena .addFormals).events = sequence.events
  /-- A look-up finds the node of the earliest attempt for its key. -/
  tryFormal : ∀ argument, s.ask (.tryFormal argument) =
    (nodeFor (formalPairs history) argument).elim
      (.error (.missing (.formal d.id argument))) fun node => .ok (.handle node)
  demandFormal : ∀ argument, s.ask (.demandFormal argument) =
    (nodeFor (formalPairs history) argument).elim
      (.error (.aborted (.formal d.id argument))) fun node => .ok (.handle node)
  hasFormal : ∀ argument, s.ask (.hasFormal argument) =
    .ok (.flag (nodeFor (formalPairs history) argument).isSome)
  tryValue : ∀ value, s.ask (.tryValue value) =
    (nodeFor (valuePairs history) value).elim
      (.error (.missing (.value d.id value))) fun node => .ok (.handle node)
  demandValue : ∀ value, s.ask (.demandValue value) =
    (nodeFor (valuePairs history) value).elim
      (.error (.aborted (.value d.id value))) fun node => .ok (.handle node)
  hasValue : ∀ value, s.ask (.hasValue value) =
    .ok (.flag (nodeFor (valuePairs history) value).isSome)
  /-- Each key is enumerated once, in the order of the earliest attempts. -/
  formals : s.ask .formals = .ok (.formals (firsts (formalPairs history)))
  values : s.ask .values = .ok (.values (firsts (valuePairs history)))
  nodup_formals : ((firsts (formalPairs history)).map Prod.fst).Nodup
  nodup_values : ((firsts (valuePairs history)).map Prod.fst).Nodup
  mem_formals : ∀ argument, argument ∈ (firsts (formalPairs history)).map Prod.fst ↔
    ∃ node, .formal argument node ∈ history
  mem_values : ∀ value, value ∈ (firsts (valuePairs history)).map Prod.fst ↔
    ∃ node, .value value node ∈ history
  /-- The nodes of all attempts but the repeated ones are listed in their order. -/
  listed : s.ask .listed = .ok (.handles (listing history))
  size : s.ask .size = .ok (.count (listing history).length)
  isEmpty : s.ask .isEmpty = .ok (.flag (listing history).isEmpty)
  /-- All calls are kept in their order. -/
  calls : s.ask .calls = .ok (.calls (history.filterMap call?))
  /-- The milestone is reached as soon as it is set once. -/
  isBuilt : s.ask .isBuilt = .ok (.flag (milestone true ∈ history))
  variadicNode : s.ask .variadicNode = .ok (.optionalHandle variadicNode)

section observations
variable (d : Declaration) (v : Option Handle) (history : List Attempt)

theorem find_replay {key : Entity} (k : Indexed key) (x : Id key) :
    (replay d v history).find k x =
      (nodeFor (pairs k history) x).elim (.error (k.missing d.id x)) .ok := by
  unfold find
  rw [index_replay, Index.find?_firsts]
  cases nodeFor (pairs k history) x <;> rfl

theorem answerOf_elim (failure : Missing → Failure) (node : Option Handle) (m : Missing) :
    answerOf .handle failure (node.elim (.error m) .ok) =
      node.elim (.error (failure m)) fun node => .ok (.handle node) := by
  cases node <;> rfl

theorem recalls_replay : (replay d v history).Recalls d v history where
  eq_replay := rfl
  addFormal arena argument :=
    congrArg Answer.flag ((addFormal_answer ..).trans (congrArg not (contains_replay d v history .argument argument)))
  recordFormal arena argument node :=
    congrArg Answer.flag ((record_answer ..).trans (congrArg not (contains_replay d v history .argument argument)))
  recordValue arena value node :=
    congrArg Answer.flag ((record_answer ..).trans (congrArg not (contains_replay d v history .value value)))
  addFormals arena := by
    obtain ⟨hstate, hanswer, hevents⟩ := addEach_eq_perform (replay d v history) arena d.params
    exact ⟨hstate, congrArg Answer.count hanswer, hevents⟩
  tryFormal argument :=
    (congrArg (answerOf _ _) (find_replay d v history .argument argument)).trans (answerOf_elim ..)
  demandFormal argument :=
    (congrArg (answerOf _ _) (find_replay d v history .argument argument)).trans (answerOf_elim ..)
  hasFormal argument := by
    rw [isSome_nodeFor]
    exact congrArg (fun b => Except.ok (Answer.flag b)) (contains_replay d v history .argument argument)
  tryValue value :=
    (congrArg (answerOf _ _) (find_replay d v history .value value)).trans (answerOf_elim ..)
  demandValue value :=
    (congrArg (answerOf _ _) (find_replay d v history .value value)).trans (answerOf_elim ..)
  hasValue value := by
    rw [isSome_nodeFor]
    exact congrArg (fun b => Except.ok (Answer.flag b)) (contains_replay d v history .value value)
  formals := rfl
  values := rfl
  nodup_formals := nodup_keys_firsts _
  nodup_values := nodup_keys_firsts _
  mem_formals argument := by
    rw [mem_keys_firsts]
    exact exists_congr fun node => mem_pairs (k := .argument)
  mem_values value := by
    rw [mem_keys_firsts]
    exact exists_congr fun node => mem_pairs (k := .value)
  listed := rfl
  size := rfl
  isEmpty := rfl
  calls := rfl
  isBuilt := by
    unfold ask isBuilt replay
    by_cases h : milestone true ∈ history <;> simp [h]
  variadicNode := rfl

end observations

/-- Whatever calls are made on the store of a declaration, and whatever arenas and handles they are
given, the store recalls exactly their attempts. -/
theorem recalls_afterCalls (start : Arena) (d : Declaration) (calls : List (Arena × Update)) :
    (afterCalls start d calls).Recalls d (variadicStart start d) (ofCalls d calls) := by
  rw [afterCalls_eq_replay]
  exact recalls_replay d _ _

end Store
end Dependence
