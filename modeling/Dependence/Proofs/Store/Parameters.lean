import Dependence.Proofs.Store.Drawing
import Dependence.Proofs.Store.Replay
import Mathlib.Data.List.Zip

/-! # Nodes for all parameters

A bulk insertion goes through the declared parameters, which may be repeated, and some of which may have
nodes already.  What it does is told by the parameters that lack a node, each taken once
(`Store.lacking`): these, and no others, get the next handles of the arena one after the other
(`Store.gained`), and nothing else changes (`addEach_store`).

It does the same as somebody who goes through the parameters by hand, makes a node for each that has none,
and offers it to the store (`offerEach_eq_addEach`).  `Store.Equips` gathers what is seen of this, and
`equips_addFormals` says it of every store and every arena. -/

namespace Dependence
namespace Store

/-- The arguments among some that have no node, each once, in the order in which they come first. -/
def lacking (s : Store) (arguments : List (Id .argument)) : List (Id .argument) :=
  (arguments.filter fun x => !s.formals.contains x).eraseDups

/-- The arguments among some that have no node, each with a handle that the arena grants next. -/
def gained (s : Store) (a : Arena) (arguments : List (Id .argument)) : List (Id .argument × Handle) :=
  (s.lacking arguments).zip (a.handles (s.lacking arguments).length)

/-- The store with further entries for arguments, whose nodes are listed as well. -/
def withFormals (s : Store) (new : List (Id .argument × Handle)) : Store :=
  { s with formals := ⟨s.formals.entries ++ new⟩, listed := s.listed ++ new.map Prod.snd }

/-- Goes through some arguments by hand.  One without a node is offered a new node of the arena, and one
that has a node is offered any handle. -/
def offerEach (s : Store) (a : Arena) : List (Id .argument × Handle) → Change (Store × Arena) Nat
  | [] => { state := (s, a), answer := 0 }
  | (x, spare) :: rest =>
      let offer :=
        if s.formals.contains x then (spare, a) else (a.nextHandle, a.addNode (.formal s.function x))
      let first := s.recordFormal x offer.1
      let others := first.state.offerEach offer.2 rest
      { state := others.state
        answer := first.answer.toNat + others.answer
        events := first.events ++ others.events }

/-! ### Arguments that lack a node -/

theorem fresh_eq_eraseDups (known : Id .argument → Bool) (arguments : List (Id .argument)) :
    fresh known arguments = (arguments.filter fun x => !known x).eraseDups := by
  induction arguments generalizing known with
  | nil => rfl
  | cons x rest ih =>
      cases h : known x with
      | true => simp [fresh, h, ih]
      | false =>
          have hboth : (fun y => !(known y || decide (y = x))) = fun y => !(y == x) && !known y := by
            funext y
            rw [Bool.not_or, Bool.and_comm]
            rfl
          simp only [fresh, h, ih, List.filter_cons, Bool.not_false, if_true, Bool.false_eq_true, if_false,
            List.eraseDups_cons, List.filter_filter, hboth]

theorem wantedFor_eq (s : Store) (arguments : List (Id .argument)) :
    s.wantedFor arguments = (s.lacking arguments).map (.formal s.function) := by
  unfold wantedFor lacking
  rw [fresh_eq_eraseDups]

theorem map_fst_gained (s : Store) (a : Arena) (arguments : List (Id .argument)) :
    (s.gained a arguments).map Prod.fst = s.lacking arguments :=
  List.map_fst_zip (by simp)

theorem map_snd_gained (s : Store) (a : Arena) (arguments : List (Id .argument)) :
    (s.gained a arguments).map Prod.snd = a.handles (s.lacking arguments).length :=
  List.map_snd_zip (by simp)

/-- The arena grants the handles for the nodes of the arguments that they go to. -/
theorem granted_wantedFor (s : Store) (a : Arena) (arguments : List (Id .argument)) :
    a.granted (s.wantedFor arguments) =
      (s.gained a arguments).map fun entry => (entry.2, s.formalPayload entry) := by
  rw [Arena.granted_eq_zip, wantedFor_eq, List.length_map, List.zip_map_right, gained, ← List.zip_swap,
    List.map_map]
  rfl

theorem lacking_eq_nil {s : Store} {arguments : List (Id .argument)}
    (h : ∀ x ∈ arguments, s.formals.contains x = true) : s.lacking arguments = [] := by
  have hnone : arguments.filter (fun x => !s.formals.contains x) = [] := by
    rw [List.filter_eq_nil_iff]
    intro x hx
    simp [h x hx]
  rw [lacking, hnone, List.eraseDups_nil]

/-! ### One argument and several -/

theorem contains_withFormals (s : Store) (x y : Id .argument) (node : Handle) :
    (s.withFormals [(x, node)]).formals.contains y = (s.formals.contains y || y = x) := by
  unfold withFormals Index.contains Index.find?
  rw [Option.isSome_map, Option.isSome_map, List.find?_append, Option.isSome_or]
  by_cases h : y = x
  · simp [h]
  · simp [h, Ne.symm h]

theorem lacking_cons (s : Store) (x : Id .argument) (node : Handle) (rest : List (Id .argument)) :
    s.lacking (x :: rest) =
      if s.formals.contains x then s.lacking rest
      else x :: (s.withFormals [(x, node)]).lacking rest := by
  have hknown : (s.withFormals [(x, node)]).formals.contains = fun y => s.formals.contains y || y = x :=
    funext fun y => contains_withFormals s x y node
  unfold lacking
  rw [← fresh_eq_eraseDups, ← fresh_eq_eraseDups, ← fresh_eq_eraseDups, fresh, hknown]

/-- The first argument gets the next handle if it lacks a node; then it lacks none. -/
theorem gained_cons (s : Store) (a : Arena) (x : Id .argument) (rest : List (Id .argument)) :
    s.gained a (x :: rest) =
      if s.formals.contains x then s.gained a rest
      else (x, a.nextHandle) ::
        (s.withFormals [(x, a.nextHandle)]).gained (a.addNode (.formal s.function x)) rest := by
  unfold gained
  rw [lacking_cons s x a.nextHandle]
  split
  · rfl
  · have hhandles : ∀ n, a.handles (n + 1) =
        a.nextHandle :: (a.addNode (.formal s.function x)).handles n := by
      intro n
      rw [Nat.add_comm, ← List.length_singleton (a := Payload.formal s.function x), Arena.handles_add,
        List.length_singleton, Arena.handles_one]
      rfl
    rw [List.length_cons, hhandles, List.zip_cons_cons]

theorem withFormals_append (s : Store) (new more : List (Id .argument × Handle)) :
    s.withFormals (new ++ more) = (s.withFormals new).withFormals more := by
  simp [withFormals, List.append_assoc]

theorem addFormal_state (s : Store) (a : Arena) (x : Id .argument) :
    (s.addFormal a x).state =
      if s.formals.contains x then (s, a)
      else (s.withFormals [(x, a.nextHandle)], a.addNode (.formal s.function x)) := by
  rw [addFormal_eq]
  cases h : s.formals.contains x with
  | true => rw [record_of_contains (k := .argument) h]; rfl
  | false =>
      have hentries := Index.entries_record_of_not_contains h a.nextHandle
      rw [record_of_not_contains (k := .argument) h]
      simp [withFormals, withIndex, index, ← hentries]

/-- Several arguments get the next handles of the arena, and nothing else changes. -/
theorem addEach_store (s : Store) (a : Arena) (arguments : List (Id .argument)) :
    (s.addEach a arguments).state.1 = s.withFormals (s.gained a arguments) := by
  induction arguments generalizing s a with
  | nil => simp [addEach, gained, lacking, withFormals]
  | cons x rest ih =>
      rw [addEach, ih, gained_cons, addFormal_state]
      split
      · rfl
      · rw [← withFormals_append]
        rfl

theorem addEach_answer (s : Store) (a : Arena) (arguments : List (Id .argument)) :
    (s.addEach a arguments).answer = (s.lacking arguments).length := by
  induction arguments generalizing s a with
  | nil => rfl
  | cons x rest ih =>
      simp only [addEach, ih, addFormal_answer, addFormal_state, lacking_cons s x a.nextHandle rest]
      split <;> simp [*, Nat.add_comm]

/-- When all arguments have nodes, nothing happens. -/
theorem addEach_of_contains {s : Store} {arguments : List (Id .argument)}
    (h : ∀ x ∈ arguments, s.formals.contains x = true) (a : Arena) :
    (s.addEach a arguments).answer = 0 ∧ (s.addEach a arguments).state = (s, a) := by
  have hnone : s.lacking arguments = [] := lacking_eq_nil h
  have hstore : s.withFormals (s.gained a arguments) = s := by simp [gained, hnone, withFormals]
  refine ⟨by rw [addEach_answer, hnone, List.length_nil], Prod.ext ?_ ?_⟩
  · rw [addEach_store, hstore]
  · rw [addEach_wanted, wantedFor_eq, hnone]
    rfl

/-- A bulk insertion does what somebody does who goes through the arguments by hand. -/
theorem offerEach_eq_addEach (s : Store) (a : Arena) (offers : List (Id .argument × Handle)) :
    s.offerEach a offers = s.addEach a (offers.map Prod.fst) := by
  induction offers generalizing s a with
  | nil => rfl
  | cons offer rest ih =>
      obtain ⟨x, spare⟩ := offer
      rw [offerEach, List.map_cons, addEach]
      cases h : s.formals.contains x with
      | true => simp [recordFormal, addFormal_eq, record_of_contains (k := .argument) h, h, ih]
      | false => simp [recordFormal, addFormal_eq, h, ih]

/-- A refused insertion makes no node, whether or not it is offered one. -/
theorem update_of_contains {s : Store} {x : Id .argument} (hx : s.formals.contains x = true) (a : Arena) :
    (s.update a (.addFormal x)).answer = .flag false ∧ (s.update a (.addFormal x)).state = (s, a) ∧
      ∀ node, s.update a (.recordFormal x node) = s.update a (.addFormal x) := by
  simp [update, Change.lift, recordFormal, addFormal_eq, record_of_contains (k := .argument) hx, hx]

/-! ### The new nodes -/

section nodes
variable {s : Store} {a : Arena} {arguments : List (Id .argument)}
  (hroom : (a.addNodes (s.wantedFor arguments)).HasRoom)
include hroom

/-- The handle of a new node led nowhere, and leads to the node now. -/
theorem node?_of_mem_gained {entry : Id .argument × Handle} (h : entry ∈ s.gained a arguments) :
    a.node? entry.2 = none ∧
      (a.addNodes (s.wantedFor arguments)).node? entry.2 = some (.formal s.function entry.1) := by
  have hgranted : (entry.2, s.formalPayload entry) ∈ a.granted (s.wantedFor arguments) := by
    rw [granted_wantedFor]
    exact List.mem_map_of_mem h
  exact Arena.mem_granted hroom _ hgranted

theorem nodup_gained : ((s.gained a arguments).map Prod.snd).Nodup := by
  rw [map_snd_gained, ← List.length_map (f := Payload.formal s.function), ← wantedFor_eq,
    ← Arena.map_fst_granted]
  exact Arena.nodup_granted hroom

theorem node?_addNodes_wantedFor (h : Handle) (payload : Payload) :
    (a.addNodes (s.wantedFor arguments)).node? h = some payload ↔
      a.node? h = some payload ∨
        ∃ entry ∈ s.gained a arguments, h = entry.2 ∧ payload = .formal s.function entry.1 := by
  rw [Arena.node?_addNodes_eq_some hroom, granted_wantedFor, List.mem_map]
  simp only [Prod.mk.injEq, eq_comm (b := h), eq_comm (b := payload)]
  rfl

end nodes

/-! ### All parameters -/

/-- What is seen of a bulk insertion by which the parameters that lack a node get one. -/
structure Equips (s : Store) (a : Arena) (new : List (Id .argument × Handle))
    (c : Change (Store × Arena) Answer) : Prop where
  /-- The parameters that get a node are those that have none, in the order in which they come first. -/
  arguments : new.map Prod.fst = s.lacking s.declaration.params
  answer : c.answer = .count (s.lacking s.declaration.params).length
  /-- Their entries and nodes are appended in this order, and nothing else of the store changes. -/
  store : c.state.1 = s.withFormals new
  /-- Their handles led nowhere, and differ; now they lead to the nodes of the parameters. -/
  fresh : ∀ entry ∈ new, a.node? entry.2 = none
  distinct : (new.map Prod.snd).Nodup
  labelled : ∀ entry ∈ new, c.state.2.node? entry.2 = some (.formal s.function entry.1)
  /-- Nothing else of the arena changes. -/
  kept : ∀ h payload, c.state.2.node? h = some payload ↔
    a.node? h = some payload ∨ ∃ entry ∈ new, h = entry.2 ∧ payload = .formal s.function entry.1
  edges : c.state.2 = { a with nodes := c.state.2.nodes }
  nodeCount : c.state.2.nodeCount = a.nodeCount + (s.lacking s.declaration.params).length
  /-- Every parameter has a node now, so that doing it once more, with whatever arena, does nothing. -/
  covered : ∀ x ∈ s.declaration.params, c.state.1.ask (.hasFormal x) = .ok (.flag true)
  again : ∀ b, (c.state.1.update b .addFormals).answer = .count 0 ∧
    (c.state.1.update b .addFormals).state = (c.state.1, b)
  /-- Somebody who goes through the parameters by hand does the same. -/
  byHand : ∀ offers : List (Id .argument × Handle), offers.map Prod.fst = s.declaration.params →
    (s.offerEach a offers).lift id .count = c
  /-- An insertion that is refused makes no node, whether or not it is offered one. -/
  refused : ∀ x, s.formals.contains x = true →
    (s.update a (.addFormal x)).answer = .flag false ∧ (s.update a (.addFormal x)).state = (s, a) ∧
      ∀ node, s.update a (.recordFormal x node) = s.update a (.addFormal x)

/-- Whatever a store holds, and whatever its stage and its arena, a bulk insertion equips it with a node for
each of its parameters. -/
theorem equips_addFormals (s : Store) (a : Arena) (hroom : (s.update a .addFormals).state.2.HasRoom) :
    s.Equips a (s.gained a s.declaration.params) (s.update a .addFormals) := by
  have hstore : (s.update a .addFormals).state.1 = s.withFormals (s.gained a s.declaration.params) :=
    addEach_store s a s.declaration.params
  have harena : (s.update a .addFormals).state.2 = a.addNodes (s.wantedFor s.declaration.params) :=
    addEach_wanted s a s.declaration.params
  have hcovered : ∀ x ∈ s.declaration.params,
      (s.update a .addFormals).state.1.formals.contains x = true := by
    intro x hx
    refine (contains_addEach s a s.declaration.params x).trans ?_
    simp [hx]
  rw [harena] at hroom
  refine
    { arguments := map_fst_gained s a _
      answer := congrArg Answer.count (addEach_answer s a _)
      store := hstore
      fresh := fun entry hentry => (node?_of_mem_gained hroom hentry).1
      distinct := nodup_gained hroom
      labelled := ?_
      kept := ?_
      edges := ?_
      nodeCount := ?_
      covered := fun x hx => congrArg (fun b => Except.ok (Answer.flag b)) (hcovered x hx)
      again := ?_
      byHand := ?_
      refused := fun x hx => update_of_contains hx a }
  · rw [harena]
    exact fun entry hentry => (node?_of_mem_gained hroom hentry).2
  · rw [harena]
    exact node?_addNodes_wantedFor hroom
  · rw [harena, Arena.addNodes_eq]
  · rw [harena, Arena.nodeCount, Arena.nodes_addNodes, Slots.count_insertAll, wantedFor_eq, List.length_map]
    rfl
  · intro b
    have hdeclaration : (s.update a .addFormals).state.1.declaration = s.declaration := update_declaration ..
    obtain ⟨hanswer, hstate⟩ := addEach_of_contains hcovered b
    rw [← hdeclaration] at hanswer hstate
    exact ⟨congrArg Answer.count hanswer, hstate⟩
  · intro offers hoffers
    rw [offerEach_eq_addEach, hoffers]
    rfl

/-- A function with a parameter that is declared twice. -/
def copying : Declaration := ⟨⟨3⟩, "copy", [⟨1⟩, ⟨2⟩, ⟨1⟩, ⟨4⟩], false⟩

/-- A store of it that is built already, with nodes for one parameter and for an argument that is none. -/
def begun : Store :=
  { declaration := copying, stage := .built, formals := ⟨[(⟨9⟩, ⟨0⟩), (⟨2⟩, ⟨0⟩)]⟩, listed := [⟨0⟩, ⟨0⟩] }

/-- An arena with a vacant slot. -/
def sparse : Arena := { nodes := ⟨[some (.value ⟨5⟩), none, some (.value ⟨6⟩)]⟩ }

/-- Two parameters lack a node.  One gets the vacant slot, and the other a new one. -/
theorem equips_addFormals_begun :
    (begun.update sparse .addFormals).state.2.HasRoom ∧
      begun.Equips sparse [(⟨1⟩, ⟨1⟩), (⟨4⟩, ⟨3⟩)] (begun.update sparse .addFormals) ∧
      (begun.update sparse .addFormals).answer = .count 2 := by
  have hroom : (begun.update sparse .addFormals).state.2.HasRoom := by
    unfold Arena.HasRoom
    decide +kernel
  have hgained : begun.gained sparse begun.declaration.params = [(⟨1⟩, ⟨1⟩), (⟨4⟩, ⟨3⟩)] := by
    decide +kernel
  have hequips := equips_addFormals begun sparse hroom
  rw [hgained] at hequips
  exact ⟨hroom, hequips, hequips.answer.trans (by decide +kernel)⟩

end Store
end Dependence
