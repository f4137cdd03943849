import Dependence.Proofs.Store.Allocation
import Dependence.Proofs.Store.Operation

/-! # Stores under renaming

A store does nothing with an identity but compare it to another one of its kind, and it compares only those
of arguments and of values.  So when all identities are renamed, and renaming keeps arguments apart and
values apart, a store does the same as before with the renamed identities (`carryOut_rename`).  Handles are
not compared at all, and may be renamed in any way.

The arena need not be the same.  What a store wants of it is known beforehand (`Store.wanted`), and all that
matters is that the second arena grants the renamed handles of the first. -/

namespace Dependence

/-- A map of the identities of each kind that keeps arguments apart, and values. -/
structure Renaming where
  map : ∀ {e : Entity}, Id e → Id e
  argument_injective : Function.Injective (map (e := .argument))
  value_injective : Function.Injective (map (e := .value))

/-- The keys of an index are kept apart. -/
theorem Renaming.injective (ρ : Renaming) {key : Entity} :
    Indexed key → Function.Injective (ρ.map (e := key))
  | .argument => ρ.argument_injective
  | .value => ρ.value_injective

/-! ### What is renamed -/

section Renamed
variable (ρ : Renaming)

/-- A payload with renamed identities. -/
def Payload.rename : Payload → Payload
  | .formal f x => .formal (ρ.map f) (ρ.map x)
  | .value v => .value (ρ.map v)
  | .variadic f => .variadic (ρ.map f)
  | .synthetic label => .synthetic label

/-- A declaration with renamed identities. -/
def Declaration.rename (d : Declaration) : Declaration :=
  { d with id := ρ.map d.id, params := d.params.map ρ.map }

/-- A call with renamed identities. -/
def Call.rename (c : Call) : Call where
  instruction := ρ.map c.instruction
  callee := c.callee.map ρ.map

/-- An index with renamed keys and nodes, in the same order. -/
def Index.rename {key : Entity} (x : Index key) : Index key :=
  ⟨x.entries.map fun entry => (ρ.map entry.1, ρ.map entry.2)⟩

/-- What is missing, with renamed identities. -/
def Missing.rename : Missing → Missing
  | .formal f x => .formal (ρ.map f) (ρ.map x)
  | .value f v => .value (ρ.map f) (ρ.map v)
  | .node h => .node (ρ.map h)

/-- An event with renamed identities. -/
def Event.rename : Event → Event
  | .created f id isVariadic => .created f (ρ.map id) isVariadic
  | .built f nodes calls => .built f nodes calls
  | .resetIgnored f => .resetIgnored f
  | .lateWrite f what => .lateWrite f what
  | .formalAdded f argument node => .formalAdded f (ρ.map argument) (ρ.map node)
  | .valueAdded f value node => .valueAdded f (ρ.map value) (ρ.map node)
  | .nodeAdded f node => .nodeAdded f (ρ.map node)
  | .callAdded f instruction => .callAdded f (ρ.map instruction)

/-- An answer with renamed identities. -/
def Answer.rename : Answer → Answer
  | .function id => .function (ρ.map id)
  | .handle h => .handle (ρ.map h)
  | .optionalHandle h => .optionalHandle (h.map ρ.map)
  | .optionalPayload p => .optionalPayload (p.map (Payload.rename ρ))
  | .neighbours list => .neighbours (list.map fun entry => (ρ.map entry.1, entry.2))
  | .handles list => .handles (list.map ρ.map)
  | .formals entries => .formals (entries.map fun entry => (ρ.map entry.1, ρ.map entry.2))
  | .values entries => .values (entries.map fun entry => (ρ.map entry.1, ρ.map entry.2))
  | .calls list => .calls (list.map (Call.rename ρ))
  | answer => answer

/-- A failure with renamed identities. -/
def Failure.rename : Failure → Failure
  | .missing m => .missing (m.rename ρ)
  | .aborted m => .aborted (m.rename ρ)
  | failure => failure

/-- An answer or a failure with renamed identities. -/
def Answer.renameResult (result : Except Failure Answer) : Except Failure Answer :=
  (result.map (Answer.rename ρ)).mapError (Failure.rename ρ)

namespace Store

/-- A store with renamed identities. -/
def rename (s : Store) : Store where
  declaration := s.declaration.rename ρ
  stage := s.stage
  formals := s.formals.rename ρ
  variadicNode := s.variadicNode.map ρ.map
  values := s.values.rename ρ
  listed := s.listed.map ρ.map
  calls := s.calls.map (Call.rename ρ)

/-- A question about renamed identities. -/
def Query.rename : Query → Query
  | .hasFormal argument => .hasFormal (ρ.map argument)
  | .tryFormal argument => .tryFormal (ρ.map argument)
  | .demandFormal argument => .demandFormal (ρ.map argument)
  | .hasValue value => .hasValue (ρ.map value)
  | .tryValue value => .tryValue (ρ.map value)
  | .demandValue value => .demandValue (ρ.map value)
  | query => query

/-- A change with renamed identities. -/
def Update.rename : Update → Update
  | .setBuilt built => .setBuilt built
  | .addFormal argument => .addFormal (ρ.map argument)
  | .recordFormal argument node => .recordFormal (ρ.map argument) (ρ.map node)
  | .addFormals => .addFormals
  | .recordValue value node => .recordValue (ρ.map value) (ρ.map node)
  | .listNode node => .listNode (ρ.map node)
  | .addCall call => .addCall (call.rename ρ)

/-- An operation on renamed identities. -/
def Operation.rename : Operation → Operation
  | .ask query => .ask (query.rename ρ)
  | .update u => .update (u.rename ρ)

/-- Whether an answer shows identities in a text. -/
def Query.showsIds : Query → Bool
  | .declaration | .describe _ => true
  | _ => false

/-- Whether an operation is answered with a text that shows identities. -/
def Operation.showsIds : Operation → Bool
  | .ask query => query.showsIds
  | .update _ => false

end Store

end Renamed

/-! ### Look-ups -/

namespace Index

variable {key : Entity} {ρ : Renaming}

theorem find?_rename (hρ : Function.Injective (ρ.map (e := key))) (x : Index key) (k : Id key) :
    (x.rename ρ).find? (ρ.map k) = (x.find? k).map ρ.map := by
  have hkey : ∀ entry : Id key × Handle, decide (ρ.map entry.1 = ρ.map k) = decide (entry.1 = k) :=
    fun entry => decide_eq_decide.mpr hρ.eq_iff
  unfold find? rename
  rw [List.find?_map, Option.map_map, Option.map_map]
  simp only [Function.comp_def, hkey]

theorem contains_rename (hρ : Function.Injective (ρ.map (e := key))) (x : Index key) (k : Id key) :
    (x.rename ρ).contains (ρ.map k) = x.contains k := by
  unfold contains
  rw [find?_rename hρ, Option.isSome_map]

theorem record_rename (hρ : Function.Injective (ρ.map (e := key))) (x : Index key) (k : Id key)
    (node : Handle) : (x.rename ρ).record (ρ.map k) (ρ.map node) = (x.record k node).rename ρ := by
  unfold record
  rw [contains_rename hρ]
  split
  · rfl
  · simp [rename]

theorem contains_record (x : Index key) (k k' : Id key) (node : Handle) :
    (x.record k node).contains k' = (x.contains k' || k' = k) := by
  unfold contains
  rw [find?_record]
  by_cases hk : k' = k
  · simp [hk]
  · simp [hk]

end Index

namespace Store

variable {ρ : Renaming}

theorem index_rename {key : Entity} (s : Store) (k : Indexed key) :
    (s.rename ρ).index k = (s.index k).rename ρ := by
  cases k <;> rfl

theorem contains_index_rename {key : Entity} (s : Store) (k : Indexed key) (x : Id key) :
    ((s.rename ρ).index k).contains (ρ.map x) = (s.index k).contains x := by
  rw [index_rename, Index.contains_rename (ρ.injective k)]

theorem find_rename {key : Entity} (s : Store) (k : Indexed key) (x : Id key) :
    (s.rename ρ).find k (ρ.map x) = ((s.find k x).map ρ.map).mapError (Missing.rename ρ) := by
  unfold find
  rw [index_rename, Index.find?_rename (ρ.injective k)]
  cases (s.index k).find? x with
  | some node => rfl
  | none => cases k <;> rfl

theorem ask_rename (s : Store) {query : Query} (h : query.showsIds = false) :
    (s.rename ρ).ask (query.rename ρ) = Answer.renameResult ρ (s.ask query) := by
  cases query with
  | declaration | describe => cases h
  | hasFormal argument =>
      exact congrArg (fun b => Except.ok (Answer.flag b)) (contains_index_rename s .argument argument)
  | hasValue value =>
      exact congrArg (fun b => Except.ok (Answer.flag b)) (contains_index_rename s .value value)
  | tryFormal argument | demandFormal argument =>
      simp only [Query.rename, ask, formal, find_rename]
      cases s.find .argument argument <;> rfl
  | tryValue value | demandValue value =>
      simp only [Query.rename, ask, Store.value, find_rename]
      cases s.find .value value <;> rfl
  | size | isEmpty =>
      simp [Query.rename, ask, Answer.renameResult, Except.map, Except.mapError, Answer.rename, rename, size]
  | _ => rfl

/-! ### What a store wants of its arena -/

/-- The arguments among some that are not known, each once. -/
def fresh (known : Id .argument → Bool) : List (Id .argument) → List (Id .argument)
  | [] => []
  | x :: xs => if known x then fresh known xs else x :: fresh (fun y => known y || y = x) xs

/-- The arguments that an operation adds nodes for, unless they have one. -/
def Update.requests (d : Declaration) : Update → List (Id .argument)
  | .addFormal argument => [argument]
  | .addFormals => d.params
  | _ => []

/-- The nodes that it takes to give some arguments a node each. -/
def wantedFor (s : Store) (arguments : List (Id .argument)) : List Payload :=
  (fresh s.formals.contains arguments).map (.formal s.function)

/-- The nodes that an operation adds to its arena. -/
def wanted (s : Store) : Operation → List Payload
  | .ask _ => []
  | .update u => s.wantedFor (u.requests s.declaration)

/-- Adding a node for an argument is recording the next handle of an arena that grants what is wanted. -/
theorem addFormal_eq_lift (s : Store) (a : Arena) (argument : Id .argument) :
    s.addFormal a argument =
      (s.record .argument argument a.nextHandle).lift (·, a.addNodes (s.wantedFor [argument])) id := by
  rw [addFormal_eq]
  unfold wantedFor fresh
  split <;> rfl

theorem addFormal_wanted (s : Store) (a : Arena) (argument : Id .argument) :
    (s.addFormal a argument).state.2 = a.addNodes (s.wantedFor [argument]) := by
  rw [addFormal_eq_lift]
  rfl

theorem wantedFor_cons (s : Store) (a : Arena) (argument : Id .argument) (rest : List (Id .argument)) :
    s.wantedFor (argument :: rest) =
      s.wantedFor [argument] ++ (s.addFormal a argument).state.1.wantedFor rest := by
  have hfunction : (s.addFormal a argument).state.1.function = s.function :=
    congrArg Declaration.id (addFormal_allocates s a argument).declaration
  have hknown : (s.addFormal a argument).state.1.formals.contains =
      fun x => s.formals.contains x || x = argument := by
    funext x
    rw [addFormal_eq, record_state]
    exact Index.contains_record ..
  unfold wantedFor
  rw [hknown, hfunction]
  cases h : s.formals.contains argument with
  | true =>
      have hsame : (fun x => s.formals.contains x || decide (x = argument)) = s.formals.contains := by
        funext x
        by_cases hx : x = argument
        · simp [hx, h]
        · simp [hx]
      simp [fresh, h, hsame]
  | false => simp [fresh, h]

theorem addEach_wanted (s : Store) (a : Arena) (arguments : List (Id .argument)) :
    (s.addEach a arguments).state.2 = a.addNodes (s.wantedFor arguments) := by
  induction arguments generalizing s a with
  | nil => rfl
  | cons argument rest ih =>
      rw [wantedFor_cons s a, Arena.addNodes_append, ← addFormal_wanted]
      exact ih _ _

theorem wanted_of_not_allocates (s : Store) {u : Update} (hu : u.allocates = false) :
    s.wanted (.update u) = [] := by
  cases u with
  | addFormal | addFormals => cases hu
  | _ => rfl

/-- An operation adds to its arena what it wants, and nothing else. -/
theorem carryOut_wanted (s : Store) (a : Arena) (operation : Operation) :
    (s.carryOut a operation).state.2 = a.addNodes (s.wanted operation) := by
  cases operation with
  | ask query => rfl
  | update u =>
      cases hu : u.allocates with
      | true =>
          cases u with
          | addFormal argument => exact addFormal_wanted s a argument
          | addFormals => exact addEach_wanted s a _
          | _ => cases hu
      | false =>
          rw [wanted_of_not_allocates s hu]
          exact (update_spares s a hu).arena

theorem fresh_rename {known known' : Id .argument → Bool} (h : ∀ x, known' (ρ.map x) = known x)
    (arguments : List (Id .argument)) :
    fresh known' (arguments.map ρ.map) = (fresh known arguments).map ρ.map := by
  induction arguments generalizing known known' with
  | nil => rfl
  | cons x rest ih =>
      rw [List.map_cons, fresh, fresh, h]
      split
      · exact ih h
      · rw [List.map_cons]
        congr 1
        refine ih fun y => ?_
        rw [h, decide_eq_decide.mpr ρ.argument_injective.eq_iff]

theorem wantedFor_rename (s : Store) (arguments : List (Id .argument)) :
    (s.rename ρ).wantedFor (arguments.map ρ.map) = (s.wantedFor arguments).map (Payload.rename ρ) := by
  have hknown : ∀ x, (s.rename ρ).formals.contains (ρ.map x) = s.formals.contains x :=
    contains_index_rename s .argument
  unfold wantedFor
  rw [fresh_rename hknown, List.map_map, List.map_map]
  rfl

theorem wanted_rename (ρ : Renaming) (s : Store) (operation : Operation) :
    (s.rename ρ).wanted (operation.rename ρ) = (s.wanted operation).map (Payload.rename ρ) := by
  cases operation with
  | ask query => rfl
  | update u =>
      have hrequests : (u.rename ρ).requests (s.declaration.rename ρ) =
          (u.requests s.declaration).map ρ.map := by
        cases u <;> rfl
      show (s.rename ρ).wantedFor ((u.rename ρ).requests (s.declaration.rename ρ)) = _
      rw [hrequests, wantedFor_rename]
      rfl

/-! ### Operations -/

/-- The second change is the first one with renamed identities, as far as a store and its reports go. -/
structure Follows (ρ : Renaming) {σ α : Type} (store : σ → Store) (answer : α → α) (c c' : Change σ α) :
    Prop where
  store : store c'.state = (store c.state).rename ρ
  answer : c'.answer = answer c.answer
  events : c'.events = c.events.map (Event.rename ρ)

theorem lateWrite_rename (s : Store) (what : Written) :
    (s.rename ρ).lateWrite what = (s.lateWrite what).map (Event.rename ρ) := by
  unfold lateWrite
  rw [show (s.rename ρ).isBuilt = s.isBuilt from rfl]
  split <;> rfl

theorem setBuilt_rename (ρ : Renaming) (s : Store) (built : Bool) :
    Follows ρ id id (s.setBuilt built) ((s.rename ρ).setBuilt built) := by
  unfold setBuilt
  rw [show (s.rename ρ).stage = s.stage from rfl]
  split
  · refine ⟨rfl, rfl, ?_⟩
    simp [Event.rename, rename, name, size, Declaration.rename]
  · exact ⟨rfl, rfl, rfl⟩
  · exact ⟨rfl, rfl, rfl⟩

theorem record_rename {key : Entity} (ρ : Renaming) (s : Store) (k : Indexed key) (x : Id key) (node : Handle) :
    Follows ρ id id (s.record k x node) ((s.rename ρ).record k (ρ.map x) (ρ.map node)) := by
  have hcontains := contains_index_rename (ρ := ρ) s k x
  cases h : (s.index k).contains x with
  | true =>
      rw [record_of_contains h, record_of_contains (hcontains.trans h), lateWrite_rename]
      exact ⟨rfl, rfl, rfl⟩
  | false =>
      rw [record_of_not_contains h, record_of_not_contains (hcontains.trans h), index_rename,
        Index.record_rename (ρ.injective k), lateWrite_rename]
      refine ⟨?_, rfl, ?_⟩
      · cases k <;> simp [rename, withIndex]
      · rw [List.map_append]
        cases k <;> rfl

theorem listNode_rename (ρ : Renaming) (s : Store) (node : Handle) :
    Follows ρ id id (s.listNode node) ((s.rename ρ).listNode (ρ.map node)) := by
  refine ⟨?_, rfl, ?_⟩
  · simp [listNode, rename]
  · simp only [listNode, List.map_append, lateWrite_rename]
    rfl

theorem addCall_rename (ρ : Renaming) (s : Store) (call : Call) :
    Follows ρ id id (s.addCall call) ((s.rename ρ).addCall (call.rename ρ)) := by
  refine ⟨?_, rfl, ?_⟩
  · simp [addCall, rename]
  · simp only [addCall, List.map_append, lateWrite_rename]
    rfl

section grants
variable {a b : Arena}

/-- Handles that are granted for two rows of nodes are granted for either. -/
theorem handles_of_append {payloads more : List Payload}
    (h : b.handles (payloads ++ more).length = (a.handles (payloads ++ more).length).map ρ.map) :
    b.handles payloads.length = (a.handles payloads.length).map ρ.map ∧
      (b.addNodes (payloads.map (Payload.rename ρ))).handles more.length =
        ((a.addNodes payloads).handles more.length).map ρ.map := by
  have hlength : payloads.length = (payloads.map (Payload.rename ρ)).length := (List.length_map ..).symm
  rw [List.length_append, Arena.handles_add a, List.map_append, hlength, Arena.handles_add b, ← hlength] at h
  exact List.append_inj h (by simp)

theorem addFormal_rename (s : Store) (argument : Id .argument)
    (h : b.handles (s.wantedFor [argument]).length =
      (a.handles (s.wantedFor [argument]).length).map ρ.map) :
    Follows ρ Prod.fst id (s.addFormal a argument) ((s.rename ρ).addFormal b (ρ.map argument)) := by
  cases hc : s.formals.contains argument with
  | true =>
      have hc' : (s.rename ρ).formals.contains (ρ.map argument) = true := by
        rw [← hc]
        exact contains_index_rename s .argument argument
      rw [addFormal_eq_lift, addFormal_eq_lift, record_of_contains (k := .argument) hc,
        record_of_contains (k := .argument) hc']
      exact ⟨rfl, rfl, lateWrite_rename s .formal⟩
  | false =>
      have hone : (s.wantedFor [argument]).length = 1 := by simp [wantedFor, fresh, hc]
      rw [hone, Arena.handles_one, Arena.handles_one] at h
      obtain ⟨hnext, -⟩ := List.cons.inj h
      have hrecord := record_rename ρ s .argument argument a.nextHandle
      rw [addFormal_eq_lift, addFormal_eq_lift, hnext]
      exact ⟨hrecord.store, hrecord.answer, hrecord.events⟩

theorem addEach_rename (s : Store) (arguments : List (Id .argument))
    (h : b.handles (s.wantedFor arguments).length = (a.handles (s.wantedFor arguments).length).map ρ.map) :
    Follows ρ Prod.fst id (s.addEach a arguments) ((s.rename ρ).addEach b (arguments.map ρ.map)) := by
  induction arguments generalizing s a b with
  | nil => exact ⟨rfl, rfl, rfl⟩
  | cons argument rest ih =>
      have hfirstArena := addFormal_wanted s a argument
      have hfirstArena' : ((s.rename ρ).addFormal b (ρ.map argument)).state.2 =
          b.addNodes ((s.wantedFor [argument]).map (Payload.rename ρ)) := by
        rw [addFormal_wanted]
        exact congrArg b.addNodes (wantedFor_rename s [argument])
      -- The handles for the first argument are told from those for the others by their number.
      obtain ⟨hone, hothers⟩ := handles_of_append (wantedFor_cons s a argument rest ▸ h)
      rw [← hfirstArena, ← hfirstArena'] at hothers
      have hfirst := addFormal_rename s argument hone
      have hrest := ih (s.addFormal a argument).state.1 hothers
      simp only [addEach, List.map_cons]
      rw [hfirst.store]
      refine ⟨hrest.store, ?_, ?_⟩
      · show _ + _ = _ + _
        rw [hfirst.answer, hrest.answer]
        rfl
      · rw [List.map_append, hfirst.events, hrest.events]

/-- An operation on renamed identities does the same with them, when the arena grants the renamed handles. -/
theorem carryOut_rename (s : Store) (operation : Operation)
    (h : b.handles (s.wanted operation).length = (a.handles (s.wanted operation).length).map ρ.map) :
    ((s.rename ρ).carryOut b (operation.rename ρ)).state.1 = (s.carryOut a operation).state.1.rename ρ ∧
      (operation.showsIds = false →
        ((s.rename ρ).carryOut b (operation.rename ρ)).answer =
          Answer.renameResult ρ (s.carryOut a operation).answer) ∧
      ((s.rename ρ).carryOut b (operation.rename ρ)).events =
        (s.carryOut a operation).events.map (Event.rename ρ) := by
  cases operation with
  | ask query => exact ⟨rfl, ask_rename s, rfl⟩
  | update u =>
      have hfollows : Follows ρ Prod.fst (Answer.rename ρ) (s.update a u)
          ((s.rename ρ).update b (u.rename ρ)) := by
        cases u with
        | setBuilt built =>
            have hset := setBuilt_rename ρ s built
            exact ⟨hset.store, rfl, hset.events⟩
        | addFormal argument =>
            have hadd := addFormal_rename s argument h
            exact ⟨hadd.store, congrArg Answer.flag hadd.answer, hadd.events⟩
        | recordFormal argument node =>
            have hrecord := record_rename ρ s .argument argument node
            exact ⟨hrecord.store, congrArg Answer.flag hrecord.answer, hrecord.events⟩
        | addFormals =>
            have hadd := addEach_rename s s.declaration.params h
            exact ⟨hadd.store, congrArg Answer.count hadd.answer, hadd.events⟩
        | recordValue value node =>
            have hrecord := record_rename ρ s .value value node
            exact ⟨hrecord.store, congrArg Answer.flag hrecord.answer, hrecord.events⟩
        | listNode node =>
            have hlist := listNode_rename ρ s node
            exact ⟨hlist.store, rfl, hlist.events⟩
        | addCall call =>
            have hadd := addCall_rename ρ s call
            exact ⟨hadd.store, rfl, hadd.events⟩
      exact ⟨hfollows.store, fun _ => congrArg Except.ok hfollows.answer, hfollows.events⟩

end grants

end Store
end Dependence
