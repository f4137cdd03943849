import Dependence.Proofs.Store.Renaming

/-! # What a store draws

A store that works with several arenas in turn, or with one that others change as well, draws the handles of
its new nodes from the arenas that it meets (`Store.draws`).  Which nodes these are depends on the store and
its operations only (`payloads_draws`).  So if in another run the store draws other handles, it does the same
with these handles in the place of the first ones (`attend_moved`).

A renaming that moves handles and nothing else is `Renaming.moving`. -/

namespace Dependence

/-- The renaming that moves handles and nothing else. -/
def Renaming.moving (π : Handle → Handle) : Renaming where
  map := fun {e} => match e with
    | .node => π
    | .function | .argument | .value | .instruction => id
  argument_injective := Function.injective_id
  value_injective := Function.injective_id

namespace Store

variable {π : Handle → Handle}

/-- All handles that a store holds. -/
def held (s : Store) : List Handle := s.variadicNode.toList ++ s.enumerated

/-- Every handle that a store holds leads to a node of the arena. -/
def Over (s : Store) (a : Arena) : Prop := ∀ h ∈ s.held, a.contains h = true

/-- The handle that the caller of an operation supplies. -/
def Operation.supplied : Operation → Option Handle
  | .ask _ => none
  | .update u => u.supplied

/-- Whether an operation asks for a description, which shows handles. -/
def Operation.describes : Operation → Bool
  | .ask (.describe _) => true
  | _ => false

/-! ### Moving handles -/

theorem declaration_moving (d : Declaration) : d.rename (.moving π) = d := by
  have hparams : d.params.map (Renaming.moving π).map = d.params := List.map_id d.params
  unfold Declaration.rename
  rw [hparams]
  rfl

theorem call_moving (call : Call) : call.rename (.moving π) = call := by
  have hcallee : call.callee.map (Renaming.moving π).map = call.callee := by
    cases call.callee <;> rfl
  unfold Call.rename
  rw [hcallee]
  rfl

theorem payload_moving (payload : Payload) : payload.rename (.moving π) = payload := by
  cases payload <;> rfl

theorem index_moving {key : Entity} (hkey : ∀ k : Id key, (Renaming.moving π).map k = k) {x : Index key}
    (h : ∀ node ∈ x.entries.map Prod.snd, π node = node) : x.rename (.moving π) = x := by
  have hentries : ∀ entry ∈ x.entries,
      ((Renaming.moving π).map entry.1, (Renaming.moving π).map entry.2) = id entry := by
    intro entry hmem
    exact Prod.ext (hkey entry.1) (h entry.2 (List.mem_map_of_mem hmem))
  unfold Index.rename
  rw [List.map_congr_left hentries, List.map_id]

/-- A store that holds no handle that is moved stays as it is. -/
theorem rename_moving {s : Store} (h : ∀ node ∈ s.held, π node = node) : s.rename (.moving π) = s := by
  have hvariadic : s.variadicNode.map (Renaming.moving π).map = s.variadicNode := by
    cases hv : s.variadicNode with
    | none => rfl
    | some node => exact congrArg some (h node (by simp [held, hv]))
  have hlisted : s.listed.map (Renaming.moving π).map = s.listed := by
    have hnode : ∀ node ∈ s.listed, (Renaming.moving π).map node = node :=
      fun node hmem => h node (by simp [held, enumerated, hmem])
    rw [List.map_congr_left hnode, List.map_id']
  have hformals : s.formals.rename (.moving π) = s.formals :=
    index_moving (fun _ => rfl) fun node hmem => h node (by simp only [held, enumerated, List.mem_append]; tauto)
  have hvalues : s.values.rename (.moving π) = s.values :=
    index_moving (fun _ => rfl) fun node hmem => h node (by simp only [held, enumerated, List.mem_append]; tauto)
  have hcalls : s.calls.map (Call.rename (.moving π)) = s.calls := by
    rw [List.map_congr_left fun call _ => call_moving call, List.map_id']
  unfold rename
  rw [declaration_moving, hvariadic, hlisted, hformals, hvalues, hcalls]

theorem operation_moving {operation : Operation} (h : ∀ node, operation.supplied = some node → π node = node) :
    operation.rename (.moving π) = operation := by
  cases operation with
  | ask query => cases query <;> rfl
  | update u =>
      cases u with
      | recordFormal argument node =>
          exact congrArg (fun x => Operation.update (.recordFormal argument x)) (h node rfl)
      | recordValue value node =>
          exact congrArg (fun x => Operation.update (.recordValue value x)) (h node rfl)
      | listNode node => exact congrArg (fun x => Operation.update (.listNode x)) (h node rfl)
      | addCall call => exact congrArg (fun c => Operation.update (.addCall c)) (call_moving call)
      | _ => rfl

/-! ### Drawn handles -/

/-- The handles that a store draws from the arenas that it meets, with the payloads of the nodes. -/
def draws (s : Store) : List (Arena × Operation) → List (Handle × Payload)
  | [] => []
  | (a, operation) :: rest =>
      a.granted (s.wanted operation) ++ (s.carryOut a operation).state.1.draws rest

/-- The arguments that an operation records. -/
def Operation.records (d : Declaration) : Operation → List (Id .argument)
  | .update (.recordFormal argument _) => [argument]
  | .update u => u.requests d
  | .ask _ => []

theorem contains_addEach (s : Store) (a : Arena) (arguments : List (Id .argument)) (x : Id .argument) :
    (s.addEach a arguments).state.1.formals.contains x = (s.formals.contains x || x ∈ arguments) := by
  induction arguments generalizing s a with
  | nil => simp [addEach]
  | cons argument rest ih =>
      have hfirst : (s.addFormal a argument).state.1.formals = s.formals.record argument a.nextHandle := by
        rw [addFormal_eq, record_state]
        rfl
      simp only [addEach, ih, hfirst, Index.contains_record, List.mem_cons, Bool.decide_or, Bool.or_assoc]

/-- Which arguments have a node depends on neither arenas nor handles. -/
theorem contains_carryOut (s : Store) (a : Arena) (operation : Operation) (x : Id .argument) :
    (s.carryOut a operation).state.1.formals.contains x =
      (s.formals.contains x || x ∈ operation.records s.declaration) := by
  have hsame : ∀ t : Store, t.formals = s.formals → t.formals.contains x = (s.formals.contains x || x ∈ []) := by
    intro t ht
    simp [ht]
  cases operation with
  | ask query => exact hsame s rfl
  | update u =>
      cases u with
      | addFormal argument => exact contains_addEach s a [argument] x
      | addFormals => exact contains_addEach s a s.declaration.params x
      | recordFormal argument node =>
          have hformals : (s.record .argument argument node).state.formals = s.formals.record argument node := by
            rw [record_state]
            rfl
          show (s.record .argument argument node).state.formals.contains x = (s.formals.contains x || x ∈ [argument])
          rw [hformals, Index.contains_record]
          simp
      | setBuilt built =>
          refine hsame (s.setBuilt built).state ?_
          unfold setBuilt
          split <;> rfl
      | recordValue value node =>
          exact hsame (s.record .value value node).state (by rw [record_state]; rfl)
      | listNode | addCall => exact hsame _ rfl

theorem declaration_carryOut (s : Store) (a : Arena) (operation : Operation) :
    (s.carryOut a operation).state.1.declaration = s.declaration := by
  cases operation with
  | ask query => rfl
  | update u => exact update_declaration s a u

/-- What a store draws handles for depends on the store and its operations only, and of the store only on its
declaration and on which arguments have a node. -/
theorem payloads_draws {s t : Store} (hdeclaration : t.declaration = s.declaration)
    (hknown : ∀ x, t.formals.contains x = s.formals.contains x) {met met' : List (Arena × Operation)}
    (h : met'.map Prod.snd = met.map Prod.snd) :
    (t.draws met').map Prod.snd = (s.draws met).map Prod.snd := by
  induction met generalizing met' s t with
  | nil =>
      obtain rfl := List.map_eq_nil_iff.mp h
      rfl
  | cons first rest ih =>
      obtain ⟨a, operation⟩ := first
      obtain ⟨⟨b, operation'⟩, rest', rfl, hfirst, hrest⟩ := List.map_eq_cons_iff.mp h
      obtain rfl : operation' = operation := hfirst
      have hwanted : t.wanted operation' = s.wanted operation' := by
        have hall : t.formals.contains = s.formals.contains := funext hknown
        cases operation' with
        | ask query => rfl
        | update u =>
            unfold wanted wantedFor function
            rw [hall, hdeclaration]
      have hlater := ih (s := (s.carryOut a operation').state.1) (t := (t.carryOut b operation').state.1)
        (by rw [declaration_carryOut, declaration_carryOut, hdeclaration])
        (fun x => by rw [contains_carryOut, contains_carryOut, hknown, hdeclaration]) hrest
      simp only [draws, List.map_append, Arena.map_snd_granted, hwanted, hlater]

/-! ### Runs with other handles -/

/-- An answer that is no description is that with moved handles. -/
theorem answer_moved (s : Store) (a b : Arena) {operation : Operation} (h : operation.describes = false)
    (hgrants : b.handles (s.wanted operation).length = (a.handles (s.wanted operation).length).map π) :
    ((s.rename (.moving π)).carryOut b (operation.rename (.moving π))).answer =
      Answer.renameResult (.moving π) (s.carryOut a operation).answer := by
  cases hshows : operation.showsIds with
  | false => exact (carryOut_rename s operation hgrants).2.1 hshows
  | true =>
      cases operation with
      | update u => cases hshows
      | ask query =>
          cases query with
          | declaration =>
              exact congrArg (fun d => Except.ok (Answer.text (Declaration.format.text d)))
                (declaration_moving s.declaration)
          | describe => cases h
          | _ => cases hshows

/-- The second run of some operations is the first one with moved handles. -/
structure MovedBy (π : Handle → Handle) (operations : List Operation)
    (run run' : Change Store (List (Except Failure Answer))) : Prop where
  state : run'.state = run.state.rename (.moving π)
  events : run'.events = run.events.map (Event.rename (.moving π))
  /-- Descriptions are left out, since they show handles. -/
  answers : ∀ (k : Nat) (operation : Operation) (answer : Except Failure Answer),
    operations[k]? = some operation → operation.describes = false →
    run.answer[k]? = some answer → run'.answer[k]? = some (Answer.renameResult (.moving π) answer)

/-- When a store draws other handles, it does the same with these in the place of the first ones. -/
theorem attend_moved {s : Store} {met met' : List (Arena × Operation)}
    (h : met'.map Prod.snd = met.map Prod.snd)
    (hsupplied : ∀ operation ∈ met.map Prod.snd, ∀ node, operation.supplied = some node → π node = node)
    (hdraws : ((s.rename (.moving π)).draws met').map Prod.fst = ((s.draws met).map Prod.fst).map π) :
    MovedBy π (met.map Prod.snd) (s.attend met) ((s.rename (.moving π)).attend met') := by
  induction met generalizing met' s with
  | nil =>
      obtain rfl := List.map_eq_nil_iff.mp h
      exact ⟨rfl, rfl, fun k operation answer hk => by cases hk⟩
  | cons first rest ih =>
      obtain ⟨a, operation⟩ := first
      obtain ⟨⟨b, operation'⟩, rest', rfl, hfirst, hrest⟩ := List.map_eq_cons_iff.mp h
      obtain rfl : operation' = operation := hfirst
      have hfixed : operation'.rename (.moving π) = operation' :=
        operation_moving (hsupplied operation' List.mem_cons_self)
      have hwanted : (s.rename (.moving π)).wanted operation' = s.wanted operation' := by
        have hrename := wanted_rename (.moving π) s operation'
        rw [hfixed, List.map_congr_left fun payload _ => payload_moving payload, List.map_id'] at hrename
        exact hrename
      -- What is drawn first is told from what is drawn later by its number.
      simp only [draws, List.map_append, Arena.map_fst_granted, hwanted] at hdraws
      obtain ⟨hgrants, hlater⟩ := List.append_inj hdraws (by simp)
      obtain ⟨hstate, -, hevents⟩ := carryOut_rename (ρ := .moving π) s operation' hgrants
      rw [hfixed] at hstate hevents
      rw [hstate] at hlater
      obtain ⟨hstates, hevents', hanswers⟩ :=
        ih hrest (fun other hmem => hsupplied other (List.mem_cons_of_mem _ hmem)) hlater
      simp only [attend, hstate]
      refine ⟨hstates, by rw [hevents, hevents', List.map_append], ?_⟩
      intro k other answer hk hdescribes hanswer
      cases k with
      | zero =>
          obtain rfl := Option.some.inj hk
          obtain rfl := Option.some.inj hanswer
          have hone := answer_moved s a b hdescribes hgrants
          rw [hfixed] at hone
          exact congrArg some hone
      | succ k => exact hanswers k other answer hk hdescribes hanswer

/-- The same for a store over an arena whose handles are not moved. -/
theorem Over.attend_moved {s : Store} {a : Arena} (hover : s.Over a)
    (hstay : ∀ node, a.contains node = true → π node = node) {met met' : List (Arena × Operation)}
    (h : met'.map Prod.snd = met.map Prod.snd)
    (hsupplied : ∀ operation ∈ met.map Prod.snd, ∀ node, operation.supplied = some node →
      a.contains node = true)
    (hdraws : (s.draws met').map Prod.fst = ((s.draws met).map Prod.fst).map π) :
    MovedBy π (met.map Prod.snd) (s.attend met) (s.attend met') := by
  have hsame : s.rename (.moving π) = s := rename_moving fun node hmem => hstay node (hover node hmem)
  have hmoved := Store.attend_moved (s := s) h
    (fun operation hmem node hnode => hstay node (hsupplied operation hmem node hnode)) (by rwa [hsame])
  rwa [hsame] at hmoved

end Store
end Dependence
