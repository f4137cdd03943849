import Dependence.Proofs.Session.Framing
import Dependence.Proofs.Store.Renaming

/-! # Identities are opaque

When the identities of functions, arguments, values and instructions are renamed in a session and in the steps
that are carried out on it, every step gets the reply that it got before, with renamed identities
(`step_rename`), and so does every step of a run (`rename_run`).  Handles are not renamed.  Different
arguments and different values have to stay different; of functions and instructions not even this is asked,
since nothing ever compares them.

Texts that show identities are left out of the answers that are compared. -/

namespace Dependence

/-! ### Slots with other contents -/

namespace Slots

variable {α β : Type}

/-- The slots with their contents changed. -/
def map (f : α → β) (s : Slots α) : Slots β := ⟨s.cells.map (Option.map f)⟩

variable (f : α → β) (s : Slots α)

theorem get?_map (i : Nat) : (s.map f).get? i = (s.get? i).map f := by
  unfold get? map
  rw [List.getElem?_map]
  cases s.cells[i]? <;> rfl

theorem vacancies_map : (s.map f).vacancies = s.vacancies := by
  have hvacant : ∀ (cells : List (Option α)) (start : Nat),
      vacantFrom start (cells.map (Option.map f)) = vacantFrom start cells := by
    intro cells
    induction cells with
    | nil => exact fun _ => rfl
    | cons cell cells ih =>
        intro start
        rw [List.map_cons]
        cases cell with
        | none => exact congrArg (start :: ·) (ih (start + 1))
        | some a => exact ih (start + 1)
  exact hvacant s.cells 0

theorem insert_map (a : α) : (s.map f).insert (f a) = (s.insert a).map f := by
  have hvacancy : (s.map f).vacancy? = s.vacancy? := congrArg List.getLast? (vacancies_map f s)
  unfold insert
  rw [hvacancy]
  cases s.vacancy? with
  | none => simp [map]
  | some i => simp [map, List.map_set]

theorem upcoming_map (k : Nat) : (s.map f).upcoming k = s.upcoming k := by
  unfold upcoming
  rw [vacancies_map]
  simp [map]

theorem count_map : (s.map f).count = s.count := by
  simp [count, present, map, List.length_filterMap_eq_countP]

end Slots

/-! ### Arenas -/

section Renamed
variable (ρ : Renaming)

/-- Whether handles stay what they are. -/
def Renaming.KeepsHandles : Prop := ∀ h : Handle, ρ.map h = h

/-- An arena with renamed payloads. -/
def Arena.rename (a : Arena) : Arena := { a with nodes := a.nodes.map (Payload.rename ρ) }

/-- A change with a renamed payload. -/
def Arena.Update.rename : Arena.Update → Arena.Update
  | .addNode payload => .addNode (payload.rename ρ)
  | .connect edge => .connect edge

/-- Whether the answer shows identities in a text. -/
def Arena.Query.showsIds : Arena.Query → Bool
  | .dump | .describe _ => true
  | _ => false

/-- A session with renamed identities. -/
def Session.rename (s : Session) : Session where
  declarations := s.declarations.map (Declaration.rename ρ)
  arenas := s.arenas.map (Arena.rename ρ)
  stores := s.stores.map (Store.rename ρ)

/-- The second step is the first one with renamed identities; if it reads an arena, this has the renamed
payloads of the first. -/
inductive Step.Renames : Step → Step → Prop
  | newArena : Renames .newArena .newArena
  | copyArena (i : Nat) : Renames (.copyArena i) (.copyArena i)
  | loadArena {tree tree' : Json} :
      Arena.format.ofJson tree' = (Arena.format.ofJson tree).map (Arena.rename ρ) →
        Renames (.loadArena tree) (.loadArena tree')
  | askArena (i : Nat) (query : Arena.Query) : Renames (.askArena i query) (.askArena i query)
  | updateArena (i : Nat) (update : Arena.Update) :
      Renames (.updateArena i update) (.updateArena i (update.rename ρ))
  | newStore (d i : Nat) : Renames (.newStore d i) (.newStore d i)
  | askStore (j i : Nat) (query : Store.Query) : Renames (.askStore j i query) (.askStore j i (query.rename ρ))
  | updateStore (j i : Nat) (update : Store.Update) :
      Renames (.updateStore j i update) (.updateStore j i (update.rename ρ))

/-- Whether a step is answered with a text that shows identities. -/
def Step.showsIds : Step → Bool
  | .askArena _ query => query.showsIds
  | .askStore _ _ query => query.showsIds
  | _ => false

/-- The second reply to a step is the first one with renamed identities. -/
structure Reply.Follows (step : Step) (reply reply' : Reply) : Prop where
  session : reply'.session = reply.session.rename ρ
  answer : step.showsIds = false → reply'.answer = Answer.renameResult ρ reply.answer
  fails : ∀ f, reply.answer = .error f → reply'.answer = .error (f.rename ρ)
  succeeds : ∀ x, reply.answer = .ok x → ∃ y, reply'.answer = .ok y
  events : reply'.events = reply.events.map (Event.rename ρ)

end Renamed

variable {ρ : Renaming}

namespace Arena

variable (a : Arena)

theorem node?_rename (h : Handle) : (a.rename ρ).node? h = (a.node? h).map (Payload.rename ρ) :=
  Slots.get?_map ..

theorem contains_rename (h : Handle) : (a.rename ρ).contains h = a.contains h := by
  unfold contains
  rw [node?_rename, Option.isSome_map]

theorem addNode_rename (payload : Payload) :
    (a.rename ρ).addNode (payload.rename ρ) = (a.addNode payload).rename ρ := by
  unfold addNode rename
  rw [Slots.insert_map]

theorem addNodes_rename (payloads : List Payload) :
    (a.rename ρ).addNodes (payloads.map (Payload.rename ρ)) = (a.addNodes payloads).rename ρ := by
  induction payloads generalizing a with
  | nil => rfl
  | cons payload rest ih =>
      rw [List.map_cons]
      show ((a.rename ρ).addNode (payload.rename ρ)).addNodes _ = _
      rw [addNode_rename]
      exact ih (a.addNode payload)

theorem handles_rename (ρ : Renaming) (n : Nat) : (a.rename ρ).handles n = a.handles n := by
  unfold handles
  simp only [show ∀ k, (a.rename ρ).nodes.upcoming k = a.nodes.upcoming k from Slots.upcoming_map _ _]

theorem nextHandle_rename : (a.rename ρ).nextHandle = a.nextHandle := by
  have hone := a.handles_rename ρ 1
  rw [handles_one, handles_one] at hone
  exact (List.cons.inj hone).1

theorem chained_rename (chain : Chain) (h : Handle) : (a.rename ρ).chained chain h = a.chained chain h := by
  unfold chained
  rw [contains_rename]
  rfl

theorem connect_rename (edge : Edge) : (a.rename ρ).connect edge = (a.connect edge).map (Arena.rename ρ) := by
  unfold connect
  rw [contains_rename, contains_rename]
  split
  · rfl
  · split <;> rfl

theorem ask_rename (hρ : ρ.KeepsHandles) {query : Query} (h : query.showsIds = false) :
    (a.rename ρ).ask query = Answer.renameResult ρ (a.ask query) := by
  have hlist : ∀ list : List (Handle × Kind), (list.map fun entry => (ρ.map entry.1, entry.2)) = list := by
    intro list
    simp only [show ∀ h : Handle, ρ.map h = h from hρ]
    exact List.map_id list
  cases query with
  | dump | describe => cases h
  | node x => exact congrArg (fun p => Except.ok (Answer.optionalPayload p)) (a.node?_rename x)
  | tryNode x =>
      simp only [ask, node, node?_rename]
      cases a.node? x with
      | some payload => rfl
      | none => exact congrArg (fun y => Except.error (Failure.missing (.node y))) (hρ x).symm
  | contains x => exact congrArg (fun b => Except.ok (Answer.flag b)) (a.contains_rename x)
  | nodeCount => exact congrArg (fun n => Except.ok (Answer.count n)) (Slots.count_map _ a.nodes)
  | edgeCount => rfl
  | dependencies x =>
      have hsame : (a.rename ρ).dependencies x = a.dependencies x :=
        congrArg (List.map _) (a.chained_rename a.incoming x)
      simp only [ask, hsame, Answer.renameResult, Except.map, Except.mapError, Answer.rename, hlist]
  | dependents x =>
      have hsame : (a.rename ρ).dependents x = a.dependents x :=
        congrArg (List.map _) (a.chained_rename a.outgoing x)
      simp only [ask, hsame, Answer.renameResult, Except.map, Except.mapError, Answer.rename, hlist]

theorem update_rename (hρ : ρ.KeepsHandles) (update : Update) :
    (a.rename ρ).update (update.rename ρ) =
      ((a.update update).1.rename ρ, Answer.renameResult ρ (a.update update).2) := by
  cases update with
  | addNode payload =>
      have hnext : (a.rename ρ).nextHandle = ρ.map a.nextHandle := (a.nextHandle_rename).trans (hρ _).symm
      simp only [Update.rename, Arena.update, addNode_rename, hnext]
      rfl
  | connect edge =>
      simp only [Update.rename, Arena.update, connect_rename]
      cases hc : a.connect edge with
      | ok b => rfl
      | error m =>
          -- What is missing is a handle, and these are kept.
          have hm : m.rename ρ = m := by
            unfold connect at hc
            split at hc
            · cases hc
              exact congrArg Missing.node (hρ _)
            · split at hc
              · cases hc
                exact congrArg Missing.node (hρ _)
              · cases hc
          show (a.rename ρ, Except.error (Failure.missing m)) = (a.rename ρ, .error (.missing (m.rename ρ)))
          rw [hm]

end Arena

/-! ### Sessions -/

namespace Session

variable {s : Session}

theorem arenas_rename (s : Session) (i : Nat) :
    (s.rename ρ).arenas[i]? = (s.arenas[i]?).map (Arena.rename ρ) :=
  List.getElem?_map ..

theorem stores_rename (s : Session) (j : Nat) :
    (s.rename ρ).stores[j]? = (s.stores[j]?).map (Store.rename ρ) :=
  List.getElem?_map ..

/-- A reply whose answer is renamed fails and succeeds as before. -/
theorem follows_of_answer {step : Step} {reply reply' : Reply}
    (hsession : reply'.session = reply.session.rename ρ)
    (hanswer : reply'.answer = Answer.renameResult ρ reply.answer)
    (hevents : reply'.events = reply.events.map (Event.rename ρ)) : reply.Follows ρ step reply' := by
  refine ⟨hsession, fun _ => hanswer, ?_, ?_, hevents⟩
  · intro f hf
    rw [hanswer, hf]
    rfl
  · intro x hx
    rw [hanswer, hx]
    exact ⟨_, rfl⟩

theorem follows_badRequest (step : Step) :
    (s.say (.error .badRequest)).Follows ρ step ((s.rename ρ).say (.error .badRequest)) :=
  follows_of_answer rfl rfl rfl

theorem follows_withArena (step : Step) (a : Arena) :
    (s.withArena a).Follows ρ step ((s.rename ρ).withArena (a.rename ρ)) := by
  refine follows_of_answer ?_ ?_ rfl
  · simp [withArena, Session.rename]
  · simp [withArena, Session.rename, Answer.renameResult, Except.map, Except.mapError, Answer.rename]

/-- Of texts that show identities it is only said that both are there. -/
theorem follows_text {step : Step} (h : step.showsIds = true) (x y : String) :
    (s.say (.ok (.text x))).Follows ρ step ((s.rename ρ).say (.ok (.text y))) := by
  refine ⟨rfl, ?_, ?_, fun _ _ => ⟨_, rfl⟩, rfl⟩
  · intro hnot
    rw [h] at hnot
    cases hnot
  · intro f hf
    cases hf

theorem create_rename (hρ : ρ.KeepsHandles) (a : Arena) (d : Declaration) :
    let made := Store.create a d
    let made' := Store.create (a.rename ρ) (d.rename ρ)
    made'.state = (made.state.1.rename ρ, made.state.2.rename ρ) ∧
      made'.events = made.events.map (Event.rename ρ) := by
  have hnext : (a.rename ρ).nextHandle = ρ.map a.nextHandle := (a.nextHandle_rename).trans (hρ _).symm
  have hvariadic : (d.rename ρ).isVariadic = d.isVariadic := rfl
  unfold Store.create
  rw [hvariadic]
  cases d.isVariadic with
  | true =>
      refine ⟨?_, rfl⟩
      simp only [if_true, hnext]
      exact congrArg (Prod.mk _) (a.addNode_rename (.variadic d.id))
  | false => exact ⟨rfl, rfl⟩

/-- An operation on a renamed store over a renamed arena changes both as before. -/
theorem carryOut_rename (hρ : ρ.KeepsHandles) (store : Store) (a : Arena) (operation : Store.Operation) :
    let change := store.carryOut a operation
    let change' := (store.rename ρ).carryOut (a.rename ρ) (operation.rename ρ)
    change'.state = (change.state.1.rename ρ, change.state.2.rename ρ) ∧
      (operation.showsIds = false → change'.answer = Answer.renameResult ρ change.answer) ∧
      change'.events = change.events.map (Event.rename ρ) := by
  have hgrants : ∀ n, (a.rename ρ).handles n = (a.handles n).map ρ.map := by
    intro n
    rw [a.handles_rename ρ, List.map_congr_left fun h _ => hρ h, List.map_id']
  obtain ⟨hstore, hanswer, hevents⟩ := store.carryOut_rename operation (hgrants (store.wanted operation).length)
  have harena := (store.rename ρ).carryOut_wanted (a.rename ρ) (operation.rename ρ)
  rw [store.wanted_rename, a.addNodes_rename, ← store.carryOut_wanted] at harena
  exact ⟨Prod.ext hstore harena, hanswer, hevents⟩

/-! ### One step -/

section OneStep
variable (hρ : ρ.KeepsHandles) (s : Session)

theorem loadArena_rename {tree tree' : Json}
    (htree : Arena.format.ofJson tree' = (Arena.format.ofJson tree).map (Arena.rename ρ)) :
    (s.step (.loadArena tree)).Follows ρ (.loadArena tree) ((s.rename ρ).step (.loadArena tree')) := by
  simp only [Session.step, htree]
  cases Arena.format.ofJson tree with
  | ok a => exact follows_withArena _ a
  | error m => exact follows_of_answer rfl rfl rfl

theorem askStore_rename (j i : Nat) (query : Store.Query) :
    (s.step (.askStore j i query)).Follows ρ (.askStore j i query)
      ((s.rename ρ).step (.askStore j i (query.rename ρ))) := by
  simp only [Session.step, arenas_rename, stores_rename]
  cases s.stores[j]? with
  | none => exact follows_badRequest _
  | some store =>
      cases s.arenas[i]? with
      | none => exact follows_badRequest _
      | some a =>
          cases hquery : query.showsIds with
          | false => exact follows_of_answer rfl (store.ask_rename hquery) rfl
          | true =>
              cases query with
              | declaration | describe => exact follows_text rfl _ _
              | _ => cases hquery

include hρ

theorem askArena_rename (i : Nat) (query : Arena.Query) :
    (s.step (.askArena i query)).Follows ρ (.askArena i query) ((s.rename ρ).step (.askArena i query)) := by
  simp only [Session.step, arenas_rename]
  cases s.arenas[i]? with
  | none => exact follows_badRequest _
  | some a =>
      cases hquery : query.showsIds with
      | false => exact follows_of_answer rfl (a.ask_rename hρ hquery) rfl
      | true =>
          cases query with
          | dump | describe => exact follows_text rfl _ _
          | _ => cases hquery

theorem updateArena_rename (i : Nat) (update : Arena.Update) :
    (s.step (.updateArena i update)).Follows ρ (.updateArena i update)
      ((s.rename ρ).step (.updateArena i (update.rename ρ))) := by
  simp only [Session.step, arenas_rename]
  cases s.arenas[i]? with
  | none => exact follows_badRequest _
  | some a =>
      simp only [Option.map_some, a.update_rename hρ]
      refine follows_of_answer ?_ rfl rfl
      simp [Session.rename, List.map_set]

theorem newStore_rename (d i : Nat) :
    (s.step (.newStore d i)).Follows ρ (.newStore d i) ((s.rename ρ).step (.newStore d i)) := by
  have hdeclaration : (s.rename ρ).declarations[d]? = s.declarations[d]?.map (Declaration.rename ρ) :=
    List.getElem?_map ..
  simp only [Session.step, arenas_rename, hdeclaration]
  cases s.declarations[d]? with
  | none => exact follows_badRequest _
  | some declaration =>
      cases s.arenas[i]? with
      | none => exact follows_badRequest _
      | some a =>
          obtain ⟨hstate, hevents⟩ := create_rename hρ a declaration
          refine follows_of_answer ?_ ?_ hevents
          · simp [hstate, Session.rename, List.map_set]
          · simp [Session.rename, Answer.renameResult, Except.map, Except.mapError, Answer.rename]

theorem updateStore_rename (j i : Nat) (update : Store.Update) :
    (s.step (.updateStore j i update)).Follows ρ (.updateStore j i update)
      ((s.rename ρ).step (.updateStore j i (update.rename ρ))) := by
  simp only [Session.step, arenas_rename, stores_rename]
  cases s.stores[j]? with
  | none => exact follows_badRequest _
  | some store =>
      cases s.arenas[i]? with
      | none => exact follows_badRequest _
      | some a =>
          obtain ⟨hstate, hanswer, hevents⟩ := carryOut_rename hρ store a (.update update)
          have hstate' : ((store.rename ρ).update (a.rename ρ) (update.rename ρ)).state =
              ((store.update a update).state.1.rename ρ, (store.update a update).state.2.rename ρ) := hstate
          refine follows_of_answer ?_ (hanswer rfl) hevents
          simp [hstate', Session.rename, List.map_set]

/-- A step on renamed identities gets the reply with renamed identities. -/
theorem step_rename {step step' : Step} (h : step.Renames ρ step') :
    (s.step step).Follows ρ step ((s.rename ρ).step step') := by
  cases h with
  | newArena => exact follows_withArena _ .empty
  | copyArena i =>
      simp only [Session.step, arenas_rename]
      cases s.arenas[i]? with
      | none => exact follows_badRequest _
      | some a => exact follows_withArena _ a
  | loadArena htree => exact loadArena_rename s htree
  | askArena i query => exact askArena_rename hρ s i query
  | updateArena i update => exact updateArena_rename hρ s i update
  | newStore d i => exact newStore_rename hρ s d i
  | askStore j i query => exact askStore_rename s j i query
  | updateStore j i update => exact updateStore_rename hρ s j i update

end OneStep

/-! ### All steps -/

/-- A run of steps on renamed identities leads to the same session with renamed identities, and gets the
replies with renamed identities on the way. -/
theorem rename_run (hρ : ρ.KeepsHandles) {steps steps' : List Step}
    (h : List.Forall₂ (Step.Renames ρ) steps steps') (s : Session) :
    ((s.rename ρ).run steps').1 = (s.run steps).1.rename ρ ∧
      ∀ (k : Nat) (step : Step) (reply : Reply), steps[k]? = some step → (s.run steps).2[k]? = some reply →
        ∃ reply', ((s.rename ρ).run steps').2[k]? = some reply' ∧ reply.Follows ρ step reply' := by
  induction h generalizing s with
  | nil => exact ⟨rfl, fun k step reply hstep => by cases hstep⟩
  | @cons step step' steps steps' hstep _ ih =>
      have hreply := step_rename hρ s hstep
      obtain ⟨hlast, hreplies⟩ := ih (s.step step).session
      rw [← hreply.session] at hlast hreplies
      refine ⟨hlast, ?_⟩
      intro k other reply hk hr
      cases k with
      | zero =>
          obtain rfl := Option.some.inj hk
          obtain rfl := Option.some.inj hr
          exact ⟨_, rfl, hreply⟩
      | succ k => exact hreplies k other reply hk hr

/-- Arguments and values are shifted, and all functions and all instructions become one. -/
def shifting : Renaming where
  map := fun {e} x =>
    ⟨match e with
      | .node => x.word
      | .argument | .value => x.word + 5
      | .function | .instruction => 0⟩
  argument_injective := fun _ _ h => congrArg Id.mk ((UInt32.add_left_inj 5).mp (congrArg Id.word h))
  value_injective := fun _ _ h => congrArg Id.mk ((UInt32.add_left_inj 5).mp (congrArg Id.word h))

/-- A parameter is recorded, and a value is demanded that has no node. -/
theorem rename_run_shifting :
    let s : Session := { declarations := [{ id := ⟨2⟩, name := "f", params := [⟨3⟩] }] }
    let steps : List Step :=
      [.newStore 0 0, .updateStore 0 0 .addFormals, .askStore 0 0 (.demandValue ⟨7⟩)]
    let steps' : List Step :=
      [.newStore 0 0, .updateStore 0 0 .addFormals, .askStore 0 0 (.demandValue ⟨12⟩)]
    shifting.KeepsHandles ∧ List.Forall₂ (Step.Renames shifting) steps steps' ∧
      ((s.rename shifting).run steps').1 = (s.run steps).1.rename shifting ∧
      ∃ reply, ((s.rename shifting).run steps').2[2]? = some reply ∧
        reply.answer = .error (.aborted (.value ⟨0⟩ ⟨12⟩)) := by
  intro s steps steps'
  have hkeeps : shifting.KeepsHandles := fun _ => rfl
  have hsteps : List.Forall₂ (Step.Renames shifting) steps steps' :=
    .cons (.newStore 0 0) (.cons (.updateStore 0 0 .addFormals)
      (.cons (.askStore 0 0 (.demandValue ⟨7⟩)) .nil))
  obtain ⟨hlast, hreplies⟩ := rename_run hkeeps hsteps s
  obtain ⟨reply, hreply, hfollows⟩ := hreplies 2 _ _ rfl rfl
  exact ⟨hkeeps, hsteps, hlast, reply, hreply, hfollows.answer rfl⟩

end Session
end Dependence
