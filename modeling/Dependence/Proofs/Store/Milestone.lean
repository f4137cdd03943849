import Dependence.Proofs.Store.Operation

/-! # The milestone is advisory

Nothing but its own look-ups and the log can tell whether the milestone of a store was reached.  A store
and the same store at another stage answer every other operation alike, change alike and report alike, as
far as the report is not about the milestone (`carryOut_atStage`).  So a run and the same run without the
operations that set the milestone end in stores that differ in their stage only, with the same arena
(`serve_unset`), and any two runs that differ in such operations only are alike (`Alike`).

The stage itself is that of the first operation that reaches the milestone (`stage_serve`). -/

namespace Dependence

namespace Event

/-- Whether an event neither warns nor reports that the milestone is reached. -/
def isQuiet (e : Event) : Bool := e.level ≠ .warn && e.message ≠ "function pdg definition built"

/-- The events that neither warn nor report that the milestone is reached. -/
def quiet (events : List Event) : List Event := events.filter isQuiet

theorem quiet_append (events more : List Event) : quiet (events ++ more) = quiet events ++ quiet more :=
  List.filter_append ..

end Event

namespace Store

open Event (quiet)

/-- Whether an operation sets the milestone. -/
def Operation.setsMilestone : Operation → Bool
  | .update (.setBuilt _) => true
  | _ => false

/-- Whether an operation looks at the milestone. -/
def Operation.asksMilestone : Operation → Bool
  | .ask .stage | .ask .isBuilt | .ask (.describe _) => true
  | _ => false

/-- The store at another stage. -/
def atStage (s : Store) (stage : Stage) : Store := { s with stage }

/-- The operations and their answers, but for those that set the milestone or look at it. -/
def transcript (operations : List Operation) (answers : List (Except Failure Answer)) :
    List (Operation × Except Failure Answer) :=
  (operations.zip answers).filter fun (operation, _) =>
    !operation.setsMilestone && !operation.asksMilestone

/-! ### One operation -/

/-- Two changes of which the second began with the same store at another stage. -/
structure Restaged {α : Type} (stage : Stage) (c c' : Change (Store × Arena) α) : Prop where
  state : c'.state = (c.state.1.atStage stage, c.state.2)
  answer : c'.answer = c.answer
  quiet : quiet c'.events = quiet c.events

section one
variable (s : Store) (arena : Arena) (stage : Stage)

theorem quiet_lateWrite (what : Written) : quiet (s.lateWrite what) = [] := by
  unfold lateWrite
  split <;> rfl

theorem quiet_lateWrite_append (what : Written) (events : List Event) :
    quiet (s.lateWrite what ++ events) = quiet events := by
  rw [Event.quiet_append, quiet_lateWrite, List.nil_append]

/-- A recording does the same at another stage, next to whatever arena and however it is answered. -/
theorem record_atStage {key : Entity} (k : Indexed key) (x : Id key) (node : Handle) {α : Type}
    (answer : Bool → α) :
    Restaged stage ((s.record k x node).lift (·, arena) answer)
      (((s.atStage stage).record k x node).lift (·, arena) answer) := by
  have hsame : (s.atStage stage).index k = s.index k := by cases k <;> rfl
  cases h : (s.index k).contains x with
  | true =>
      rw [record_of_contains h, record_of_contains (hsame ▸ h)]
      exact ⟨rfl, rfl, (quiet_lateWrite ..).trans (quiet_lateWrite ..).symm⟩
  | false =>
      rw [record_of_not_contains h, record_of_not_contains (hsame ▸ h)]
      refine ⟨?_, rfl, (quiet_lateWrite_append ..).trans (quiet_lateWrite_append ..).symm⟩
      cases k <;> rfl

theorem addFormal_atStage (argument : Id .argument) :
    Restaged stage (s.addFormal arena argument) ((s.atStage stage).addFormal arena argument) := by
  rw [addFormal_eq, addFormal_eq]
  exact record_atStage s _ stage .argument argument arena.nextHandle id

theorem addEach_atStage (arguments : List (Id .argument)) :
    Restaged stage (s.addEach arena arguments) ((s.atStage stage).addEach arena arguments) := by
  induction arguments generalizing s arena with
  | nil => exact ⟨rfl, rfl, rfl⟩
  | cons argument rest ih =>
      have hfirst := addFormal_atStage s arena stage argument
      have hothers := ih (s.addFormal arena argument).state.1 (s.addFormal arena argument).state.2
      simp only [addEach, hfirst.state]
      refine ⟨hothers.state, ?_, ?_⟩
      · rw [hfirst.answer, hothers.answer]
      · rw [Event.quiet_append, Event.quiet_append, hfirst.quiet, hothers.quiet]

theorem update_atStage {u : Update} (hu : (Operation.update u).setsMilestone = false) :
    Restaged stage (s.update arena u) ((s.atStage stage).update arena u) := by
  cases u with
  | setBuilt built => cases hu
  | addFormal argument =>
      have h := addFormal_atStage s arena stage argument
      exact ⟨h.state, congrArg Answer.flag h.answer, h.quiet⟩
  | recordFormal argument node => exact record_atStage s arena stage .argument argument node Answer.flag
  | addFormals =>
      have h := addEach_atStage s arena stage s.declaration.params
      exact ⟨h.state, congrArg Answer.count h.answer, h.quiet⟩
  | recordValue value node => exact record_atStage s arena stage .value value node Answer.flag
  | listNode node =>
      refine ⟨rfl, rfl, ?_⟩
      simp only [update, listNode, Change.lift, quiet_lateWrite_append]
      rfl
  | addCall call =>
      refine ⟨rfl, rfl, ?_⟩
      simp only [update, addCall, Change.lift, quiet_lateWrite_append]
      rfl

theorem ask_atStage {query : Query} (hquery : (Operation.ask query).asksMilestone = false) :
    (s.atStage stage).ask query = s.ask query := by
  cases query with
  | stage | isBuilt | describe => cases hquery
  | _ => rfl

/-- An operation that does not set the milestone does the same at another stage, and answers the same
unless it looks at the milestone. -/
theorem carryOut_atStage {operation : Operation} (h : operation.setsMilestone = false) :
    ((s.atStage stage).carryOut arena operation).state =
        ((s.carryOut arena operation).state.1.atStage stage, (s.carryOut arena operation).state.2) ∧
      (operation.asksMilestone = false →
        ((s.atStage stage).carryOut arena operation).answer = (s.carryOut arena operation).answer) ∧
      quiet ((s.atStage stage).carryOut arena operation).events =
        quiet (s.carryOut arena operation).events := by
  cases operation with
  | ask query => exact ⟨rfl, fun hquery => ask_atStage s stage hquery, rfl⟩
  | update u =>
      have hu := update_atStage s arena stage h
      exact ⟨hu.state, fun _ => congrArg Except.ok hu.answer, hu.quiet⟩

/-- An operation that sets the milestone changes the stage at most, and is not heard of. -/
theorem carryOut_of_setsMilestone {operation : Operation} (h : operation.setsMilestone = true) :
    (∃ stage, (s.carryOut arena operation).state = (s.atStage stage, arena)) ∧
      quiet (s.carryOut arena operation).events = [] := by
  cases operation with
  | ask query => cases h
  | update u =>
      cases u with
      | setBuilt built =>
          simp only [carryOut, update, setBuilt, Change.lift]
          split
          · exact ⟨⟨.built, rfl⟩, rfl⟩
          · exact ⟨⟨s.stage, rfl⟩, rfl⟩
          · exact ⟨⟨s.stage, rfl⟩, rfl⟩
      | _ => cases h

end one

/-! ### Runs -/

section runs
variable (s : Store) (arena : Arena) (stage : Stage)

/-- The operations of a run but for those that set the milestone. -/
def unset (operations : List Operation) : List Operation :=
  operations.filter fun operation => !operation.setsMilestone

theorem transcript_cons (operation : Operation) (operations : List Operation) (answer : Except Failure Answer)
    (answers : List (Except Failure Answer)) :
    transcript (operation :: operations) (answer :: answers) =
      if operation.setsMilestone || operation.asksMilestone then transcript operations answers
      else (operation, answer) :: transcript operations answers := by
  unfold transcript
  rw [List.zip_cons_cons, List.filter_cons]
  cases h : operation.setsMilestone <;> cases h' : operation.asksMilestone <;> simp [h, h']

/-- A run does the same at another stage and without the operations that set the milestone. -/
theorem serve_unset (operations : List Operation) :
    let run := s.serve arena operations
    let other := (s.atStage stage).serve arena (unset operations)
    other.state = (run.state.1.atStage stage, run.state.2) ∧
      transcript (unset operations) other.answer = transcript operations run.answer ∧
      quiet other.events = quiet run.events := by
  induction operations generalizing s arena with
  | nil => exact ⟨rfl, rfl, rfl⟩
  | cons operation rest ih =>
      cases h : operation.setsMilestone with
      | true =>
          obtain ⟨⟨later, hstate⟩, hquiet⟩ := carryOut_of_setsMilestone s arena h
          obtain ⟨hstates, hanswers, hevents⟩ := ih (s.atStage later) arena
          have hunset : unset (operation :: rest) = unset rest := by
            simp [unset, h]
          simp only [hunset, serve, hstate, transcript_cons, h, Bool.true_or, if_true, Event.quiet_append,
            hquiet, List.nil_append]
          exact ⟨hstates, hanswers, hevents⟩
      | false =>
          obtain ⟨hstate, hanswer, hquiet⟩ := carryOut_atStage s arena stage h
          obtain ⟨hstates, hanswers, hevents⟩ :=
            ih (s.carryOut arena operation).state.1 (s.carryOut arena operation).state.2
          have hunset : unset (operation :: rest) = operation :: unset rest := by
            simp [unset, h]
          simp only [hunset, serve, hstate, transcript_cons, h, Bool.false_or, Event.quiet_append, hquiet,
            hevents, hanswers]
          refine ⟨hstates, ?_, trivial⟩
          cases hask : operation.asksMilestone with
          | true => rfl
          | false => rw [hanswer hask]

/-- The milestone is reached by the first operation that sets it, and by no other. -/
theorem stage_serve (operations : List Operation) :
    (s.serve arena operations).state.1.stage = .built ↔
      s.stage = .built ∨ .update (.setBuilt true) ∈ operations := by
  induction operations generalizing s arena with
  | nil => simp [serve]
  | cons operation rest ih =>
      have hone : (s.carryOut arena operation).state.1.stage = .built ↔
          s.stage = .built ∨ operation = .update (.setBuilt true) := by
        cases h : operation.setsMilestone with
        | true =>
            cases operation with
            | ask query => cases h
            | update u =>
                cases u with
                | setBuilt built =>
                    cases hs : s.stage <;> cases built <;> simp [carryOut, update, setBuilt, Change.lift, hs]
                | _ => cases h
        | false =>
            -- At its own stage the store does what it does, so the stage stays.
            have hstate := (carryOut_atStage s arena s.stage h).1
            have hkept : (s.carryOut arena operation).state.1.stage = s.stage :=
              congrArg (fun t => t.1.stage) hstate
            have hne : operation ≠ .update (.setBuilt true) := by
              rintro rfl
              cases h
            simp [hkept, hne]
      rw [serve, ih, hone, List.mem_cons, or_assoc, eq_comm (a := operation)]

end runs

/-! ### Two runs -/

/-- Two runs on one store that nothing but the milestone tells apart. -/
structure Alike (operations more : List Operation)
    (run other : Change (Store × Arena) (List (Except Failure Answer))) : Prop where
  transcript : transcript operations run.answer = transcript more other.answer
  /-- The stores have the same entries, listed nodes, calls and further node. -/
  store : other.state.1 = run.state.1.atStage other.state.1.stage
  arena : other.state.2 = run.state.2
  events : quiet run.events = quiet other.events

/-- Two runs that differ only in operations that set the milestone are alike. -/
theorem alike_serve (s : Store) (arena : Arena) {operations more : List Operation}
    (h : unset operations = unset more) :
    Alike operations more (s.serve arena operations) (s.serve arena more) := by
  obtain ⟨hstate, htranscript, hevents⟩ := serve_unset s arena .building operations
  obtain ⟨hstate', htranscript', hevents'⟩ := serve_unset s arena .building more
  rw [← h] at hstate' htranscript' hevents'
  obtain ⟨hstore, harena⟩ := Prod.mk.inj (hstate.symm.trans hstate')
  refine ⟨htranscript.symm.trans htranscript', ?_, harena.symm, hevents.symm.trans hevents'⟩
  exact (congrArg (fun t => t.atStage (s.serve arena more).state.1.stage) hstore).symm

/-- The milestone of a store is reached once some operation sets it, and stays; and two runs that differ
only in operations that set it are alike. -/
theorem milestone_serve (start : Arena) (d : Declaration) (operations more : List Operation) :
    let made := create start d
    let run := made.state.1.serve made.state.2
    ((run operations).state.1.stage = .built ↔ .update (.setBuilt true) ∈ operations) ∧
      ((run operations).state.1.stage = .built → (run (operations ++ more)).state.1.stage = .built) ∧
      (unset operations = unset more → Alike operations more (run operations) (run more)) := by
  intro made run
  have hbuilding : made.state.1.stage = .building := by
    unfold made create
    split <;> rfl
  have hstage : ∀ operations, (run operations).state.1.stage = .built ↔
      .update (.setBuilt true) ∈ operations := by
    intro operations
    rw [stage_serve, hbuilding]
    simp
  refine ⟨hstage operations, ?_, alike_serve made.state.1 made.state.2⟩
  intro hbuilt
  rw [hstage] at hbuilt ⊢
  exact List.mem_append_left more hbuilt

/-- A variadic function with two parameters. -/
def printed : Declaration := ⟨⟨3⟩, "print", [⟨1⟩, ⟨2⟩], true⟩

/-- Writes to a store before and after the milestone, which somebody tries to take back. -/
def lateWrites : List Operation :=
  [.update .addFormals, .update (.setBuilt true), .update (.setBuilt false),
    .update (.recordValue ⟨7⟩ ⟨0⟩), .ask (.tryValue ⟨7⟩)]

/-- The same writes without the milestone leave the same behind. -/
theorem milestone_serve_lateWrites :
    let made := create .empty printed
    let run := made.state.1.serve made.state.2
    let writes := unset lateWrites
    (run lateWrites).state.1.stage = .built ∧ (run (lateWrites ++ writes)).state.1.stage = .built ∧
      (run writes).state.1.stage = .building ∧ Alike lateWrites writes (run lateWrites) (run writes) ∧
      (run writes).answer = [.ok (.count 2), .ok (.flag true), .ok (.handle ⟨0⟩)] := by
  dsimp only
  obtain ⟨hstage, hlater, halike⟩ := milestone_serve .empty printed lateWrites (unset lateWrites)
  have hbuilt := hstage.mpr (List.mem_cons_of_mem _ List.mem_cons_self)
  exact ⟨hbuilt, hlater hbuilt, rfl, halike rfl, rfl⟩

end Store
end Dependence
