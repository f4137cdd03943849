import Dependence.Proofs.Session.Step
import Dependence.Proofs.Store.Allocation

/-! # What a step leaves alone

A step that fails leaves no trace: the session is as before, and nothing is reported (`atomic_step`).
Hence the steps of a run that fail can be left out of it (`run_succeeding`).

A step that succeeds changes what it addresses and nothing else (`Changes`).  In particular only steps that
make nodes or edges change an arena, and questions change nothing.

Both are read off what a step can do at all (`Session.Does`). -/

namespace Dependence

namespace Session

variable {s : Session}

/-! ### Steps that fail -/

theorem Does.atomic {step : Step} {reply : Reply} (h : s.Does step reply) {f : Failure}
    (hf : reply.answer = .error f) : reply.session = s ∧ reply.events = [] := by
  cases h with
  | fails => exact ⟨rfl, rfl⟩
  | _ => cases hf

/-- A step that fails leaves no trace. -/
theorem atomic_step {step : Step} {f : Failure} (h : (s.step step).answer = .error f) :
    (s.step step).session = s ∧ (s.step step).events = [] :=
  (step_does s step).atomic h

/-- The steps of a run that do not fail. -/
def succeeding (s : Session) : List Step → List Step
  | [] => []
  | step :: steps =>
      let reply := s.step step
      match reply.answer with
      | .ok _ => step :: reply.session.succeeding steps
      | .error _ => reply.session.succeeding steps

/-- A run without the steps that fail comes to the same session, with the same events on the way. -/
theorem run_succeeding (s : Session) (steps : List Step) :
    (s.run (s.succeeding steps)).1 = (s.run steps).1 ∧
      (s.run (s.succeeding steps)).2.flatMap Reply.events = (s.run steps).2.flatMap Reply.events := by
  induction steps generalizing s with
  | nil => exact ⟨rfl, rfl⟩
  | cons step steps ih =>
      obtain ⟨hsession, hevents⟩ := ih (s.step step).session
      cases hanswer : (s.step step).answer with
      | ok answer =>
          simp only [succeeding, run, hanswer, List.flatMap_cons]
          exact ⟨hsession, by rw [hevents]⟩
      | error f =>
          obtain ⟨hsame, hquiet⟩ := atomic_step hanswer
          rw [hsame] at hsession hevents
          simp only [succeeding, run, hanswer, hsame, List.flatMap_cons, hquiet, List.nil_append]
          exact ⟨hsession, hevents⟩

/-! ### Steps that succeed -/

/-- What a step may change. -/
inductive Changes (s : Session) : Step → Session → Prop
  | nothing (step : Step) : Changes s step s
  | appendsArena {step : Step} (a : Arena) :
      step.makesArena = true → Changes s step { s with arenas := s.arenas ++ [a] }
  | setsArena (i : Nat) (update : Arena.Update) (a : Arena) :
      Changes s (.updateArena i update) { s with arenas := s.arenas.set i a }
  | appendsStore (d i : Nat) (a : Arena) (store : Store) :
      Changes s (.newStore d i) { s with arenas := s.arenas.set i a, stores := s.stores ++ [store] }
  | setsStore (j i : Nat) (update : Store.Update) (store : Store) :
      Changes s (.updateStore j i update) { s with stores := s.stores.set j store }
  | setsBoth (j i : Nat) {update : Store.Update} (a : Arena) (store : Store) :
      update.allocates = true →
        Changes s (.updateStore j i update)
          { s with arenas := s.arenas.set i a, stores := s.stores.set j store }

/-- A step changes what it addresses and nothing else. -/
theorem Does.changes {step : Step} {reply : Reply} (h : s.Does step reply) :
    s.Changes step reply.session := by
  cases h with
  | fails => exact .nothing _
  | looks => exact .nothing _
  | makes a hmakes => exact .appendsArena a hmakes
  | works ha hwork => exact .setsArena ..
  | creates hd ha => exact .appendsStore ..
  | @updates j i store a update hs ha =>
      cases hu : update.allocates with
      | true => exact .setsBoth j i _ _ hu
      | false =>
          simp only [(store.update_spares a hu).arena, set_eq_self ha]
          exact .setsStore ..

end Session

namespace Store

/-- A recording that is turned down changes nothing, and is reported only after the milestone. -/
theorem record_declined (s : Store) {key : Entity} {k : Indexed key} {x : Id key} {node : Handle}
    (h : (s.record k x node).answer = false) :
    (s.index k).contains x = true ∧ (s.record k x node).state = s ∧
      (s.record k x node).events = s.lateWrite k.written := by
  rw [record_answer, Bool.not_eq_false'] at h
  rw [record_of_contains h]
  exact ⟨h, rfl, rfl⟩

theorem update_declined (s : Store) (a : Arena) {update : Update}
    (h : (s.update a update).answer = .flag false) :
    (s.update a update).state = (s, a) ∧ ∃ what, (s.update a update).events = s.lateWrite what := by
  cases update with
  | addFormal argument =>
      rw [Store.update, addFormal_eq] at h ⊢
      obtain ⟨hcontains, hstate, hevents⟩ := s.record_declined (Answer.flag.inj h)
      exact ⟨Prod.ext hstate (if_pos hcontains), _, hevents⟩
  | recordFormal | recordValue =>
      obtain ⟨-, hstate, hevents⟩ := s.record_declined (Answer.flag.inj h)
      exact ⟨congrArg (·, a) hstate, _, hevents⟩
  | setBuilt | addFormals | listNode | addCall => cases h

end Store

namespace Session

variable {s : Session}

/-! ### Framing -/

/-- Linking an edge fails just if one of its ends is missing, and the source is looked for first. -/
theorem connect_answer {i : Nat} {a : Arena} (ha : s.arenas[i]? = some a) (edge : Edge) :
    (s.step (.updateArena i (.connect edge))).answer =
      if a.contains edge.source = false then .error (.missing (.node edge.source))
      else if a.contains edge.target = false then .error (.missing (.node edge.target))
      else .ok .done := by
  simp only [step, ha, Arena.update, Arena.connect]
  cases a.contains edge.source <;> cases a.contains edge.target <;> rfl

/-- What a look-up reports as missing, the demand gives up on. -/
theorem answerOf_aborted_iff {α : Type} {answer : α → Answer} {result : Except Missing α} {m : Missing} :
    answerOf answer .aborted result = .error (.aborted m) ↔
      answerOf answer .missing result = .error (.missing m) := by
  cases result with
  | ok x => simp [answerOf, Except.map, Except.mapError]
  | error m' => simp [answerOf, Except.map, Except.mapError]

/-- A recording that is turned down leaves the session as it was, and is reported only after the milestone. -/
theorem Does.declined {j i : Nat} {update : Store.Update} {reply : Reply}
    (h : s.Does (.updateStore j i update) reply) (hfalse : reply.answer = .ok (.flag false)) :
    reply.session = s ∧ ∃ store what, s.stores[j]? = some store ∧ reply.events = store.lateWrite what := by
  cases h with
  | fails => cases hfalse
  | looks answer hquery => cases hquery
  | makes a hmakes => cases hmakes
  | @updates j i store a update hs ha =>
      obtain ⟨hstate, what, hevents⟩ := store.update_declined a (Except.ok.inj hfalse)
      refine ⟨?_, store, what, hs, hevents⟩
      simp only [hstate, set_eq_self hs, set_eq_self ha]

theorem Does.quiet {step : Step} {reply : Reply} (h : s.Does step reply) (hquery : step.isQuery = true) :
    reply.session = s ∧ reply.events = [] := by
  cases h with
  | fails => exact ⟨rfl, rfl⟩
  | looks => exact ⟨rfl, rfl⟩
  | @makes step a hmakes =>
      cases step with
      | newArena | copyArena _ | loadArena _ => cases hquery
      | _ => cases hmakes
  | works | creates | updates => cases hquery

/-- A step that fails leaves no trace.  Linking fails just for a missing end, the source before the target,
and a demand gives up just on what the look-up reports.  A recording that is turned down has no effect but a
warning after the milestone.  Any step changes at most what it addresses, or appends to it, and questions
change and report nothing. -/
theorem framed_step (s : Session) :
    (∀ step f, (s.step step).answer = .error f → (s.step step).session = s ∧ (s.step step).events = []) ∧
    (∀ i a edge, s.arenas[i]? = some a →
      (s.step (.updateArena i (.connect edge))).answer =
        if a.contains edge.source = false then .error (.missing (.node edge.source))
        else if a.contains edge.target = false then .error (.missing (.node edge.target))
        else .ok .done) ∧
    (∀ j i argument m, (s.step (.askStore j i (.demandFormal argument))).answer = .error (.aborted m) ↔
      (s.step (.askStore j i (.tryFormal argument))).answer = .error (.missing m)) ∧
    (∀ j i value m, (s.step (.askStore j i (.demandValue value))).answer = .error (.aborted m) ↔
      (s.step (.askStore j i (.tryValue value))).answer = .error (.missing m)) ∧
    (∀ j i update, (s.step (.updateStore j i update)).answer = .ok (.flag false) →
      (s.step (.updateStore j i update)).session = s ∧
      ∃ store, s.stores[j]? = some store ∧
        (store.stage = .building → (s.step (.updateStore j i update)).events = []) ∧
        (store.stage = .built → ∃ event, (s.step (.updateStore j i update)).events = [event] ∧
          event.level = .warn)) ∧
    (∀ step, s.Changes step (s.step step).session) ∧
    ∀ step, step.isQuery = true → (s.step step).session = s ∧ (s.step step).events = [] := by
  refine ⟨fun step f => atomic_step, fun i a edge ha => connect_answer ha edge, ?_, ?_, ?_, ?_, ?_⟩
  · intro j i argument m
    simp only [step]
    split
    · exact answerOf_aborted_iff
    · simp [say]
  · intro j i value m
    simp only [step]
    split
    · exact answerOf_aborted_iff
    · simp [say]
  · intro j i update hfalse
    obtain ⟨hsession, store, what, hs, hevents⟩ := (step_does s _).declined hfalse
    refine ⟨hsession, store, hs, fun hstage => ?_, fun hstage => ?_⟩
    · simp [hevents, Store.lateWrite, Store.isBuilt, hstage]
    · refine ⟨.lateWrite store.name what, ?_, rfl⟩
      simp [hevents, Store.lateWrite, Store.isBuilt, hstage]
  · exact fun step => (step_does s step).changes
  · exact fun step => (step_does s step).quiet

/-- A session with a node, and with the store of a built function that knows a value. -/
def settled : Session where
  declarations := [{ id := ⟨2⟩, name := "f" }]
  arenas := [Arena.empty.addNode (.value ⟨7⟩)]
  stores := [{
    declaration := { id := ⟨2⟩, name := "f" }
    stage := .built
    values := ⟨[(⟨7⟩, ⟨0⟩)]⟩
    listed := [⟨0⟩] }]

/-- An edge to a missing node, a demand for an argument without a node and a value recorded again. -/
theorem framed_step_settled :
    settled.step (.updateArena 0 (.connect ⟨⟨0⟩, ⟨4⟩, .data⟩)) =
      settled.say (.error (.missing (.node ⟨4⟩))) ∧
    (settled.step (.askStore 0 0 (.demandFormal ⟨3⟩))).answer = .error (.aborted (.formal ⟨2⟩ ⟨3⟩)) ∧
    (settled.step (.updateStore 0 0 (.recordValue ⟨7⟩ ⟨1⟩))).session = settled ∧
    ∃ event, (settled.step (.updateStore 0 0 (.recordValue ⟨7⟩ ⟨1⟩))).events = [event] ∧
      event.level = .warn := by
  obtain ⟨hatomic, hconnect, hformal, -, hdeclined, -, -⟩ := framed_step settled
  have hanswer : (settled.step (.updateArena 0 (.connect ⟨⟨0⟩, ⟨4⟩, .data⟩))).answer =
      .error (.missing (.node ⟨4⟩)) := hconnect 0 _ ⟨⟨0⟩, ⟨4⟩, .data⟩ rfl
  obtain ⟨hsession, hevents⟩ := hatomic _ _ hanswer
  obtain ⟨hkept, store, hstore, -, hbuilt⟩ := hdeclined 0 0 (.recordValue ⟨7⟩ ⟨1⟩) rfl
  cases hstore
  refine ⟨?_, (hformal 0 0 ⟨3⟩ _).mpr rfl, hkept, hbuilt rfl⟩
  exact congr (congr (congrArg Reply.mk hsession) hanswer) hevents

end Session
end Dependence
