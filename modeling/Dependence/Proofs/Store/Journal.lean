import Dependence.Proofs.Store.Operation
import Dependence.Proofs.Store.Replay

/-! # The events of a store are a journal of it

`Attempt.journal` is the log that a history of attempts deserves: what each of them reports follows from
the attempts before it.  Every operation reports the entries of its own attempts (`update_events`), so the
log of a store is the journal of its history, after the one event of its creation
(`attend_replay`).

`Store.Journaled` says that a log is this journal, and gathers what can be read off it: the listed nodes,
the entries of both indices and the calls, each in their order, whether and when the milestone was reached,
and one warning for everything that was attempted too late. -/

namespace Dependence

namespace Event

/-- The node that an event says was listed. -/
def node? : Event → Option Handle
  | formalAdded _ _ node | valueAdded _ _ node | nodeAdded _ node => some node
  | _ => none

/-- The node of an event is what stands in its field of this name. -/
theorem lookup_node_fields (e : Event) : e.fields.lookup "node" = e.node?.map Field.ofId := by
  cases e <;> rfl

/-- The message of an event tells how loud it is. -/
theorem level_of_message_eq {e f : Event} (h : e.message = f.message) : e.level = f.level := by
  cases e <;> cases f <;> first | rfl | simp [message] at h

/-- The events of one message. -/
def saying (message : String) (events : List Event) : List Event :=
  events.filter fun e => e.message = message

/-- The events of one level. -/
def atLevel (level : Level) (events : List Event) : List Event := events.filter fun e => e.level = level

theorem saying_append (message : String) (events more : List Event) :
    saying message (events ++ more) = saying message events ++ saying message more :=
  List.filter_append ..

theorem atLevel_append (level : Level) (events more : List Event) :
    atLevel level (events ++ more) = atLevel level events ++ atLevel level more :=
  List.filter_append ..

end Event

/-- The message of the report that an identity got its node. -/
def Indexed.message {key : Entity} : Indexed key → String
  | argument => "added formal argument node"
  | value => "added value node"

theorem Indexed.message_added {key : Entity} (k : Indexed key) (f : String) (x : Id key) (node : Handle) :
    (k.added f x node).message = k.message := by
  cases k <;> rfl

theorem Indexed.level_added {key : Entity} (k : Indexed key) (f : String) (x : Id key) (node : Handle) :
    (k.added f x node).level = .trace := by
  cases k <;> rfl

namespace Attempt

/-! ### What attempts report -/

section reports
variable (d : Declaration)

/-- The warning that an attempt deserves once the milestone is reached. -/
def warning : Attempt → Option Event
  | formal _ _ => some (.lateWrite d.name .formal)
  | value _ _ => some (.lateWrite d.name .value)
  | unindexed _ => some (.lateWrite d.name .unindexed)
  | call _ => some (.lateWrite d.name .call)
  | milestone false => some (.resetIgnored d.name)
  | milestone true => none

/-- The trace of an attempt that is carried out after the attempts before it. -/
def trace (earlier : List Attempt) : Attempt → List Event
  | formal argument node =>
      if hasKey (formalPairs earlier) argument then [] else [.formalAdded d.name argument node]
  | value v node => if hasKey (valuePairs earlier) v then [] else [.valueAdded d.name v node]
  | unindexed node => [.nodeAdded d.name node]
  | call c => [.callAdded d.name c.instruction]
  | milestone _ => []

theorem trace_recording {key : Entity} (earlier : List Attempt) (k : Indexed key) (x : Id key) (node : Handle) :
    (recording k x node).trace d earlier =
      if hasKey (pairs k earlier) x then [] else [k.added d.name x node] := by
  cases k <;> rfl

theorem warning_recording {key : Entity} (k : Indexed key) (x : Id key) (node : Handle) :
    (recording k x node).warning d = some (.lateWrite d.name k.written) := by
  cases k <;> rfl

/-- What else is reported of an attempt: the milestone when it is reached, and a warning ever after. -/
def notice (earlier : List Attempt) (attempt : Attempt) : List Event :=
  if milestone true ∈ earlier then (attempt.warning d).toList
  else if attempt = milestone true then
    [.built d.name (listing earlier).length (earlier.filterMap call?).length]
  else []

/-- What an attempt reports after the attempts before it. -/
def report (earlier : List Attempt) (attempt : Attempt) : List Event :=
  attempt.notice d earlier ++ attempt.trace d earlier

/-- What further attempts report. -/
def journalAfter (earlier : List Attempt) : List Attempt → List Event
  | [] => []
  | attempt :: rest => attempt.report d earlier ++ journalAfter (earlier ++ [attempt]) rest

/-- What a history reports. -/
def journal (history : List Attempt) : List Event := journalAfter d [] history

theorem journalAfter_append (earlier history more : List Attempt) :
    journalAfter d earlier (history ++ more) =
      journalAfter d earlier history ++ journalAfter d (earlier ++ history) more := by
  induction history generalizing earlier with
  | nil => simp [journalAfter]
  | cons attempt rest ih => simp [journalAfter, ih]

theorem journal_append_singleton (history : List Attempt) (attempt : Attempt) :
    journal d (history ++ [attempt]) = journal d history ++ attempt.report d history := by
  simp [journal, journalAfter_append, journalAfter]

end reports

/-- The attempts of one operation: a question attempts nothing. -/
def ofOperation (d : Declaration) (history : List Attempt) (arena : Arena) :
    Store.Operation → List Attempt
  | .ask _ => []
  | .update u => ofUpdate d history arena u

/-- The attempts of further operations, each with the arena given to it. -/
def ofOperationsAfter (d : Declaration) (history : List Attempt) :
    List (Arena × Store.Operation) → List Attempt
  | [] => []
  | (arena, operation) :: rest =>
      let attempts := ofOperation d history arena operation
      attempts ++ ofOperationsAfter d (history ++ attempts) rest

/-- The attempts of several operations, each with the arena given to it. -/
def ofOperations (d : Declaration) (operations : List (Arena × Store.Operation)) : List Attempt :=
  ofOperationsAfter d [] operations

/-- A single attempt to insert something, and not to set the milestone. -/
def inserts : Attempt → Bool
  | milestone _ => false
  | _ => true

/-! ### Reading a journal -/

section reading
variable {d : Declaration} {earlier : List Attempt} {attempt : Attempt} {e : Event}

theorem level_of_warning (h : attempt.warning d = some e) : e.level = .warn := by
  cases attempt with
  | milestone built =>
      cases built <;> simp only [warning, Option.some.injEq, reduceCtorEq] at h
      rw [← h]
      rfl
  | _ =>
      simp only [warning, Option.some.injEq] at h
      rw [← h]
      rfl

theorem level_of_mem_notice (h : e ∈ attempt.notice d earlier) : e.level ≠ .trace := by
  unfold notice at h
  split at h
  · rw [level_of_warning (Option.mem_toList.mp h)]
    exact Level.noConfusion
  · split at h
    · rw [List.mem_singleton.mp h]
      exact Level.noConfusion
    · cases h

theorem level_of_mem_trace (h : e ∈ attempt.trace d earlier) : e.level = .trace := by
  cases attempt with
  | formal | value =>
      simp only [trace, List.mem_ite_nil_left, List.mem_singleton] at h
      rw [h.2]
      rfl
  | unindexed | call =>
      rw [List.mem_singleton.mp h]
      rfl
  | milestone built => cases h

/-- What is asked of traces only is answered by the trace of the last attempt. -/
theorem filter_journal_append {p : Event → Bool} (hp : ∀ e, p e = true → e.level = .trace) (d : Declaration)
    (history : List Attempt) (attempt : Attempt) :
    (journal d (history ++ [attempt])).filter p =
      (journal d history).filter p ++ (attempt.trace d history).filter p := by
  have hnotice : (attempt.notice d history).filter p = [] := by
    apply List.filter_eq_nil_iff.mpr
    intro e hmem he
    exact level_of_mem_notice hmem (hp e he)
  rw [journal_append_singleton, List.filter_append, report, List.filter_append, hnotice, List.nil_append]

/-- What a journal says under the message of a trace is said by the trace of the last attempt too. -/
theorem saying_journal_append {message : String} (hlevel : ∀ e : Event, e.message = message → e.level = .trace)
    (d : Declaration) (history : List Attempt) (attempt : Attempt) :
    Event.saying message (journal d (history ++ [attempt])) =
      Event.saying message (journal d history) ++ Event.saying message (attempt.trace d history) :=
  filter_journal_append (fun e he => hlevel e (of_decide_eq_true he)) d history attempt

/-- The traces list the nodes that the history lists. -/
theorem nodes_journal (d : Declaration) (history : List Attempt) :
    (Event.atLevel .trace (journal d history)).filterMap Event.node? = listing history := by
  unfold Event.atLevel
  induction history using List.reverseRecOn with
  | nil => rfl
  | append_singleton history attempt ih =>
      rw [filter_journal_append fun e he => of_decide_eq_true he, List.filterMap_append, ih,
        listing_append_singleton]
      congr 1
      cases attempt with
      | formal | value =>
          simp only [trace, listed]
          split <;> rfl
      | _ => rfl

/-- An attempt for no identity of a kind is not traced as one for such an identity. -/
theorem saying_trace_of_pair?_eq_none {key : Entity} {k : Indexed key} (h : pair? k attempt = none) :
    Event.saying k.message (attempt.trace d earlier) = [] := by
  apply List.filter_eq_nil_iff.mpr
  intro e hmem he
  have hmessage : e.message = k.message := of_decide_eq_true he
  cases attempt with
  | formal | value =>
      simp only [trace, List.mem_ite_nil_left, List.mem_singleton] at hmem
      rw [hmem.2] at hmessage
      cases k <;> simp [pair?, Event.message, Indexed.message] at h hmessage
  | unindexed | call =>
      rw [List.mem_singleton.mp hmem] at hmessage
      cases k <;> simp [Event.message, Indexed.message] at hmessage
  | milestone => cases hmem

/-- The traces of arguments are the earliest attempts for each argument, and those of values likewise. -/
theorem pairs_journal {key : Entity} (k : Indexed key) (d : Declaration) (history : List Attempt) :
    Event.saying k.message (journal d history) =
      (firsts (pairs k history)).map fun (x, node) => k.added d.name x node := by
  have hlevel : ∀ e : Event, e.message = k.message → e.level = .trace := by
    intro e he
    rw [← k.message_added "" ⟨0⟩ ⟨0⟩] at he
    exact (Event.level_of_message_eq he).trans (k.level_added ..)
  induction history using List.reverseRecOn with
  | nil => rfl
  | append_singleton history attempt ih =>
      rw [saying_journal_append hlevel, ih, pairs_append_singleton]
      cases h : pair? k attempt with
      | none => rw [saying_trace_of_pair?_eq_none h, Option.toList_none, List.append_nil, List.append_nil]
      | some pair =>
          obtain ⟨x, node⟩ := pair
          rw [pair?_eq_some.mp h, trace_recording, Option.toList_some, firsts_append_singleton]
          split <;> simp [Event.saying, k.message_added]

/-- The traces of calls are the calls attempted. -/
theorem calls_journal (d : Declaration) (history : List Attempt) :
    Event.saying "added call site" (journal d history) =
      (history.filterMap call?).map fun c => .callAdded d.name c.instruction := by
  have hlevel : ∀ e : Event, e.message = "added call site" → e.level = .trace :=
    fun e he => Event.level_of_message_eq (f := .callAdded "" ⟨0⟩) he
  induction history using List.reverseRecOn with
  | nil => rfl
  | append_singleton history attempt ih =>
      rw [saying_journal_append hlevel, ih, List.filterMap_append, List.map_append]
      congr 1
      cases attempt with
      | formal | value =>
          simp only [trace]
          split <;> simp [call?, Event.saying, Event.message]
      | _ => simp [trace, call?, Event.saying, Event.message]

/-! ### The milestone in a journal -/

/-- Of milestones only the first one is reported. -/
theorem debug_of_mem_report (h : e ∈ attempt.report d earlier) (hlevel : e.level = .debug) :
    milestone true ∉ earlier ∧ attempt = milestone true ∧
      e = .built d.name (listing earlier).length (earlier.filterMap call?).length := by
  unfold report at h
  rcases List.mem_append.mp h with h | h
  · unfold notice at h
    split at h
    · rw [level_of_warning (Option.mem_toList.mp h)] at hlevel
      cases hlevel
    · split at h
      · exact ⟨‹_›, ‹_›, List.mem_singleton.mp h⟩
      · cases h
  · rw [level_of_mem_trace h] at hlevel
    cases hlevel

/-- Before the milestone is reached there are traces only. -/
theorem level_of_mem_journalAfter :
    ∀ {history earlier : List Attempt}, milestone true ∉ earlier → milestone true ∉ history →
      ∀ e ∈ journalAfter d earlier history, e.level = .trace
  | [], _, _, _, e, he => by cases he
  | attempt :: rest, earlier, hearlier, hnot, e, he => by
      obtain ⟨hne, hrest⟩ := not_or.mp fun hmem => hnot (List.mem_cons.mpr hmem)
      rw [journalAfter] at he
      rcases List.mem_append.mp he with he | he
      · have hnotice : attempt.notice d earlier = [] := by
          unfold notice
          rw [if_neg hearlier, if_neg (Ne.symm hne)]
        rw [report, hnotice, List.nil_append] at he
        exact level_of_mem_trace he
      · have hearlier' : milestone true ∉ earlier ++ [attempt] := by
          simp [hearlier, hne]
        exact level_of_mem_journalAfter hearlier' hrest e he

/-- Once the milestone is reached every attempt is warned of. -/
theorem warnings_journalAfter :
    ∀ {history earlier : List Attempt}, milestone true ∈ earlier →
      Event.atLevel .warn (journalAfter d earlier history) = history.filterMap (warning d)
  | [], _, _ => rfl
  | attempt :: rest, earlier, hearlier => by
      have htrace : Event.atLevel .warn (attempt.trace d earlier) = [] := by
        apply List.filter_eq_nil_iff.mpr
        intro e he
        rw [level_of_mem_trace he]
        decide
      have hwarning : Event.atLevel .warn (attempt.warning d).toList = (attempt.warning d).toList := by
        apply List.filter_eq_self.mpr
        intro e he
        exact decide_eq_true (level_of_warning (Option.mem_toList.mp he))
      have hrest : Event.atLevel .warn (journalAfter d (earlier ++ [attempt]) rest) =
          rest.filterMap (warning d) :=
        warnings_journalAfter (List.mem_append_left [attempt] hearlier)
      rw [journalAfter, report, notice, if_pos hearlier, Event.atLevel_append, Event.atLevel_append, htrace,
        hwarning, hrest, List.append_nil]
      cases h : attempt.warning d <;> simp [h]

/-- Once the milestone is reached it is not reported again. -/
theorem level_ne_debug :
    ∀ {history earlier : List Attempt}, milestone true ∈ earlier →
      ∀ e ∈ journalAfter d earlier history, e.level ≠ .debug
  | [], _, _, e, he => by cases he
  | attempt :: rest, earlier, hearlier, e, he => by
      rw [journalAfter] at he
      rcases List.mem_append.mp he with he | he
      · intro hlevel
        exact (debug_of_mem_report he hlevel).1 hearlier
      · exact level_ne_debug (List.mem_append_left [attempt] hearlier) e he

/-- Every attempt after the milestone but a further one to reach it makes one warning. -/
theorem length_warnings (d : Declaration) (history : List Attempt) :
    (history.filterMap (warning d)).length =
      history.countP inserts + history.count (milestone false) := by
  induction history with
  | nil => rfl
  | cons attempt rest ih =>
      have hone : (attempt.warning d).toList.length =
          (if attempt.inserts then 1 else 0) + if attempt = milestone false then 1 else 0 := by
        cases attempt with
        | milestone built => cases built <;> rfl
        | _ => rfl
      have hmore : ((attempt :: rest).filterMap (warning d)).length =
          (attempt.warning d).toList.length + (rest.filterMap (warning d)).length := by
        cases h : attempt.warning d <;> simp [h, Nat.add_comm]
      rw [hmore, hone, ih, List.countP_cons, List.count_cons]
      simp only [beq_iff_eq]
      omega

end reading

end Attempt

namespace Store

open Attempt

/-! ### What operations report -/

section operations
variable (d : Declaration) (v : Option Handle) (history : List Attempt)

theorem lateWrite_replay (what : Written) :
    (replay d v history).lateWrite what =
      if milestone true ∈ history then [.lateWrite d.name what] else [] := by
  by_cases h : milestone true ∈ history <;> simp [lateWrite, isBuilt, replay, name, h]

theorem setBuilt_events (built : Bool) :
    ((replay d v history).setBuilt built).events = (milestone built).report d history := by
  by_cases h : milestone true ∈ history <;> cases built <;>
    simp [setBuilt, replay, report, notice, trace, warning, name, size, h]

/-- A recording reports the entry of its attempt. -/
theorem record_events {key : Entity} (k : Indexed key) (x : Id key) (node : Handle) :
    ((replay d v history).record k x node).events = (recording k x node).report d history := by
  have hcontains := contains_replay d v history k x
  have hnotice : (recording k x node).notice d history = (replay d v history).lateWrite k.written := by
    rw [lateWrite_replay, notice, warning_recording]
    cases k <;> simp [recording]
  rw [report, hnotice, trace_recording]
  cases h : hasKey (pairs k history) x with
  | true => rw [record_of_contains (hcontains.trans h), if_pos rfl, List.append_nil]
  | false => rw [record_of_not_contains (hcontains.trans h), if_neg Bool.false_ne_true]; rfl

theorem addFormal_events (arena : Arena) (argument : Id .argument) :
    ((replay d v history).addFormal arena argument).events =
      Attempt.report d history (.formal argument arena.nextHandle) := by
  rw [addFormal_eq]
  exact record_events ..

theorem listNode_events (node : Handle) :
    ((replay d v history).listNode node).events = (unindexed node).report d history := by
  unfold listNode
  rw [lateWrite_replay]
  simp [report, notice, trace, warning, replay, name]

theorem addCall_events (c : Call) :
    ((replay d v history).addCall c).events = (call c).report d history := by
  unfold addCall
  rw [lateWrite_replay]
  simp [report, notice, trace, warning, replay, name]

theorem addEach_events (arena : Arena) (arguments : List (Id .argument)) :
    ((replay d v history).addEach arena arguments).events =
      journalAfter d history (each d.id history arena arguments) := by
  induction arguments generalizing history arena with
  | nil => rfl
  | cons argument rest ih =>
      simp only [addEach, each, journalAfter, addFormal_replay, addFormal_events, ih]

/-- Every update reports the entries of its attempts. -/
theorem update_events (arena : Arena) (u : Update) :
    ((replay d v history).update arena u).events =
      journalAfter d history (ofUpdate d history arena u) := by
  have hone : ∀ attempt : Attempt, journalAfter d history [attempt] = attempt.report d history :=
    fun attempt => List.append_nil _
  cases u with
  | setBuilt built => exact (setBuilt_events d v history built).trans (hone _).symm
  | addFormal argument =>
      exact (addFormal_events d v history arena argument).trans (hone _).symm
  | recordFormal argument node => exact (record_events d v history .argument argument node).trans (hone _).symm
  | addFormals => exact addEach_events d v history arena d.params
  | recordValue w node => exact (record_events d v history .value w node).trans (hone _).symm
  | listNode node => exact (listNode_events d v history node).trans (hone _).symm
  | addCall c => exact (addCall_events d v history c).trans (hone _).symm

/-- Operations on a replayed store replay and report their attempts. -/
theorem attend_replay (operations : List (Arena × Operation)) :
    let run := (replay d v history).attend operations
    run.state = replay d v (history ++ ofOperationsAfter d history operations) ∧
      run.events = journalAfter d history (ofOperationsAfter d history operations) := by
  induction operations generalizing history with
  | nil => simp [attend, ofOperationsAfter, journalAfter]
  | cons operation rest ih =>
      obtain ⟨arena, operation⟩ := operation
      cases operation with
      | ask query =>
          have hnone : ofOperationsAfter d history ((arena, .ask query) :: rest) =
              ofOperationsAfter d history rest := by
            simp [ofOperationsAfter, ofOperation]
          rw [hnone]
          exact ih history
      | update u =>
          obtain ⟨hstate, hevents⟩ := ih (history ++ ofUpdate d history arena u)
          have hnext : ((replay d v history).carryOut arena (.update u)).state.1 =
              replay d v (history ++ ofUpdate d history arena u) :=
            update_replay d v history arena u
          have hfirst : ((replay d v history).carryOut arena (.update u)).events =
              journalAfter d history (ofUpdate d history arena u) :=
            update_events d v history arena u
          simp only [attend, ofOperationsAfter, ofOperation, hnext, hfirst, journalAfter_append]
          exact ⟨by rw [hstate, List.append_assoc], by rw [hevents]⟩

end operations

/-! ### What a log tells -/

/-- Whether an update is a single insertion under a key. -/
def Update.indexes : Update → Bool
  | .addFormal _ | .recordFormal .. | .recordValue .. => true
  | _ => false

theorem atLevel_trace_lateWrite (s : Store) (what : Written) :
    Event.atLevel .trace (s.lateWrite what) = [] := by
  unfold lateWrite
  split <;> rfl

/-- A recording is traced once if its key is new, and not at all otherwise. -/
theorem atLevel_trace_record (s : Store) {key : Entity} (k : Indexed key) (x : Id key) (node : Handle) :
    (Event.atLevel .trace (s.record k x node).events).length = (s.record k x node).answer.toNat := by
  cases h : (s.index k).contains x with
  | true => rw [record_of_contains h, atLevel_trace_lateWrite]; rfl
  | false =>
      rw [record_of_not_contains h, Event.atLevel_append, atLevel_trace_lateWrite]
      simp [Event.atLevel, k.level_added]

theorem atLevel_trace_addFormal (s : Store) (arena : Arena) (argument : Id .argument) :
    (Event.atLevel .trace (s.addFormal arena argument).events).length =
      (s.addFormal arena argument).answer.toNat := by
  rw [addFormal_eq]
  exact atLevel_trace_record ..

/-- A single insertion under a key is traced just when it answers that the key is new. -/
theorem update_traced (s : Store) (arena : Arena) {u : Update} (hu : u.indexes = true) :
    (s.update arena u).answer = .flag true ↔ ∃ e ∈ (s.update arena u).events, e.level = .trace := by
  have htraced : ∀ {answer : Bool} {events : List Event},
      (Event.atLevel .trace events).length = answer.toNat →
        (Answer.flag answer = .flag true ↔ ∃ e ∈ events, e.level = .trace) := by
    intro answer events h
    have hexists : (∃ e ∈ events, e.level = .trace) ↔ 0 < (Event.atLevel .trace events).length := by
      simp [Event.atLevel, List.length_pos_iff_exists_mem]
    rw [hexists, h]
    cases answer <;> simp
  cases u with
  | addFormal argument => exact htraced (atLevel_trace_addFormal s arena argument)
  | recordFormal argument node => exact htraced (atLevel_trace_record s .argument argument node)
  | recordValue w node => exact htraced (atLevel_trace_record s .value w node)
  | _ => cases hu

/-- A bulk insertion is traced as often as it answers. -/
theorem addEach_traced (s : Store) (arena : Arena) (arguments : List (Id .argument)) :
    (s.addEach arena arguments).answer =
      (Event.atLevel .trace (s.addEach arena arguments).events).length := by
  induction arguments generalizing s arena with
  | nil => rfl
  | cons argument rest ih =>
      simp only [addEach, Event.atLevel_append, List.length_append, atLevel_trace_addFormal, ih]

/-- A log in which the milestone stands once, where a history first reaches it. -/
structure ReachesMilestone (d : Declaration) (history : List Attempt) (events : List Event)
    (earlier later : List Attempt) (before after : List Event) : Prop where
  history_eq : history = earlier ++ .milestone true :: later
  first : .milestone true ∉ earlier
  /-- The event counts the nodes and the calls that were traced before it. -/
  events_eq : events = before ++
    .built d.name (before.filterMap Event.node?).length (Event.saying "added call site" before).length ::
      after
  once : Event.saying "function pdg definition built" (before ++ after) = []
  /-- Every warning comes later, one for everything that is attempted later. -/
  unwarned : Event.atLevel .warn before = []
  warnings : Event.atLevel .warn after = later.filterMap (warning d)
  length_warnings : (Event.atLevel .warn events).length =
    later.countP inserts + later.count (.milestone false)

/-- The log of a store that has the given history. -/
def logOf (d : Declaration) (history : List Attempt) : List Event :=
  .created d.name d.id d.isVariadic :: journal d history

/-- What the log of a store tells about the store, and about what was attempted. -/
structure Journaled (s : Store) (d : Declaration) (history : List Attempt) (events : List Event) : Prop where
  /-- The creation is reported and then every attempt in its order, as the attempts before it demand. -/
  reported : events = logOf d history
  created : ∃ later, events = .created d.name d.id d.isVariadic :: later ∧
    Event.saying "created function pdg" later = []
  listed : (Event.atLevel .trace events).filterMap Event.node? = s.listed
  nodeFields : (Event.atLevel .trace events).filterMap (fun e => e.fields.lookup "node") =
    s.listed.map Event.Field.ofId
  formals : Event.saying "added formal argument node" events =
    s.formals.entries.map fun (argument, node) => .formalAdded d.name argument node
  values : Event.saying "added value node" events =
    s.values.entries.map fun (value, node) => .valueAdded d.name value node
  calls : Event.saying "added call site" events =
    s.calls.map fun c => .callAdded d.name c.instruction
  /-- The next insertion under a key is traced just when it answers that the key is new. -/
  traced : ∀ (arena : Arena) (u : Update), u.indexes = true →
    ((s.update arena u).answer = .flag true ↔ ∃ e ∈ (s.update arena u).events, e.level = .trace)
  tracedEach : ∀ arena : Arena, (s.update arena .addFormals).answer =
    .count (Event.atLevel .trace (s.update arena .addFormals).events).length
  building : s.stage = .building →
    Event.saying "function pdg definition built" events = [] ∧ Event.atLevel .warn events = []
  built : s.stage = .built → ∃ earlier later before after,
    ReachesMilestone d history events earlier later before after

section log
variable (d : Declaration) (history : List Attempt)

theorem saying_logOf {message : String} (h : message ≠ "created function pdg") :
    Event.saying message (logOf d history) = Event.saying message (journal d history) := by
  unfold logOf Event.saying
  rw [List.filter_cons_of_neg]
  intro he
  exact h (of_decide_eq_true he).symm

/-- Only the milestone is reported on the level of the creation. -/
theorem saying_created_journal : Event.saying "created function pdg" (journal d history) = [] := by
  unfold Event.saying
  induction history using List.reverseRecOn with
  | nil => rfl
  | append_singleton history attempt ih =>
      rw [journal_append_singleton, List.filter_append, ih, List.nil_append]
      apply List.filter_eq_nil_iff.mpr
      intro e hmem he
      have hlevel : e.level = .debug := by
        cases e <;> simp [Event.message] at he
        rfl
      rw [(debug_of_mem_report hmem hlevel).2.2] at he
      simp [Event.message] at he

theorem building_logOf (h : milestone true ∉ history) :
    Event.saying "function pdg definition built" (logOf d history) = [] ∧
      Event.atLevel .warn (logOf d history) = [] := by
  have hlevel : ∀ e ∈ logOf d history, e = .created d.name d.id d.isVariadic ∨ e.level = .trace := by
    intro e he
    rcases List.mem_cons.mp he with he | he
    · exact .inl he
    · exact .inr (level_of_mem_journalAfter List.not_mem_nil h e he)
  constructor
  · apply List.filter_eq_nil_iff.mpr
    intro e hmem he
    rcases hlevel e hmem with rfl | htrace
    · simp [Event.message] at he
    · cases e <;> simp [Event.message] at he
      cases htrace
  · apply List.filter_eq_nil_iff.mpr
    intro e hmem he
    rcases hlevel e hmem with rfl | htrace
    · cases of_decide_eq_true he
    · rw [htrace] at he
      cases of_decide_eq_true he

theorem filterMap_node?_logOf : (logOf d history).filterMap Event.node? = listing history := by
  have htrace : (Event.atLevel .trace (journal d history)).filterMap Event.node? =
      (journal d history).filterMap Event.node? := by
    unfold Event.atLevel
    rw [List.filterMap_filter]
    congr 1
    funext e
    cases e <;> rfl
  rw [← nodes_journal d history, htrace]
  rfl

theorem saying_call_logOf : Event.saying "added call site" (logOf d history) =
    (history.filterMap call?).map fun c => .callAdded d.name c.instruction := by
  rw [saying_logOf d history (by decide), calls_journal]

theorem built_logOf (h : milestone true ∈ history) :
    ∃ earlier later before after,
      ReachesMilestone d history (logOf d history) earlier later before after := by
  obtain ⟨earlier, later, rfl, hfirst⟩ := List.eq_append_cons_of_mem h
  have hreached : milestone true ∈ earlier ++ [milestone true] := by simp
  have hreport : Attempt.report d earlier (.milestone true) =
      [.built d.name (listing earlier).length (earlier.filterMap call?).length] := by
    simp [report, notice, trace, hfirst]
  obtain ⟨hunbuilt, hunwarned⟩ := building_logOf d earlier hfirst
  have hwarnings : Event.atLevel .warn (journalAfter d (earlier ++ [milestone true]) later) =
      later.filterMap (warning d) :=
    warnings_journalAfter hreached
  have hevents : logOf d (earlier ++ .milestone true :: later) = logOf d earlier ++
      .built d.name (listing earlier).length (earlier.filterMap call?).length ::
        journalAfter d (earlier ++ [milestone true]) later := by
    unfold logOf journal
    rw [journalAfter_append, List.nil_append, journalAfter, hreport]
    rfl
  refine ⟨earlier, later, logOf d earlier, journalAfter d (earlier ++ [milestone true]) later, rfl, hfirst,
    ?_, ?_, hunwarned, hwarnings, ?_⟩
  · rw [filterMap_node?_logOf, saying_call_logOf, List.length_map, hevents]
  · rw [Event.saying_append, hunbuilt, List.nil_append]
    apply List.filter_eq_nil_iff.mpr
    intro e hmem he
    apply level_ne_debug hreached e hmem
    cases e <;> simp [Event.message] at he
    rfl
  · have htail : Event.atLevel .warn (.built d.name (listing earlier).length
        (earlier.filterMap call?).length :: journalAfter d (earlier ++ [milestone true]) later) =
          later.filterMap (warning d) := by
      rw [← hwarnings]
      rfl
    rw [hevents, Event.atLevel_append, hunwarned, htail, List.nil_append, Attempt.length_warnings]

/-- The log of a replayed store tells what the store holds. -/
theorem journaled_replay (v : Option Handle) : (replay d v history).Journaled d history (logOf d history) where
  reported := rfl
  created := ⟨journal d history, rfl, saying_created_journal d history⟩
  listed := nodes_journal d history
  nodeFields := by
    rw [show (replay d v history).listed = listing history from rfl, ← nodes_journal d history,
      List.map_filterMap]
    exact congrArg (List.filterMap · _) (funext Event.lookup_node_fields)
  formals := (saying_logOf d history (by decide)).trans (pairs_journal .argument d history)
  values := (saying_logOf d history (by decide)).trans (pairs_journal .value d history)
  calls := saying_call_logOf d history
  traced arena u hu := update_traced _ arena hu
  tracedEach arena := congrArg Answer.count (addEach_traced ..)
  building h := by
    apply building_logOf
    intro hmem
    simp [replay, hmem] at h
  built h := by
    apply built_logOf
    by_contra hmem
    simp [replay, hmem] at h

end log

/-- Whatever operations are carried out on the store of a declaration, its log reports all their attempts,
and tells what the store holds and what was attempted too late. -/
theorem journaled_attend (start : Arena) (d : Declaration) (operations : List (Arena × Operation)) :
    let made := create start d
    let run := made.state.1.attend operations
    run.state.Journaled d (ofOperations d operations) (made.events ++ run.events) := by
  intro made run
  have hmade : made.events = [.created d.name d.id d.isVariadic] := by
    unfold made create
    split <;> rfl
  have hstart : made.state.1 = replay d (variadicStart start d) [] := create_eq_replay d start
  obtain ⟨hstate, hevents⟩ := attend_replay d (variadicStart start d) [] operations
  have hlog : made.events ++ run.events = logOf d (ofOperations d operations) := by
    unfold run
    rw [hmade, hstart, hevents]
    rfl
  rw [hlog, show run.state = _ from (congrArg (fun s => (attend s operations).state) hstart).trans hstate]
  exact journaled_replay d _ _

/-- An argument, a question, the milestone, the same argument again, and a value. -/
def lateVisits : List (Arena × Operation) :=
  [.update (.recordFormal ⟨1⟩ ⟨7⟩), .ask .listed, .update (.setBuilt true), .update (.recordFormal ⟨1⟩ ⟨8⟩),
    .update (.recordValue ⟨1⟩ ⟨7⟩)].map (Prod.mk .empty)

/-- The last two come too late, one of them in vain; and the argument would not be traced once more. -/
theorem journaled_attend_lateVisits :
    let d : Declaration := ⟨⟨3⟩, "walk", [⟨1⟩], true⟩
    let made := create .empty d
    let run := made.state.1.attend lateVisits
    let log := made.events ++ run.events
    log = [.created "walk" ⟨3⟩ true, .formalAdded "walk" ⟨1⟩ ⟨7⟩, .built "walk" 1 0, .lateWrite "walk" .formal,
        .lateWrite "walk" .value, .valueAdded "walk" ⟨1⟩ ⟨7⟩] ∧
      run.state.listed = [⟨7⟩, ⟨7⟩] ∧ run.state.stage = .built ∧
      (∃ earlier later before after,
        ReachesMilestone d (ofOperations d lateVisits) log earlier later before after) ∧
      ¬ ∃ e ∈ (run.state.update .empty (.recordFormal ⟨1⟩ ⟨9⟩)).events, e.level = .trace := by
  intro d made run log
  have hjournaled : run.state.Journaled d (ofOperations d lateVisits) log := journaled_attend .empty d lateVisits
  have hbuilt : run.state.stage = .built := by decide +kernel
  refine ⟨hjournaled.reported.trans (by decide +kernel), ?_, hbuilt, hjournaled.built hbuilt, ?_⟩
  · rw [← hjournaled.listed, hjournaled.reported]
    decide +kernel
  · rw [← hjournaled.traced .empty (.recordFormal ⟨1⟩ ⟨9⟩) rfl]
    decide +kernel

end Store
end Dependence
