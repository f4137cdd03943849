import Dependence.Proofs.Store.Drawing
import Dependence.Proofs.Store.Replay
import Mathlib.Data.Fin.VecNotation
import Mathlib.Data.List.FinRange
import Mathlib.GroupTheory.Perm.Basic

/-! # Writes in another order

A builder may visit a function in one order or in another, and the writes to the store come in that order.
What a write answers depends on the earlier writes for the same key only (`response`), and what it leaves
behind depends on its answer only (`absorb`).  So if a permutation keeps the order of any two writes for one
key, every write is answered as before (`response_comp`), and what the writes leave behind is permuted
(`perm_filterMap_ofFn`), or stays as it is where their order is kept (`filterMap_ofFn`).

`Store.Reordered` gathers what this means for the two stores, and `reordered_perform` says it of all writes
and all such permutations. -/

namespace Dependence

/-- Whether a permutation keeps the order of any two positions that belong together.  In the new order, the
position `σ i` of the old one comes at the position `i`. -/
def KeepsOrder {n : Nat} (σ : Equiv.Perm (Fin n)) (together : Fin n → Fin n → Prop) : Prop :=
  ∀ i j, i < j → together (σ i) (σ j) → σ i < σ j

theorem KeepsOrder.mono {n : Nat} {σ : Equiv.Perm (Fin n)} {together fewer : Fin n → Fin n → Prop}
    (h : KeepsOrder σ together) (hfewer : ∀ i j, fewer i j → together i j) : KeepsOrder σ fewer :=
  fun i j hij hmem => h i j hij (hfewer _ _ hmem)

instance {n : Nat} (σ : Equiv.Perm (Fin n)) (together : Fin n → Fin n → Prop)
    [∀ i j, Decidable (together i j)] : Decidable (KeepsOrder σ together) :=
  inferInstanceAs (Decidable (∀ i j, i < j → together (σ i) (σ j) → σ i < σ j))

/-! ### Rows in another order -/

section rows
variable {n : Nat} {α β : Type} (row : Fin n → α) (σ : Equiv.Perm (Fin n)) (pick : α → Option β)

theorem perm_filterMap_ofFn :
    ((List.ofFn (row ∘ σ)).filterMap pick).Perm ((List.ofFn row).filterMap pick) :=
  (Equiv.Perm.ofFn_comp_perm σ row).filterMap pick

/-- Positions whose order is kept stand in their old order. -/
theorem filter_map_finRange {p : Fin n → Bool} (h : KeepsOrder σ fun i j => p i = true ∧ p j = true) :
    ((List.finRange n).map σ).filter p = (List.finRange n).filter p := by
  have hnew : (((List.finRange n).map σ).filter p).Pairwise (· < ·) := by
    rw [List.pairwise_filter, List.pairwise_map]
    exact (List.pairwise_lt_finRange n).imp fun hij hi hj => h _ _ hij ⟨hi, hj⟩
  have hold : ((List.finRange n).filter p).Pairwise (· < ·) :=
    List.Pairwise.filter p (List.pairwise_lt_finRange n)
  have hasymm : ∀ i j : Fin n, i < j → j < i → i = j := fun i j hij hji => absurd hij (Fin.lt_asymm hji)
  exact List.Perm.eq_of_pairwise (fun i j _ _ => hasymm i j) hnew hold
    ((Equiv.Perm.map_finRange_perm σ).filter p)

/-- What is picked stays in its order, if the permutation keeps the order of what is picked. -/
theorem filterMap_ofFn
    (h : KeepsOrder σ fun i j => (pick (row i)).isSome = true ∧ (pick (row j)).isSome = true) :
    (List.ofFn (row ∘ σ)).filterMap pick = (List.ofFn row).filterMap pick := by
  have hpicked : ∀ positions : List (Fin n), (positions.map row).filterMap pick =
      (positions.filter fun i => (pick (row i)).isSome).filterMap (pick ∘ row) := by
    intro positions
    rw [List.filterMap_map, List.filterMap_filter]
    congr 1
    funext i
    cases hi : pick (row i) <;> simp [hi]
  rw [List.ofFn_eq_map, List.ofFn_eq_map, ← List.map_map, hpicked, hpicked,
    filter_map_finRange σ h]

end rows

/-- An argument or a value, as the key of a write. -/
def Indexed.inject {key : Entity} : Indexed key → Id key → Id .argument ⊕ Id .value
  | argument => .inl
  | value => .inr

namespace Store

/-! ### Writes and their keys -/

/-- Whether an update writes what its caller supplies: a node, for an identity or for none, or a call. -/
def Update.writes : Update → Bool
  | .recordFormal .. | .recordValue .. | .listNode _ | .addCall _ => true
  | _ => false

/-- The argument or the value that a write records a node for. -/
def Update.key? : Update → Option (Id .argument ⊕ Id .value)
  | .recordFormal x _ => some (.inl x)
  | .recordValue v _ => some (.inr v)
  | _ => none

/-- Whether an update adds a call. -/
def Update.addsCall : Update → Bool
  | .addCall _ => true
  | _ => false

/-- Whether two writes record nodes for the same argument, or for the same value. -/
def Update.SharesKey (u v : Update) : Prop := u.key?.isSome = true ∧ u.key? = v.key?

instance (u v : Update) : Decidable (u.SharesKey v) :=
  inferInstanceAs (Decidable (_ ∧ _))

/-- Whether a question looks for the node of an argument or a value. -/
def Query.looksUp : Query → Bool
  | .hasFormal _ | .tryFormal _ | .demandFormal _ | .hasValue _ | .tryValue _ | .demandValue _ => true
  | _ => false

/-- The write that records a node for an identity. -/
def Update.recording {key : Entity} : Indexed key → Id key → Handle → Update
  | .argument => .recordFormal
  | .value => .recordValue

/-- Whether an argument or a value has a node. -/
def knows (s : Store) : Id .argument ⊕ Id .value → Bool
  | .inl x => s.formals.contains x
  | .inr v => s.values.contains v

/-- What a write answers, if the keys that are known are known. -/
def Update.response (known : Id .argument ⊕ Id .value → Bool) (u : Update) : Answer :=
  match u.key? with
  | some k => .flag (!known k)
  | none => .done

/-- What a write answers that comes after others. -/
def response (s : Store) {n : Nat} (writes : Fin n → Update) (i : Fin n) : Answer :=
  (writes i).response fun k => s.knows k || decide (∃ j < i, (writes j).key? = some k)

/-! ### What writes leave behind -/

/-- A write with its answer. -/
abbrev Outcome := Update × Answer

/-- A write that comes after others, with its answer. -/
def outcome (s : Store) {n : Nat} (writes : Fin n → Update) (i : Fin n) : Outcome :=
  (writes i, s.response writes i)

/-- The entry that a write leaves behind in one of the indices. -/
def Outcome.pair? {key : Entity} : Indexed key → Outcome → Option (Id key × Handle)
  | .argument, (.recordFormal x node, .flag true) => some (x, node)
  | .value, (.recordValue v node, .flag true) => some (v, node)
  | _, _ => none

/-- The node that a write lists. -/
def Outcome.node? : Outcome → Option Handle
  | (.recordFormal _ node, .flag true) | (.recordValue _ node, .flag true) | (.listNode node, _) => some node
  | _ => none

/-- The call that a write adds. -/
def Outcome.call? : Outcome → Option Call
  | (.addCall call, _) => some call
  | _ => none

/-- The store with what writes leave behind. -/
def absorb (s : Store) (outcomes : List Outcome) : Store :=
  { s with
    formals := ⟨s.formals.entries ++ outcomes.filterMap (Outcome.pair? .argument)⟩
    values := ⟨s.values.entries ++ outcomes.filterMap (Outcome.pair? .value)⟩
    listed := s.listed ++ outcomes.filterMap Outcome.node?
    calls := s.calls ++ outcomes.filterMap Outcome.call? }

theorem index_absorb {key : Entity} (s : Store) (outcomes : List Outcome) (k : Indexed key) :
    (s.absorb outcomes).index k = ⟨(s.index k).entries ++ outcomes.filterMap (Outcome.pair? k)⟩ := by
  cases k <;> rfl

theorem absorb_cons (s : Store) (outcome : Outcome) (rest : List Outcome) :
    s.absorb (outcome :: rest) = (s.absorb [outcome]).absorb rest := by
  have hcons : outcome :: rest = [outcome] ++ rest := rfl
  rw [hcons]
  simp only [absorb, List.filterMap_append, List.append_assoc]

theorem absorb_singleton (s : Store) (outcome : Outcome) :
    s.absorb [outcome] =
      { s with
        formals := ⟨s.formals.entries ++ (Outcome.pair? .argument outcome).toList⟩
        values := ⟨s.values.entries ++ (Outcome.pair? .value outcome).toList⟩
        listed := s.listed ++ outcome.node?.toList
        calls := s.calls ++ outcome.call?.toList } := by
  have hone : ∀ {β : Type} (pick : Outcome → Option β), [outcome].filterMap pick = (pick outcome).toList := by
    intro β pick
    cases h : pick outcome <;> simp [h]
  simp only [absorb, hone]

/-- A recording that is turned down leaves nothing behind. -/
theorem absorb_refused {key : Entity} (s : Store) (k : Indexed key) (x : Id key) (node : Handle) :
    s.absorb [(.recording k x node, .flag false)] = s := by
  cases k <;>
    simp [absorb_singleton, Update.recording, Outcome.pair?, Outcome.node?, Outcome.call?]

theorem absorb_recording {key : Entity} (s : Store) (k : Indexed key) (x : Id key) (node : Handle) :
    s.absorb [(.recording k x node, .flag true)] =
      { s.withIndex k ⟨(s.index k).entries ++ [(x, node)]⟩ with listed := s.listed ++ [node] } := by
  cases k <;>
    simp [absorb_singleton, Update.recording, withIndex, index, Outcome.pair?, Outcome.node?, Outcome.call?]

theorem absorb_listNode (s : Store) (node : Handle) :
    s.absorb [(.listNode node, .done)] = { s with listed := s.listed ++ [node] } := by
  simp [absorb_singleton, Outcome.pair?, Outcome.node?, Outcome.call?]

theorem absorb_addCall (s : Store) (call : Call) :
    s.absorb [(.addCall call, .done)] = { s with calls := s.calls ++ [call] } := by
  simp [absorb_singleton, Outcome.pair?, Outcome.node?, Outcome.call?]

theorem response_recording {key : Entity} (s : Store) (k : Indexed key) (x : Id key) (node : Handle) :
    (Update.recording k x node).response s.knows = .flag (!(s.index k).contains x) := by
  cases k <;> rfl

/-- A recording leaves behind what its answer says. -/
theorem record_eq_absorb {key : Entity} (s : Store) (k : Indexed key) (x : Id key) (node : Handle) :
    (s.record k x node).state = s.absorb [(.recording k x node, .flag (!(s.index k).contains x))] := by
  cases h : (s.index k).contains x with
  | true => rw [record_of_contains h, Bool.not_true, absorb_refused]
  | false =>
      rw [record_of_not_contains h, Bool.not_false, absorb_recording,
        ← Index.entries_record_of_not_contains h]

/-- A write is answered by whether its key is known, and leaves behind what its answer says. -/
theorem update_write (s : Store) (a : Arena) {u : Update} (hu : u.writes = true) :
    (s.update a u).answer = u.response s.knows ∧
      (s.update a u).state = (s.absorb [(u, u.response s.knows)], a) := by
  cases u with
  | recordFormal x node =>
      rw [show (Update.recordFormal x node).response s.knows = _ from response_recording s .argument x node]
      exact ⟨congrArg Answer.flag (record_answer ..), congrArg (·, a) (record_eq_absorb s .argument x node)⟩
  | recordValue v node =>
      rw [show (Update.recordValue v node).response s.knows = _ from response_recording s .value v node]
      exact ⟨congrArg Answer.flag (record_answer ..), congrArg (·, a) (record_eq_absorb s .value v node)⟩
  | listNode node => exact ⟨rfl, congrArg (·, a) (absorb_listNode s node).symm⟩
  | addCall call => exact ⟨rfl, congrArg (·, a) (absorb_addCall s call).symm⟩
  | _ => cases hu

theorem knows_record {key : Entity} (s : Store) (k : Indexed key) (x : Id key) (node : Handle)
    (j : Id .argument ⊕ Id .value) :
    (s.record k x node).state.knows j = (s.knows j || decide (some (k.inject x) = some j)) := by
  rw [record_state]
  cases k <;> cases j <;>
    simp [knows, withIndex, index, Index.contains_record, Indexed.inject, eq_comm (a := x)]

theorem knows_update (s : Store) (a : Arena) {u : Update} (hu : u.writes = true)
    (k : Id .argument ⊕ Id .value) :
    (s.update a u).state.1.knows k = (s.knows k || decide (u.key? = some k)) := by
  cases u with
  | recordFormal x node => exact knows_record s .argument x node k
  | recordValue v node => exact knows_record s .value v node k
  | listNode node => cases k <;> simp [knows, update, Change.lift, listNode, Update.key?]
  | addCall call => cases k <;> simp [knows, update, Change.lift, addCall, Update.key?]
  | _ => cases hu

/-- Later writes are answered as if the first one had been carried out before. -/
theorem response_succ (s : Store) (a : Arena) {n : Nat} {writes : Fin (n + 1) → Update}
    (hwrites : (writes 0).writes = true) (i : Fin n) :
    s.response writes i.succ = (s.update a (writes 0)).state.1.response (writes ∘ Fin.succ) i := by
  have hknown : ∀ k, (s.knows k || decide (∃ j < i.succ, (writes j).key? = some k)) =
      ((s.update a (writes 0)).state.1.knows k ||
        decide (∃ j < i, ((writes ∘ Fin.succ) j).key? = some k)) := by
    intro k
    rw [knows_update s a hwrites, Bool.or_assoc, ← Bool.decide_or]
    congr 2
    simp [Fin.exists_fin_succ]
  unfold response
  rw [funext hknown]
  rfl

/-- A run of writes leaves behind what the answers say. -/
theorem perform_writes (s : Store) (a : Arena) {n : Nat} (writes : Fin n → Update)
    (hwrites : ∀ i, (writes i).writes = true) :
    (s.perform a (List.ofFn writes)).answer = List.ofFn (s.response writes) ∧
      (s.perform a (List.ofFn writes)).state = (s.absorb (List.ofFn (s.outcome writes)), a) := by
  induction n generalizing s with
  | zero => simp [perform, absorb]
  | succ n ih =>
      obtain ⟨hanswer, hstate⟩ := update_write s a (hwrites 0)
      have hfirst : (writes 0).response s.knows = s.response writes 0 := by
        simp [response]
      have hrest : ∀ i, s.response writes (Fin.succ i) =
          (s.absorb [s.outcome writes 0]).response (writes ∘ Fin.succ) i := by
        intro i
        rw [response_succ s a (hwrites 0), hstate, hfirst]
        rfl
      -- The other writes start from what the first one leaves behind.
      obtain ⟨hanswers, hstates⟩ := ih (s.absorb [s.outcome writes 0]) (writes ∘ Fin.succ) fun i => hwrites i.succ
      constructor
      · rw [List.ofFn_succ, List.ofFn_succ, perform, hstate, hanswer, hfirst]
        simp only [hrest]
        exact congrArg _ hanswers
      · have hsplit : s.absorb (List.ofFn (s.outcome writes)) =
            (s.absorb [s.outcome writes 0]).absorb
              (List.ofFn ((s.absorb [s.outcome writes 0]).outcome (writes ∘ Fin.succ))) := by
          have hrow : (fun i : Fin n => s.outcome writes i.succ) =
              (s.absorb [s.outcome writes 0]).outcome (writes ∘ Fin.succ) :=
            funext fun i => Prod.ext rfl (hrest i)
          rw [List.ofFn_succ, absorb_cons, hrow]
        rw [hsplit, List.ofFn_succ, perform, hstate, hfirst]
        exact hstates

/-! ### Two orders -/

section orders
variable (s : Store) {n : Nat} {writes : Fin n → Update} {σ : Equiv.Perm (Fin n)}

/-- A write is answered as in the other order, if the order of writes for one key is kept. -/
theorem response_comp (hσ : KeepsOrder σ fun i j => (writes i).SharesKey (writes j)) :
    s.response (writes ∘ σ) = s.response writes ∘ σ := by
  funext i
  unfold response Update.response
  simp only [Function.comp_apply]
  cases hkey : (writes (σ i)).key? with
  | none => rfl
  | some k =>
      have hearlier : (∃ j < i, (writes (σ j)).key? = some k) ↔ ∃ j < σ i, (writes j).key? = some k := by
        constructor
        · rintro ⟨j, hj, hk⟩
          exact ⟨σ j, hσ j i hj ⟨by simp [hk], hk.trans hkey.symm⟩, hk⟩
        · rintro ⟨j, hj, hk⟩
          obtain ⟨j, rfl⟩ := σ.surjective j
          refine ⟨j, ?_, hk⟩
          -- Otherwise the two would have changed their order.
          by_contra hle
          rcases Nat.lt_or_eq_of_le (Nat.le_of_not_lt hle) with hlt | heq
          · exact Fin.lt_asymm hj (hσ i j hlt ⟨by simp [hkey], hkey.trans hk.symm⟩)
          · rw [Fin.ext heq] at hj
            exact Fin.lt_irrefl _ hj
      simp only [hearlier]

theorem key?_of_pair? {key : Entity} {k : Indexed key} {outcome : Outcome} {entry : Id key × Handle}
    (h : outcome.pair? k = some entry) : outcome.1.key? = some (k.inject entry.1) := by
  unfold Outcome.pair? at h
  split at h
  · rw [← Option.some.inj h]
    rfl
  · rw [← Option.some.inj h]
    rfl
  · cases h

theorem supplied_of_node? {outcome : Outcome} (h : outcome.node?.isSome = true) :
    outcome.1.supplied.isSome = true := by
  unfold Outcome.node? at h
  split at h
  · rfl
  · rfl
  · rfl
  · cases h

theorem addsCall_of_call? {outcome : Outcome} (h : outcome.call?.isSome = true) :
    outcome.1.addsCall = true := by
  unfold Outcome.call? at h
  split at h
  · rfl
  · cases h

/-- An identity is found under the same node, if the order of writes for it is kept. -/
theorem find?_comp {key : Entity} (hσ : KeepsOrder σ fun i j => (writes i).SharesKey (writes j))
    (k : Indexed key) (x : Id key) :
    ((s.absorb (List.ofFn (s.outcome writes ∘ σ))).index k).find? x =
      ((s.absorb (List.ofFn (s.outcome writes))).index k).find? x := by
  -- The entries for one identity stand in the same order.
  have hsame : ((List.ofFn (s.outcome writes ∘ σ)).filterMap (Outcome.pair? k)).filter (fun entry => entry.1 = x) =
      ((List.ofFn (s.outcome writes)).filterMap (Outcome.pair? k)).filter fun entry => entry.1 = x := by
    rw [List.filter_filterMap, List.filter_filterMap]
    apply filterMap_ofFn
    refine hσ.mono ?_
    intro i j ⟨hi, hj⟩
    have hkey : ∀ i, (((s.outcome writes i).pair? k).filter fun entry => entry.1 = x).isSome = true →
        (writes i).key? = some (k.inject x) := by
      intro i hi
      obtain ⟨entry, hentry⟩ := Option.isSome_iff_exists.mp hi
      obtain ⟨hpicked, hx⟩ := Option.filter_eq_some_iff.mp hentry
      rw [← of_decide_eq_true hx]
      exact key?_of_pair? hpicked
    exact ⟨by simp [hkey i hi], (hkey i hi).trans (hkey j hj).symm⟩
  rw [index_absorb, index_absorb]
  unfold Index.find?
  rw [List.find?_append, List.find?_append, ← List.head?_filter, ← List.head?_filter, hsame, List.head?_filter,
    List.head?_filter]

/-- What is looked up is told by the two indices. -/
theorem ask_lookUp {s t : Store} (hfunction : t.function = s.function)
    (hindex : ∀ {key : Entity} (k : Indexed key) (x : Id key), (t.index k).find? x = (s.index k).find? x)
    {query : Query} (h : query.looksUp = true) : t.ask query = s.ask query := by
  have hfind : ∀ {key : Entity} (k : Indexed key) (x : Id key), t.find k x = s.find k x := by
    intro key k x
    unfold find
    rw [hindex, hfunction]
  have hcontains : ∀ {key : Entity} (k : Indexed key) (x : Id key),
      (t.index k).contains x = (s.index k).contains x :=
    fun k x => congrArg Option.isSome (hindex k x)
  cases query with
  | hasFormal x => exact congrArg (fun b => Except.ok (Answer.flag b)) (hcontains .argument x)
  | hasValue v => exact congrArg (fun b => Except.ok (Answer.flag b)) (hcontains .value v)
  | tryFormal x | demandFormal x => exact congrArg (answerOf _ _) (hfind .argument x)
  | tryValue v | demandValue v => exact congrArg (answerOf _ _) (hfind .value v)
  | _ => cases h

end orders

/-- Two runs of the same writes in two orders. -/
structure Reordered {n : Nat} (writes : Fin n → Update) (σ : Equiv.Perm (Fin n))
    (c c' : Change (Store × Arena) (List Answer)) : Prop where
  /-- Every write is answered as in the other order. -/
  answers : ∃ answers : Fin n → Answer, c.answer = List.ofFn answers ∧ c'.answer = List.ofFn (answers ∘ σ)
  lookups : ∀ query : Query, query.looksUp = true → c'.state.1.ask query = c.state.1.ask query
  /-- The same entries, nodes and calls are there. -/
  formals : c'.state.1.formals.entries.Perm c.state.1.formals.entries
  values : c'.state.1.values.entries.Perm c.state.1.values.entries
  size : c'.state.1.size = c.state.1.size
  listed : c'.state.1.listed.Perm c.state.1.listed
  calls : c'.state.1.calls.Perm c.state.1.calls
  /-- If the order of all nodes is kept, or that of all calls, then so is the order of what is listed. -/
  listed_eq : (KeepsOrder σ fun i j => (writes i).supplied.isSome = true ∧ (writes j).supplied.isSome = true) →
    c'.state.1.listed = c.state.1.listed
  calls_eq : (KeepsOrder σ fun i j => (writes i).addsCall = true ∧ (writes j).addsCall = true) →
    c'.state.1.calls = c.state.1.calls

/-- Whatever a store holds, the order of its writes does not matter, as long as writes for one key are not
exchanged. -/
theorem reordered_perform (s : Store) (a : Arena) {n : Nat} (writes : Fin n → Update)
    (hwrites : ∀ i, (writes i).writes = true) (σ : Equiv.Perm (Fin n))
    (hσ : KeepsOrder σ fun i j => (writes i).SharesKey (writes j)) :
    Reordered writes σ (s.perform a (List.ofFn writes)) (s.perform a (List.ofFn (writes ∘ σ))) := by
  obtain ⟨hanswer, hstate⟩ := perform_writes s a writes hwrites
  obtain ⟨hanswer', hstate'⟩ := perform_writes s a (writes ∘ σ) fun i => hwrites (σ i)
  have houtcomes : s.outcome (writes ∘ σ) = s.outcome writes ∘ σ := by
    funext i
    exact Prod.ext rfl (congrFun (response_comp s hσ) i)
  rw [response_comp s hσ] at hanswer'
  rw [houtcomes] at hstate'
  refine
    { answers := ⟨s.response writes, hanswer, hanswer'⟩
      lookups := ?_
      formals := ?_
      values := ?_
      size := ?_
      listed := ?_
      calls := ?_
      listed_eq := ?_
      calls_eq := ?_ } <;> rw [hstate, hstate']
  · intro query hquery
    refine ask_lookUp ?_ (find?_comp s hσ) hquery
    rfl
  · exact (perm_filterMap_ofFn _ σ (Outcome.pair? .argument)).append_left _
  · exact (perm_filterMap_ofFn _ σ (Outcome.pair? .value)).append_left _
  · exact ((perm_filterMap_ofFn _ σ Outcome.node?).append_left s.listed).length_eq
  · exact (perm_filterMap_ofFn _ σ Outcome.node?).append_left _
  · exact (perm_filterMap_ofFn _ σ Outcome.call?).append_left _
  · intro h
    refine congrArg (s.listed ++ ·) (filterMap_ofFn _ σ _ (h.mono ?_))
    exact fun i j ⟨hi, hj⟩ => ⟨supplied_of_node? hi, supplied_of_node? hj⟩
  · intro h
    refine congrArg (s.calls ++ ·) (filterMap_ofFn _ σ _ (h.mono ?_))
    exact fun i j ⟨hi, hj⟩ => ⟨addsCall_of_call? hi, addsCall_of_call? hj⟩

/-- Two argument nodes and a value node, an unindexed node and a call; the first argument comes twice. -/
def visits : Fin 6 → Update :=
  ![.recordFormal ⟨1⟩ ⟨7⟩, .recordValue ⟨1⟩ ⟨8⟩, .listNode ⟨7⟩, .recordFormal ⟨1⟩ ⟨9⟩, .recordFormal ⟨2⟩ ⟨9⟩,
    .addCall ⟨⟨5⟩, none⟩]

/-- The call comes first and the value last; the attempts for the first argument keep their order. -/
def detour : Equiv.Perm (Fin 6) := Equiv.swap 0 5 * Equiv.swap 1 2 * Equiv.swap 2 5

/-- In either order the earlier attempt for the first argument counts. -/
theorem reordered_perform_detour :
    let s := (create .empty ⟨⟨3⟩, "walk", [⟨1⟩, ⟨2⟩], false⟩).state.1
    let c := s.perform .empty (List.ofFn visits)
    let c' := s.perform .empty (List.ofFn (visits ∘ detour))
    (∀ i, (visits i).writes = true) ∧
      (KeepsOrder detour fun i j => (visits i).SharesKey (visits j)) ∧
      Reordered visits detour c c' ∧ c.state.1.listed ≠ c'.state.1.listed ∧
      c'.state.1.formals.find? ⟨1⟩ = some ⟨7⟩ := by
  intro s c c'
  have hwrites : ∀ i, (visits i).writes = true := by decide
  have hkeeps : KeepsOrder detour fun i j => (visits i).SharesKey (visits j) := by decide +kernel
  exact ⟨hwrites, hkeeps, reordered_perform s .empty visits hwrites detour hkeeps, by decide +kernel,
    by decide +kernel⟩

end Store
end Dependence
