import Dependence.Proofs.Session.Allocation
import Dependence.Proofs.Session.Framing
import Dependence.Proofs.Store.Drawing
import Mathlib.Logic.Equiv.Basic

/-! # Stores that share an arena

Two parties work on a store each, and their operations come in any order.  When they share an arena, the order
decides which of them gets which handle, and nothing else: the handles that one order grants are those that
another order grants, in other hands (`exists_perm_map`), and each store does the same with the handles that it
gets (`Store.attend_moved`).  When each has an arena of its own, the order decides nothing at all
(`run_apart`).

What a store sees of the other one is the arenas that it meets: `run_shared` takes a run apart into the runs of
the two stores, each with the arenas that it met. -/

namespace Dependence

/-- The places in which somebody finds his store and his arena. -/
structure Party where
  store : Nat
  arena : Nat

/-- The step by which somebody carries out an operation. -/
def Store.Operation.step (operation : Store.Operation) (p : Party) : Step :=
  match operation with
  | .ask query => .askStore p.store p.arena query
  | .update u => .updateStore p.store p.arena u

/-- An operation of one of two parties. -/
abbrev Move := Bool × Store.Operation

/-- A row without repetition is turned into any other order of it by a permutation that leaves all else. -/
theorem exists_perm_map {α : Type} [DecidableEq α] {xs ys : List α} (h : xs.Perm ys) (hnodup : xs.Nodup) :
    ∃ π : Equiv.Perm α, xs.map π = ys ∧ ∀ x, x ∉ xs → π x = x := by
  induction h with
  | nil => exact ⟨Equiv.refl α, rfl, fun x _ => rfl⟩
  | @cons y xs ys _ ih =>
      obtain ⟨hy, hxs⟩ := List.nodup_cons.mp hnodup
      obtain ⟨π, hmap, hfixed⟩ := ih hxs
      refine ⟨π, by rw [List.map_cons, hmap, hfixed y hy], ?_⟩
      exact fun x hx => hfixed x fun hmem => hx (List.mem_cons_of_mem y hmem)
  | swap y z xs =>
      obtain ⟨hz, hrest⟩ := List.nodup_cons.mp hnodup
      obtain ⟨hy, -⟩ := List.nodup_cons.mp hrest
      have hothers : ∀ x ∈ xs, Equiv.swap z y x = x := by
        intro x hx
        refine Equiv.swap_apply_of_ne_of_ne ?_ ?_
        · rintro rfl
          exact hz (List.mem_cons_of_mem y hx)
        · rintro rfl
          exact hy hx
      refine ⟨Equiv.swap z y, ?_, ?_⟩
      · rw [List.map_cons, List.map_cons, Equiv.swap_apply_left, Equiv.swap_apply_right,
          List.map_congr_left hothers, List.map_id']
      · intro x hx
        refine Equiv.swap_apply_of_ne_of_ne ?_ ?_
        · rintro rfl
          exact hx List.mem_cons_self
        · rintro rfl
          exact hx (List.mem_cons_of_mem _ List.mem_cons_self)
  | @trans xs ys zs hxy _ ih ih' =>
      obtain ⟨π, hmap, hfixed⟩ := ih hnodup
      obtain ⟨π', hmap', hfixed'⟩ := ih' (hxy.nodup_iff.mp hnodup)
      refine ⟨π.trans π', ?_, ?_⟩
      · rw [← hmap', ← hmap, List.map_map]
        rfl
      · intro x hx
        rw [Equiv.trans_apply, hfixed x hx]
        exact hfixed' x fun hmem => hx (hxy.mem_iff.mpr hmem)

namespace Session

open Store (Operation)

/-- The steps of two parties. -/
def steps (party : Bool → Party) (moves : List Move) : List Step :=
  moves.map fun move => move.2.step (party move.1)

/-- The operations of one party, in their order. -/
def part (side : Bool) (moves : List Move) : List Operation :=
  (moves.filter fun move => move.1 = side).map Prod.snd

/-- The replies that one party gets. -/
def repliesTo (side : Bool) (moves : List Move) (replies : List Reply) : List Reply :=
  ((moves.zip replies).filter fun entry => entry.1.1 = side).map Prod.snd

variable {s : Session} {party : Bool → Party} {stores : Bool → Store}

/-! ### One move -/

/-- The session with a store and an arena put in the places of a party. -/
def put (s : Session) (p : Party) (state : Store × Arena) : Session :=
  { s with arenas := s.arenas.set p.arena state.2, stores := s.stores.set p.store state.1 }

/-- An operation changes its store and its arena. -/
theorem step_operation {p : Party} {store : Store} {a : Arena} (hs : s.stores[p.store]? = some store)
    (ha : s.arenas[p.arena]? = some a) (operation : Operation) :
    s.step (operation.step p) =
      { session := s.put p (store.carryOut a operation).state
        answer := (store.carryOut a operation).answer
        events := (store.carryOut a operation).events } := by
  cases operation with
  | ask query =>
      simp only [Store.Operation.step, step, hs, ha, Store.carryOut, put, set_eq_self hs, set_eq_self ha]
      rfl
  | update u =>
      simp only [Store.Operation.step, step, hs, ha]
      rfl

theorem run_move {mover : Bool} {store : Store} {a : Arena} (hs : s.stores[(party mover).store]? = some store)
    (ha : s.arenas[(party mover).arena]? = some a) (operation : Operation) (moves : List Move) :
    let first := store.carryOut a operation
    let later := s.put (party mover) first.state
    s.run (steps party ((mover, operation) :: moves)) =
      ((later.run (steps party moves)).1,
        { session := later, answer := first.answer, events := first.events } ::
          (later.run (steps party moves)).2) := by
  intro first later
  have hstep : s.step (operation.step (party mover)) =
      { session := later, answer := first.answer, events := first.events } := step_operation hs ha operation
  rw [← hstep, show later = (s.step (operation.step (party mover))).session by rw [hstep]]
  rfl

/-- Of the contents of two places, only the one is changed that is set. -/
theorem getElem?_set_place {α : Type} {place : Bool → Nat} {row : List α} {content : Bool → α}
    (hplace : place true ≠ place false) (hrow : ∀ side, row[place side]? = some (content side))
    (mover side : Bool) (x : α) :
    (row.set (place mover) x)[place side]? = some (Function.update content mover x side) := by
  by_cases hside : side = mover
  · subst hside
    rw [List.getElem?_set_self (List.getElem?_eq_some_iff.mp (hrow side)).1, Function.update_self]
  · have hne : place mover ≠ place side := by
      cases mover <;> cases side
      · exact absurd rfl hside
      · exact hplace.symm
      · exact hplace
      · exact absurd rfl hside
    rw [List.getElem?_set_ne hne, Function.update_of_ne hside, hrow]

/-- What is put in the places of one party is forgotten when both put something there. -/
theorem put_put_put (hparty : (party true).store ≠ (party false).store)
    (hapart : (party true).arena ≠ (party false).arena) (s : Session) (mover : Bool) (x y z : Store × Arena) :
    ((s.put (party mover) x).put (party true) y).put (party false) z =
      (s.put (party true) y).put (party false) z := by
  unfold put
  cases mover with
  | true => simp only [List.set_set]
  | false =>
      simp only [List.set_comm x.1 y.1 hparty.symm, List.set_comm x.2 y.2 hapart.symm, List.set_set]

theorem part_cons (side mover : Bool) (operation : Operation) (moves : List Move) :
    part side ((mover, operation) :: moves) =
      if mover = side then operation :: part side moves else part side moves := by
  unfold part
  rw [List.filter_cons]
  by_cases h : mover = side <;> simp [h]

theorem repliesTo_cons (side mover : Bool) (operation : Operation) (moves : List Move) (reply : Reply)
    (replies : List Reply) :
    repliesTo side ((mover, operation) :: moves) (reply :: replies) =
      if mover = side then reply :: repliesTo side moves replies else repliesTo side moves replies := by
  unfold repliesTo
  rw [List.zip_cons_cons, List.filter_cons]
  by_cases h : mover = side <;> simp [h]

/-! ### One arena -/

/-- A run of two parties on one arena, taken apart: each store has met certain arenas, and together they have
drawn all the handles that the arena has granted. -/
structure Apart (s : Session) (party : Bool → Party) (stores : Bool → Store) (a : Arena) (moves : List Move)
    (met : Bool → List (Arena × Operation)) (payloads : List Payload) : Prop where
  arena : (s.run (steps party moves)).1.arenas[(party true).arena]? = some (a.addNodes payloads)
  drawn : ((stores true).draws (met true) ++ (stores false).draws (met false)).Perm (a.granted payloads)
  operations : ∀ side, (met side).map Prod.snd = part side moves
  store : ∀ side, (s.run (steps party moves)).1.stores[(party side).store]? =
    some ((stores side).attend (met side)).state
  answers : ∀ side, (repliesTo side moves (s.run (steps party moves)).2).map Reply.answer =
    ((stores side).attend (met side)).answer
  events : ∀ side, (repliesTo side moves (s.run (steps party moves)).2).flatMap Reply.events =
    ((stores side).attend (met side)).events

theorem Apart.node? {a : Arena} {moves : List Move} {met : Bool → List (Arena × Operation)}
    {payloads : List Payload} (hapart : s.Apart party stores a moves met payloads) (x : Handle) :
    (s.run (steps party moves)).1.node? (party true).arena x = (a.addNodes payloads).node? x := by
  rw [Session.node?, hapart.arena, Option.bind_some]

/-- A move before a run that is taken apart is one more arena that the mover has met. -/
theorem Apart.move {a : Arena} {mover : Bool} (hplace : (party mover).arena = (party true).arena)
    (hstore : s.stores[(party mover).store]? = some (stores mover))
    (ha : s.arenas[(party true).arena]? = some a) (operation : Operation) {moves : List Move}
    {met : Bool → List (Arena × Operation)} {payloads : List Payload}
    (hlater : (s.put (party mover) ((stores mover).carryOut a operation).state).Apart party
      (Function.update stores mover ((stores mover).carryOut a operation).state.1)
      (a.addNodes ((stores mover).wanted operation)) moves met payloads) :
    s.Apart party stores a ((mover, operation) :: moves)
      (Function.update met mover ((a, operation) :: met mover))
      ((stores mover).wanted operation ++ payloads) := by
  have hrun := run_move hstore (hplace ▸ ha) operation moves
  generalize hfirst : (stores mover).carryOut a operation = first at hrun hlater
  refine ⟨?_, ?_, ?_, ?_, ?_, ?_⟩
  · rw [hrun, hlater.arena, Arena.addNodes_append]
  · have hdrawn := (hlater.drawn.append_left (a.granted ((stores mover).wanted operation)))
    rw [← Arena.granted_append] at hdrawn
    cases mover with
    | true =>
        rw [Function.update_self, Function.update_of_ne Bool.false_ne_true, Store.draws, hfirst,
          List.append_assoc]
        rwa [Function.update_self, Function.update_of_ne Bool.false_ne_true] at hdrawn
    | false =>
        have hne : true ≠ false := fun h => Bool.false_ne_true h.symm
        rw [Function.update_self, Function.update_of_ne hne, Store.draws, hfirst]
        rw [Function.update_self, Function.update_of_ne hne] at hdrawn
        exact (List.perm_append_comm_assoc _ _ _).trans hdrawn
  · intro side
    rw [part_cons]
    by_cases hside : mover = side
    · subst hside
      rw [if_pos rfl, Function.update_self, List.map_cons, hlater.operations]
    · rw [if_neg hside, Function.update_of_ne (Ne.symm hside), hlater.operations]
  · intro side
    have hlast := hlater.store side
    rw [hrun]
    by_cases hside : mover = side
    · subst hside
      rw [Function.update_self] at hlast ⊢
      rw [Store.attend, hfirst]
      exact hlast
    · rwa [Function.update_of_ne (Ne.symm hside)] at hlast ⊢
  · intro side
    have hanswers := hlater.answers side
    rw [hrun, repliesTo_cons]
    by_cases hside : mover = side
    · subst hside
      rw [if_pos rfl, Function.update_self, List.map_cons, hanswers, Function.update_self, Store.attend, hfirst]
    · have hother := Ne.symm hside
      rw [if_neg hside, hanswers, Function.update_of_ne hother, Function.update_of_ne hother]
  · intro side
    have hevents := hlater.events side
    rw [hrun, repliesTo_cons]
    by_cases hside : mover = side
    · subst hside
      rw [if_pos rfl, Function.update_self, List.flatMap_cons, hevents, Function.update_self, Store.attend, hfirst]
    · have hother := Ne.symm hside
      rw [if_neg hside, hevents, Function.update_of_ne hother, Function.update_of_ne hother]

/-- A run on one arena can be taken apart. -/
theorem run_shared {a : Arena} (hparty : (party true).store ≠ (party false).store)
    (hshared : (party false).arena = (party true).arena)
    (hstores : ∀ side, s.stores[(party side).store]? = some (stores side))
    (ha : s.arenas[(party true).arena]? = some a) (moves : List Move) :
    ∃ met payloads, s.Apart party stores a moves met payloads := by
  induction moves generalizing s stores a with
  | nil =>
      refine ⟨fun _ => [], [], ha, .refl _, fun _ => rfl, hstores, fun _ => rfl, fun _ => rfl⟩
  | cons move moves ih =>
      obtain ⟨mover, operation⟩ := move
      have hplace : (party mover).arena = (party true).arena := by
        cases mover
        · exact hshared
        · rfl
      let first := (stores mover).carryOut a operation
      have hstores' : ∀ side, (s.put (party mover) first.state).stores[(party side).store]? =
          some (Function.update stores mover first.state.1 side) :=
        fun side => getElem?_set_place hparty hstores mover side _
      have ha' : (s.put (party mover) first.state).arenas[(party true).arena]? =
          some (a.addNodes ((stores mover).wanted operation)) := by
        rw [← Store.carryOut_wanted, ← hplace]
        exact List.getElem?_set_self (List.getElem?_eq_some_iff.mp (hplace ▸ ha)).1
      obtain ⟨met, payloads, hlater⟩ := ih hstores' ha'
      exact ⟨_, _, .move hplace (hstores mover) ha operation hlater⟩

/-- What two runs of the same parties on one arena have in common: the second is the first with its handles
moved. -/
structure Moved (party : Bool → Party) (moves moves' : List Move) (π : Equiv.Perm Handle)
    (run run' : Session × List Reply) : Prop where
  stores : ∀ side, run'.1.stores[(party side).store]? =
    run.1.stores[(party side).store]?.map (Store.rename (.moving π))
  node? : ∀ x, run'.1.node? (party true).arena (π x) = run.1.node? (party true).arena x
  answers : ∀ (side : Bool) (k : Nat) (operation : Operation) (answer : Except Failure Answer),
    (part side moves)[k]? = some operation → operation.describes = false →
    ((repliesTo side moves run.2).map Reply.answer)[k]? = some answer →
    ((repliesTo side moves' run'.2).map Reply.answer)[k]? = some (Answer.renameResult (.moving π) answer)
  events : ∀ side, (repliesTo side moves' run'.2).flatMap Reply.events =
    ((repliesTo side moves run.2).flatMap Reply.events).map (Event.rename (.moving π))
  edges : ∃ a b, run.1.arenas[(party true).arena]? = some a ∧ run'.1.arenas[(party true).arena]? = some b ∧
    b.nodeCount = a.nodeCount ∧ b.edgeCount = a.edgeCount ∧ b.edges = a.edges ∧ b.outgoing = a.outgoing ∧
    b.incoming = a.incoming

/-- Draws are those of another run with their handles moved, when the handles are and the payloads are the same. -/
theorem eq_map_moved {π : Equiv.Perm Handle} {xs ys : List (Handle × Payload)}
    (hhandles : (xs.map Prod.fst).map π = ys.map Prod.fst) (hpayloads : ys.map Prod.snd = xs.map Prod.snd) :
    ys = xs.map (Prod.map π id) := by
  have hmoved : (xs.map (Prod.map π id)).map Prod.fst = ys.map Prod.fst := by
    rw [← hhandles, List.map_map, List.map_map]
    rfl
  have hkept : (xs.map (Prod.map π id)).map Prod.snd = ys.map Prod.snd := by
    rw [hpayloads, List.map_map]
    rfl
  exact (List.zip_of_prod rfl rfl).trans (List.zip_of_prod hmoved hkept).symm

/-- Draws of the same stores from one arena are turned into each other by a permutation of the handles. -/
theorem exists_perm_draws {a : Arena} {xs ys xs' ys' : List (Handle × Payload)}
    {payloads payloads' : List Payload} (hroom : (a.addNodes payloads).HasRoom)
    (h : (xs ++ ys).Perm (a.granted payloads)) (h' : (xs' ++ ys').Perm (a.granted payloads'))
    (hxs : xs'.map Prod.snd = xs.map Prod.snd) (hys : ys'.map Prod.snd = ys.map Prod.snd) :
    ∃ π : Equiv.Perm Handle, xs' = xs.map (Prod.map π id) ∧ ys' = ys.map (Prod.map π id) ∧
      ∀ x, (∀ payload, (x, payload) ∉ a.granted payloads) → π x = x := by
  have hxlength : xs'.length = xs.length := by simpa using congrArg List.length hxs
  have hylength : ys'.length = ys.length := by simpa using congrArg List.length hys
  -- As many nodes are granted, so the same handles are.
  have hlength : payloads'.length = payloads.length := by
    have hcount := h.length_eq
    have hcount' := h'.length_eq
    rw [Arena.granted_eq_zip] at hcount hcount'
    simp only [List.length_append, List.length_zip, Arena.length_handles, Nat.min_self] at hcount hcount'
    omega
  have hhandles : (a.granted payloads').map Prod.fst = (a.granted payloads).map Prod.fst := by
    rw [Arena.map_fst_granted, Arena.map_fst_granted, hlength]
  have hperm : ((xs ++ ys).map Prod.fst).Perm ((xs' ++ ys').map Prod.fst) :=
    (h.map Prod.fst).trans (hhandles ▸ (h'.map Prod.fst).symm)
  have hnodup : ((xs ++ ys).map Prod.fst).Nodup :=
    (h.map Prod.fst).nodup_iff.mpr (Arena.nodup_granted hroom)
  obtain ⟨π, hmap, hfixed⟩ := exists_perm_map hperm hnodup
  rw [List.map_append, List.map_append, List.map_append] at hmap
  obtain ⟨hfirst, hsecond⟩ := List.append_inj hmap (by simp [hxlength])
  refine ⟨π, eq_map_moved hfirst hxs, eq_map_moved hsecond hys, ?_⟩
  intro x hx
  refine hfixed x fun hmem => ?_
  obtain ⟨⟨y, payload⟩, hentry, rfl⟩ := List.mem_map.mp hmem
  exact hx payload (h.mem_iff.mp hentry)

/-- A store does the same with moved handles when it meets other arenas, unless handles of the first are moved
that it held or was given. -/
theorem Apart.moved {a : Arena} {moves moves' : List Move} {met : Bool → List (Arena × Operation)}
    {payloads : List Payload} (hapart : s.Apart party stores a moves met payloads) {side : Bool}
    {met' : List (Arena × Operation)} {π : Equiv.Perm Handle} (hpart : part side moves' = part side moves)
    (hoperations : met'.map Prod.snd = part side moves') (hover : (stores side).Over a)
    (hsupplied : ∀ move ∈ moves, ∀ node, move.2.supplied = some node → a.contains node = true)
    (hold : ∀ x, a.contains x = true → π x = x)
    (hdraws : (stores side).draws met' = ((stores side).draws (met side)).map (Prod.map π id)) :
    Store.MovedBy π (part side moves) ((stores side).attend (met side)) ((stores side).attend met') := by
  have hsame : met'.map Prod.snd = (met side).map Prod.snd := by
    rw [hoperations, hpart, hapart.operations]
  have hpresent : ∀ operation ∈ (met side).map Prod.snd, ∀ node, operation.supplied = some node →
      a.contains node = true := by
    rw [hapart.operations]
    intro operation hmem node hnode
    obtain ⟨move, hmove, rfl⟩ := List.mem_map.mp hmem
    exact hsupplied move (List.mem_of_mem_filter hmove) node hnode
  have hhandles : ((stores side).draws met').map Prod.fst =
      (((stores side).draws (met side)).map Prod.fst).map π := by
    rw [hdraws, List.map_map, List.map_map]
    rfl
  rw [← hapart.operations]
  exact hover.attend_moved hold hsame hpresent hhandles

/-- When the handles granted are moved, so is what they lead to. -/
theorem node?_moved {a : Arena} {payloads payloads' : List Payload} {π : Equiv.Perm Handle}
    (hroom : (a.addNodes payloads).HasRoom) (hroom' : (a.addNodes payloads').HasRoom)
    (hold : ∀ x, a.contains x = true → π x = x)
    (hgranted : (a.granted payloads').Perm ((a.granted payloads).map (Prod.map π id))) (x : Handle) :
    (a.addNodes payloads').node? (π x) = (a.addNodes payloads).node? x := by
  refine Option.ext fun payload => ?_
  rw [Arena.node?_addNodes_eq_some hroom, Arena.node?_addNodes_eq_some hroom']
  have hbefore : a.node? (π x) = some payload ↔ a.node? x = some payload := by
    constructor
    · intro hx
      have hfixed := hold (π x) (by rw [Arena.contains, hx]; rfl)
      rwa [π.injective hfixed] at hx
    · intro hx
      rwa [hold x (by rw [Arena.contains, hx]; rfl)]
  have hnew : (π x, payload) ∈ a.granted payloads' ↔ (x, payload) ∈ a.granted payloads := by
    rw [hgranted.mem_iff, List.mem_map]
    constructor
    · rintro ⟨⟨y, other⟩, hmem, he⟩
      obtain ⟨hy, rfl⟩ := Prod.mk.inj he
      rwa [π.injective hy] at hmem
    · exact fun hmem => ⟨_, hmem, rfl⟩
  rw [hbefore, hnew]

section runs
variable {a : Arena} {moves moves' : List Move} {met met' : Bool → List (Arena × Operation)}
  {payloads payloads' : List Payload}

/-- Two orders of the same operations draw the same handles, in other hands. -/
theorem Apart.exists_perm (hapart : s.Apart party stores a moves met payloads)
    (hapart' : s.Apart party stores a moves' met' payloads')
    (hparts : ∀ side, part side moves' = part side moves) (hroom : (a.addNodes payloads).HasRoom) :
    ∃ π : Equiv.Perm Handle,
      (∀ side, (stores side).draws (met' side) = ((stores side).draws (met side)).map (Prod.map π id)) ∧
      ∀ x, (∀ payload, (x, payload) ∉ a.granted payloads) → π x = x := by
  have hpayloads : ∀ side, ((stores side).draws (met' side)).map Prod.snd =
      ((stores side).draws (met side)).map Prod.snd := by
    intro side
    refine Store.payloads_draws rfl (fun _ => rfl) ?_
    rw [hapart'.operations, hapart.operations, hparts]
  obtain ⟨π, htrue, hfalse, hfixed⟩ :=
    exists_perm_draws hroom hapart.drawn hapart'.drawn (hpayloads true) (hpayloads false)
  refine ⟨π, fun side => ?_, hfixed⟩
  cases side
  · exact hfalse
  · exact htrue

/-- When each store draws its handles moved, the second run is the first one with its handles moved. -/
theorem Apart.moved_of_draws (hapart : s.Apart party stores a moves met payloads)
    (hapart' : s.Apart party stores a moves' met' payloads')
    (hparts : ∀ side, part side moves' = part side moves) (hroom : (a.addNodes payloads).HasRoom)
    (hover : ∀ side, (stores side).Over a)
    (hsupplied : ∀ move ∈ moves, ∀ node, move.2.supplied = some node → a.contains node = true)
    {π : Equiv.Perm Handle} (hold : ∀ x, a.contains x = true → π x = x)
    (hdraws : ∀ side, (stores side).draws (met' side) = ((stores side).draws (met side)).map (Prod.map π id)) :
    Moved party moves moves' π (s.run (steps party moves)) (s.run (steps party moves')) := by
  have hmoved := fun side =>
    hapart.moved (hparts side) (hapart'.operations side) (hover side) hsupplied hold (hdraws side)
  have hgranted : (a.granted payloads').Perm ((a.granted payloads).map (Prod.map π id)) := by
    have hdrawn' := hapart'.drawn
    rw [hdraws, hdraws, ← List.map_append] at hdrawn'
    exact hdrawn'.symm.trans (hapart.drawn.map _)
  have hlength : payloads'.length = payloads.length := by
    simpa [Arena.granted_eq_zip] using hgranted.length_eq
  have hroom' : (a.addNodes payloads').HasRoom := by
    unfold Arena.HasRoom at hroom ⊢
    rw [Arena.nodes_addNodes, Slots.length_insertAll] at hroom ⊢
    rwa [hlength]
  refine ⟨?_, ?_, ?_, ?_, ?_⟩
  · intro side
    rw [hapart.store, hapart'.store, (hmoved side).state]
    rfl
  · intro x
    rw [hapart.node?, hapart'.node?]
    exact node?_moved hroom hroom' hold hgranted x
  · intro side k operation answer hk hdescribes hanswer
    rw [hapart.answers] at hanswer
    rw [hapart'.answers]
    exact (hmoved side).answers k operation answer hk hdescribes hanswer
  · intro side
    rw [hapart.events, hapart'.events, (hmoved side).events]
  · refine ⟨_, _, hapart.arena, hapart'.arena, ?_⟩
    rw [Arena.addNodes_eq, Arena.addNodes_eq]
    refine ⟨?_, rfl, rfl, rfl, rfl⟩
    unfold Arena.nodeCount
    rw [Slots.count_insertAll, Slots.count_insertAll, hlength]

/-- Two stores over one arena do the same in any order, but for which of them gets which handle. -/
theorem moved_run (hparty : (party true).store ≠ (party false).store)
    (hshared : (party false).arena = (party true).arena)
    (hstores : ∀ side, s.stores[(party side).store]? = some (stores side))
    (ha : s.arenas[(party true).arena]? = some a) (hover : ∀ side, (stores side).Over a)
    (hparts : ∀ side, part side moves' = part side moves)
    (hsupplied : ∀ move ∈ moves, ∀ node, move.2.supplied = some node → a.contains node = true)
    (hroom : ∀ b, (s.run (steps party moves)).1.arenas[(party true).arena]? = some b → b.HasRoom) :
    ∃ π : Equiv.Perm Handle,
      (∀ x, a.contains x = true ∨ (s.run (steps party moves)).1.node? (party true).arena x = none → π x = x) ∧
      Moved party moves moves' π (s.run (steps party moves)) (s.run (steps party moves')) := by
  obtain ⟨met, payloads, hapart⟩ := run_shared hparty hshared hstores ha moves
  obtain ⟨met', payloads', hapart'⟩ := run_shared hparty hshared hstores ha moves'
  have hroom := hroom _ hapart.arena
  obtain ⟨π, hdraws, hfixed⟩ := hapart.exists_perm hapart' hparts hroom
  -- A handle that is granted led nowhere before, and leads somewhere afterwards.
  have hstays : ∀ x, a.contains x = true ∨
      (s.run (steps party moves)).1.node? (party true).arena x = none → π x = x := by
    intro x hx
    refine hfixed x fun payload hmem => ?_
    obtain ⟨hbefore, hafter⟩ := Arena.mem_granted hroom _ hmem
    rcases hx with hx | hx
    · rw [Arena.contains, hbefore] at hx
      cases hx
    · rw [hapart.node?, hafter] at hx
      cases hx
  exact ⟨π, hstays, hapart.moved_of_draws hapart' hparts hroom hover hsupplied
    (fun x hx => hstays x (.inl hx)) hdraws⟩

end runs

/-! ### Two arenas -/

/-- When each party has an arena of its own, each store is served as if it were alone. -/
theorem run_apart {arenas : Bool → Arena} (hparty : (party true).store ≠ (party false).store)
    (hapart : (party true).arena ≠ (party false).arena)
    (hstores : ∀ side, s.stores[(party side).store]? = some (stores side))
    (harenas : ∀ side, s.arenas[(party side).arena]? = some (arenas side)) (moves : List Move) :
    let served := fun side => ((stores side).serve (arenas side) (part side moves)).state
    (s.run (steps party moves)).1 = (s.put (party true) (served true)).put (party false) (served false) := by
  induction moves generalizing s stores arenas with
  | nil =>
      simp only [part, List.filter_nil, List.map_nil, Store.serve, put, set_eq_self (harenas _),
        set_eq_self (hstores _)]
      rfl
  | cons move moves ih =>
      obtain ⟨mover, operation⟩ := move
      have hrun := run_move (hstores mover) (harenas mover) operation moves
      have hserved : ∀ side, ((stores side).serve (arenas side) (part side ((mover, operation) :: moves))).state =
          ((Function.update stores mover ((stores mover).carryOut (arenas mover) operation).state.1 side).serve
            (Function.update arenas mover ((stores mover).carryOut (arenas mover) operation).state.2 side)
            (part side moves)).state := by
        intro side
        rw [part_cons]
        by_cases hside : mover = side
        · subst hside
          rw [if_pos rfl, Function.update_self, Function.update_self]
          rfl
        · rw [if_neg hside, Function.update_of_ne (Ne.symm hside), Function.update_of_ne (Ne.symm hside)]
      generalize (stores mover).carryOut (arenas mover) operation = first at hrun hserved
      have hstores' : ∀ side, (s.put (party mover) first.state).stores[(party side).store]? =
          some (Function.update stores mover first.state.1 side) :=
        fun side => getElem?_set_place hparty hstores mover side _
      have harenas' : ∀ side, (s.put (party mover) first.state).arenas[(party side).arena]? =
          some (Function.update arenas mover first.state.2 side) :=
        fun side => getElem?_set_place hapart harenas mover side _
      have hrest := ih hstores' harenas'
      simp only [hserved]
      rw [hrun, hrest, put_put_put hparty hapart]

/-! ### Independence -/

/-- Two stores do not interfere, in whatever order their operations come.  Over one arena, the handles that
were granted are moved by a permutation; with an arena each, nothing depends on the order. -/
theorem independent_run (hparty : (party true).store ≠ (party false).store)
    (hstores : ∀ side, s.stores[(party side).store]? = some (stores side)) {moves moves' : List Move}
    (hparts : ∀ side, part side moves' = part side moves) :
    (∀ a, (party false).arena = (party true).arena → s.arenas[(party true).arena]? = some a →
      (∀ side, (stores side).Over a) →
      (∀ move ∈ moves, ∀ node, move.2.supplied = some node → a.contains node = true) →
      (∀ b, (s.run (steps party moves)).1.arenas[(party true).arena]? = some b → b.HasRoom) →
      ∃ π : Equiv.Perm Handle,
        (∀ x, a.contains x = true ∨ (s.run (steps party moves)).1.node? (party true).arena x = none → π x = x) ∧
        Moved party moves moves' π (s.run (steps party moves)) (s.run (steps party moves'))) ∧
    (∀ arenas : Bool → Arena, (party true).arena ≠ (party false).arena →
      (∀ side, s.arenas[(party side).arena]? = some (arenas side)) →
      (s.run (steps party moves')).1 = (s.run (steps party moves)).1) := by
  constructor
  · exact fun a hshared ha hover => moved_run hparty hshared hstores ha hover hparts
  · intro arenas hapart harenas
    have hrun := run_apart hparty hapart hstores harenas moves
    have hrun' := run_apart hparty hapart hstores harenas moves'
    simp only [hparts] at hrun'
    exact hrun'.trans hrun.symm

/-- The stores of two functions with parameters, and one arena for both with a node. -/
def neighbours : Session where
  declarations := []
  arenas := [Arena.empty.addNode (.value ⟨7⟩)]
  stores :=
    [{ declaration := { id := ⟨1⟩, name := "f", params := [⟨1⟩, ⟨2⟩] } },
      { declaration := { id := ⟨2⟩, name := "g", params := [⟨3⟩] } }]

/-- Whoever comes first gets the first handles; the first argument of one function is found under another
handle when the other function comes first. -/
theorem independent_run_neighbours :
    let party : Bool → Party := fun side => ⟨if side then 0 else 1, 0⟩
    let moves : List Move :=
      [(true, .update .addFormals), (false, .update .addFormals), (true, .ask (.tryFormal ⟨1⟩)),
        (false, .update (.recordValue ⟨7⟩ ⟨0⟩))]
    let moves' : List Move :=
      [(false, .update .addFormals), (true, .update .addFormals), (false, .update (.recordValue ⟨7⟩ ⟨0⟩)),
        (true, .ask (.tryFormal ⟨1⟩))]
    (∀ side, part side moves' = part side moves) ∧
      ∃ π : Equiv.Perm Handle, π ⟨0⟩ = ⟨0⟩ ∧ π ⟨1⟩ = ⟨2⟩ ∧
        Moved party moves moves' π (neighbours.run (steps party moves)) (neighbours.run (steps party moves')) := by
  intro party moves moves'
  have hparts : ∀ side, part side moves' = part side moves := fun side => by cases side <;> rfl
  have hstores : ∀ side, neighbours.stores[(party side).store]? =
      some { declaration := if side then { id := ⟨1⟩, name := "f", params := [⟨1⟩, ⟨2⟩] }
        else { id := ⟨2⟩, name := "g", params := [⟨3⟩] } } := fun side => by cases side <;> rfl
  have hsupplied : ∀ move ∈ moves, ∀ node, move.2.supplied = some node →
      (Arena.empty.addNode (.value ⟨7⟩)).contains node = true := by
    have hall : ∀ move ∈ moves, move.2.supplied = none ∨ move.2.supplied = some ⟨0⟩ := by decide
    intro move hmove node hnode
    rcases hall move hmove with h | h
    · rw [h] at hnode
      cases hnode
    · obtain rfl := Option.some.inj (h.symm.trans hnode)
      rfl
  have hroom : ∀ b, (neighbours.run (steps party moves)).1.arenas[(party true).arena]? = some b → b.HasRoom := by
    intro b hb
    obtain rfl := Option.some.inj hb
    unfold Arena.HasRoom
    decide +kernel
  obtain ⟨π, hfixed, hmoved⟩ := (independent_run (by decide) hstores hparts).1 _ rfl rfl
    (fun side node hnode => by cases side <;> cases hnode) hsupplied hroom
  refine ⟨hparts, π, hfixed ⟨0⟩ (.inl rfl), ?_, hmoved⟩
  -- The answers to the look-up tell where the handle is moved.
  have hanswer : some (.ok (.handle ⟨2⟩)) = some (Except.ok (Answer.handle (π ⟨1⟩))) :=
    hmoved.answers true 1 (.ask (.tryFormal ⟨1⟩)) (.ok (.handle ⟨1⟩)) rfl rfl rfl
  exact (Answer.handle.inj (Except.ok.inj (Option.some.inj hanswer))).symm

end Session
end Dependence
