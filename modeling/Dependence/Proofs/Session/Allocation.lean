import Dependence.Proofs.Arena.Growth
import Dependence.Session

/-! # What a session allocates

A step allocates the handles that it is seen to return (`Session.allocations`): that of a node added to
an arena, that of the further arguments of a new store, and those of the arguments that have a node only
since the step.  Each was granted by one arena (`step_works`), whichever store asked for it.

Therefore no step makes a handle lead elsewhere (`extends_step`), and every handle that is allocated led
nowhere before (`mem_allocated`, `nodup_allocated`).  Handles are words, so the latter holds as long as
they can name the slots of every arena.  Nothing else comes to lead anywhere (`node?_or_mem_allocated`).

Every arena of a session has come about as `Arena.Grows` says (`grown_run`), so what growth keeps holds of
all of them. -/

namespace Dependence

/-- A handle that was given to a new node, with the payload that the node is for. -/
structure Allocation where
  arena : Nat
  handle : Handle
  payload : Payload
  deriving DecidableEq

/-- The arena and the slot in it. -/
def Allocation.place (x : Allocation) : Nat × Handle := (x.arena, x.handle)

/-- The handles that an arena grants to several new nodes. -/
def Arena.allocations (a : Arena) (i : Nat) (payloads : List Payload) : List Allocation :=
  (a.granted payloads).map fun entry => ⟨i, entry.1, entry.2⟩

namespace Session

/-- The payload that a handle leads to in one of the arenas. -/
def node? (s : Session) (i : Nat) (h : Handle) : Option Payload := s.arenas[i]?.bind fun a => a.node? h

/-- All slots of all arenas can be named by handles. -/
def HasRoom (s : Session) : Prop := ∀ a ∈ s.arenas, a.HasRoom

/-- The handles that a step returns for new nodes. -/
def allocations (s : Session) (step : Step) : List Allocation :=
  let reply := s.step step
  match step, reply.answer with
  | .updateArena i (.addNode payload), .ok (.handle h) => [⟨i, h, payload⟩]
  | .newStore _ i, .ok (.count j) =>
      match reply.session.stores[j]? with
      | some store => store.variadicNode.toList.map fun h => ⟨i, h, .variadic store.function⟩
      | none => []
  | .updateStore j i update, .ok _ =>
      match s.stores[j]?, reply.session.stores[j]? with
      | some store, some later =>
          if update.allocates then
            (store.gains later).map fun (argument, h) => ⟨i, h, .formal store.function argument⟩
          else []
      | _, _ => []
  | _, _ => []

/-- The handles that several steps return for new nodes. -/
def allocated (s : Session) : List Step → List Allocation
  | [] => []
  | step :: steps => s.allocations step ++ (s.step step).session.allocated steps

/-- The edges that a step is seen to link, each with the position of its arena. -/
def links (s : Session) (step : Step) : List (Nat × Edge) :=
  match step, (s.step step).answer with
  | .updateArena i (.connect edge), .ok _ => [(i, edge)]
  | _, _ => []

/-- The edges that several steps link. -/
def linked (s : Session) : List Step → List (Nat × Edge)
  | [] => []
  | step :: steps => s.links step ++ (s.step step).session.linked steps

/-! ### What a step does to the arenas -/

/-- How one session comes from another by a step that allocates certain handles and links certain edges. -/
inductive Works (s t : Session) : List Allocation → List (Nat × Edge) → Prop
  | keeps : t.arenas = s.arenas → Works s t [] []
  | makes {a : Arena} : a.Fresh ∨ a ∈ s.arenas → t.arenas = s.arenas ++ [a] → Works s t [] []
  | links {i : Nat} {a b : Arena} {edge : Edge} :
      s.arenas[i]? = some a → a.connect edge = .ok b → t.arenas = s.arenas.set i b →
        Works s t [] [(i, edge)]
  | grants {i : Nat} {a : Arena} (payloads : List Payload) :
      s.arenas[i]? = some a → t.arenas = s.arenas.set i (a.addNodes payloads) →
        Works s t (a.allocations i payloads) []

variable {s t : Session} {steps : List Step} {xs : List Allocation} {edges : List (Nat × Edge)}

theorem updateArena_works (s : Session) (i : Nat) (update : Arena.Update) :
    s.Works (s.step (.updateArena i update)).session (s.allocations (.updateArena i update))
      (s.links (.updateArena i update)) := by
  cases ha : s.arenas[i]? with
  | none =>
      simp only [allocations, links, step, ha, say]
      exact .keeps rfl
  | some a =>
      cases update with
      | addNode payload =>
          simp only [allocations, links, step, ha, Arena.update]
          exact .grants [payload] ha rfl
      | connect edge =>
          simp only [allocations, links, step, ha, Arena.update]
          cases hc : a.connect edge with
          | error m => exact .grants [] ha rfl
          | ok b => exact .links ha hc rfl

theorem newStore_works (s : Session) (d i : Nat) :
    s.Works (s.step (.newStore d i)).session (s.allocations (.newStore d i))
      (s.links (.newStore d i)) := by
  cases hd : s.declarations[d]? with
  | none =>
      simp only [allocations, links, step, hd, say]
      exact .keeps rfl
  | some declaration =>
      cases ha : s.arenas[i]? with
      | none =>
          simp only [allocations, links, step, hd, ha, say]
          exact .keeps rfl
      | some a =>
          simp only [allocations, links, step, hd, ha, List.getElem?_concat_length]
          cases hv : declaration.isVariadic with
          | true =>
              simp only [Store.create_store, Store.create_arena, hv]
              exact .grants [.variadic declaration.id] ha rfl
          | false =>
              simp only [Store.create_store, Store.create_arena, hv]
              exact .grants [] ha rfl

theorem updateStore_works (s : Session) (j i : Nat) (update : Store.Update) :
    s.Works (s.step (.updateStore j i update)).session (s.allocations (.updateStore j i update))
      (s.links (.updateStore j i update)) := by
  cases hs : s.stores[j]? with
  | none =>
      simp only [allocations, links, step, hs, say]
      exact .keeps rfl
  | some store =>
      cases ha : s.arenas[i]? with
      | none =>
          simp only [allocations, links, step, hs, ha, say]
          exact .keeps rfl
      | some a =>
          have hj : j < s.stores.length := (List.getElem?_eq_some_iff.mp hs).1
          simp only [allocations, links, step, hs, ha, List.getElem?_set_self hj]
          cases hu : update.allocates with
          | true =>
              obtain ⟨new, hnew⟩ := store.update_allocates a hu
              have hgrants : (store.gains (store.update a update).state.1).map
                  (fun (argument, h) => (⟨i, h, .formal store.function argument⟩ : Allocation)) =
                  a.allocations i (new.map store.formalPayload) := by
                unfold Arena.allocations
                rw [hnew.gains_eq, hnew.granted, List.map_map]
                rfl
              rw [if_pos rfl, hgrants]
              exact .grants _ ha (by rw [hnew.arena])
          | false =>
              have hspares := store.update_spares a hu
              simp only [Bool.false_eq_true, if_false]
              exact .grants [] ha (by rw [hspares.arena]; rfl)

/-- The handles that a step allocates are granted by one arena, and the edge that it links is linked in one. -/
theorem step_works (s : Session) (step : Step) :
    s.Works (s.step step).session (s.allocations step) (s.links step) := by
  cases step with
  | newArena => exact .makes (.inl .new) rfl
  | copyArena i =>
      simp only [allocations, links, Session.step]
      split
      · exact .makes (.inr (List.mem_of_getElem? ‹_›)) rfl
      · exact .keeps rfl
  | loadArena tree =>
      simp only [allocations, links, Session.step]
      split
      · exact .makes (.inl (.ofJson ‹_›)) rfl
      · exact .keeps rfl
  | askArena i query =>
      simp only [allocations, links, Session.step]
      split <;> exact .keeps rfl
  | updateArena i update => exact updateArena_works s i update
  | newStore d i => exact newStore_works s d i
  | askStore j i query =>
      simp only [allocations, links, Session.step]
      split <;> exact .keeps rfl
  | updateStore j i update => exact updateStore_works s j i update

/-! ### Handles keep their nodes -/

/-- Every arena of the first session is there in the second, with what was found in it. -/
def Extends (s t : Session) : Prop :=
  ∀ (i : Nat) (a : Arena), s.arenas[i]? = some a → ∃ b, t.arenas[i]? = some b ∧ a.Extends b

theorem Extends.refl (s : Session) : s.Extends s := fun _ a ha => ⟨a, ha, .refl a⟩

theorem Extends.trans {u : Session} (hst : s.Extends t) (htu : t.Extends u) : s.Extends u := by
  intro i a ha
  obtain ⟨b, hb, hab⟩ := hst i a ha
  obtain ⟨c, hc, hbc⟩ := htu i b hb
  exact ⟨c, hc, hab.trans hbc⟩

theorem getElem?_of_set {i : Nat} {a b : Arena} (ha : s.arenas[i]? = some a)
    (ht : t.arenas = s.arenas.set i b) : t.arenas[i]? = some b := by
  rw [ht, List.getElem?_set_self (List.getElem?_eq_some_iff.mp ha).1]

theorem extends_of_set {i : Nat} {a b : Arena} (ha : s.arenas[i]? = some a)
    (ht : t.arenas = s.arenas.set i b) (hab : a.Extends b) : s.Extends t := by
  intro k c hc
  by_cases hk : k = i
  · subst hk
    rw [ha] at hc
    cases hc
    exact ⟨b, getElem?_of_set ha ht, hab⟩
  · exact ⟨c, by rw [ht, List.getElem?_set_ne (Ne.symm hk), hc], .refl c⟩

theorem Works.extends (h : s.Works t xs edges) : s.Extends t := by
  cases h with
  | keeps ht => exact fun i a ha => ⟨a, by rw [ht, ha], .refl a⟩
  | makes _ ht =>
      intro i a ha
      have hi : i < s.arenas.length := (List.getElem?_eq_some_iff.mp ha).1
      exact ⟨a, by rw [ht, List.getElem?_append_left hi, ha], .refl a⟩
  | links ha hc ht =>
      obtain ⟨-, -, rfl⟩ := Arena.connect_eq_ok.mp hc
      exact extends_of_set ha ht (Arena.extends_link ..)
  | grants payloads ha ht => exact extends_of_set ha ht (Arena.extends_addNodes _ payloads)

theorem Extends.node? (h : s.Extends t) {i : Nat} {node : Handle} {payload : Payload}
    (hs : s.node? i node = some payload) : t.node? i node = some payload := by
  unfold Session.node? at hs ⊢
  obtain ⟨a, ha, hnode⟩ := Option.bind_eq_some_iff.mp hs
  obtain ⟨b, hb, hab⟩ := h i a ha
  rw [hb, Option.bind_some, hab.node? hnode]

theorem Extends.node?_eq_none (h : s.Extends t) {i : Nat} {node : Handle}
    (ht : t.node? i node = none) : s.node? i node = none := by
  cases hs : s.node? i node with
  | none => rfl
  | some payload => rw [h.node? hs] at ht; cases ht

theorem HasRoom.of_extends (h : s.Extends t) (ht : t.HasRoom) : s.HasRoom := by
  intro a ha
  obtain ⟨i, hi⟩ := List.getElem?_of_mem ha
  obtain ⟨b, hb, hab⟩ := h i a hi
  exact .of_extends hab (ht b (List.mem_of_getElem? hb))

/-- No step takes anything from an arena. -/
theorem extends_step (s : Session) (step : Step) : s.Extends (s.step step).session :=
  (step_works s step).extends

theorem extends_run (s : Session) (steps : List Step) : s.Extends (s.run steps).1 := by
  induction steps generalizing s with
  | nil => exact .refl s
  | cons step steps ih => exact (extends_step s step).trans (ih _)

/-! ### Allocated handles are new -/

/-- What one step allocates led nowhere before it, and leads to its payload after it. -/
theorem Works.mem (h : s.Works t xs edges) (hroom : t.HasRoom) :
    ∀ x ∈ xs, s.node? x.arena x.handle = none ∧ t.node? x.arena x.handle = some x.payload := by
  intro x hx
  cases h with
  | grants payloads ha ht =>
      rename_i i a
      have hb := getElem?_of_set ha ht
      obtain ⟨entry, hentry, rfl⟩ := List.mem_map.mp hx
      obtain ⟨hbefore, hafter⟩ := Arena.mem_granted (hroom _ (List.mem_of_getElem? hb)) entry hentry
      unfold Session.node?
      rw [ha, hb, Option.bind_some, Option.bind_some]
      exact ⟨hbefore, hafter⟩
  | _ => cases hx

/-- What leads to a payload after one step did so before, or the step allocated it. -/
theorem Works.node?_or_mem (h : s.Works t xs edges) {i : Nat}
    (hi : i < s.arenas.length) {node : Handle} {payload : Payload} (hnode : t.node? i node = some payload) :
    s.node? i node = some payload ∨ ⟨i, node, payload⟩ ∈ xs := by
  unfold Session.node? at hnode ⊢
  cases h with
  | keeps ht => exact .inl (ht ▸ hnode)
  | makes _ ht =>
      rw [ht, List.getElem?_append_left hi] at hnode
      exact .inl hnode
  | links ha hc ht =>
      rename_i j a b edge
      obtain ⟨-, -, rfl⟩ := Arena.connect_eq_ok.mp hc
      by_cases hj : j = i
      · subst hj
        rw [getElem?_of_set ha ht] at hnode
        rw [ha]
        exact .inl hnode
      · rw [ht, List.getElem?_set_ne hj] at hnode
        exact .inl hnode
  | grants payloads ha ht =>
      rename_i j a
      by_cases hj : j = i
      · subst hj
        rw [getElem?_of_set ha ht, Option.bind_some] at hnode
        rw [ha, Option.bind_some]
        exact (Arena.node?_or_mem_granted hnode).imp_right fun hmem => List.mem_map.mpr ⟨_, hmem, rfl⟩
      · rw [ht, List.getElem?_set_ne hj] at hnode
        exact .inl hnode

theorem Works.nodup (h : s.Works t xs edges) (hroom : t.HasRoom) :
    (xs.map Allocation.place).Nodup := by
  cases h with
  | grants payloads ha ht =>
      rename_i i a
      have hb := getElem?_of_set ha ht
      have hnodup := Arena.nodup_granted (hroom _ (List.mem_of_getElem? hb))
      have hplaces : (a.allocations i payloads).map Allocation.place =
          ((a.granted payloads).map Prod.fst).map (Prod.mk i) := by
        unfold Arena.allocations
        rw [List.map_map, List.map_map]
        rfl
      rw [hplaces]
      exact List.Pairwise.map (Prod.mk i) (fun _ _ hne he => hne (Prod.mk.inj he).2) hnodup
  | _ => exact List.nodup_nil

/-- What several steps allocate led nowhere before them, and leads to its payload after them. -/
theorem mem_allocated (hroom : (s.run steps).1.HasRoom) :
    ∀ x ∈ s.allocated steps,
      s.node? x.arena x.handle = none ∧ (s.run steps).1.node? x.arena x.handle = some x.payload := by
  induction steps generalizing s with
  | nil => intro x hx; cases hx
  | cons step steps ih =>
      intro x hx
      have hlater := extends_run (s.step step).session steps
      rcases List.mem_append.mp hx with hx | hx
      · obtain ⟨hbefore, hafter⟩ := (step_works s step).mem (.of_extends hlater hroom) x hx
        exact ⟨hbefore, hlater.node? hafter⟩
      · obtain ⟨hbefore, hafter⟩ := ih hroom x hx
        exact ⟨(extends_step s step).node?_eq_none hbefore, hafter⟩

/-- What leads to a payload after several steps did so before, or they allocated it. -/
theorem node?_or_mem_allocated {i : Nat} (hi : i < s.arenas.length) {node : Handle} {payload : Payload}
    (hnode : (s.run steps).1.node? i node = some payload) :
    s.node? i node = some payload ∨ ⟨i, node, payload⟩ ∈ s.allocated steps := by
  induction steps generalizing s with
  | nil => exact .inl hnode
  | cons step steps ih =>
      obtain ⟨b, hb, -⟩ := extends_step s step i _ (List.getElem?_eq_getElem hi)
      have hlt : i < (s.step step).session.arenas.length := (List.getElem?_eq_some_iff.mp hb).1
      rcases ih hlt hnode with hnode | hmem
      · exact ((step_works s step).node?_or_mem hi hnode).imp_right (List.mem_append_left _)
      · exact .inr (List.mem_append_right _ hmem)

theorem nodup_allocated (hroom : (s.run steps).1.HasRoom) :
    ((s.allocated steps).map Allocation.place).Nodup := by
  induction steps generalizing s with
  | nil => exact List.nodup_nil
  | cons step steps ih =>
      have hstep : (s.step step).session.HasRoom := .of_extends (extends_run _ steps) hroom
      rw [allocated, List.map_append, List.nodup_append]
      refine ⟨(step_works s step).nodup hstep, ih hroom, ?_⟩
      rintro place hplace other hother rfl
      obtain ⟨x, hx, hxplace⟩ := List.mem_map.mp hplace
      obtain ⟨y, hy, hyplace⟩ := List.mem_map.mp hother
      -- The first leads to a node when the second does not yet.
      have htaken := ((step_works s step).mem hstep x hx).2
      have hvacant := (mem_allocated (s := (s.step step).session) hroom y hy).1
      obtain ⟨harena, hhandle⟩ := Prod.mk.inj (hxplace.trans hyplace.symm)
      rw [← harena, ← hhandle, htaken] at hvacant
      cases hvacant

/-! ### Every arena has grown -/

/-- Every arena of the session has grown from one that was empty or read. -/
def Grown (s : Session) : Prop :=
  ∀ a ∈ s.arenas, ∃ start added, Arena.Fresh start ∧ Arena.Grows start a added

theorem Works.grown (h : s.Works t xs edges) (hs : s.Grown) : t.Grown := by
  intro other hother
  cases h with
  | keeps ht =>
      rw [ht] at hother
      exact hs other hother
  | makes hnew ht =>
      rw [ht] at hother
      rcases List.mem_append.mp hother with hother | hother
      · exact hs other hother
      · obtain rfl := List.mem_singleton.mp hother
        rcases hnew with hfresh | hmem
        · exact ⟨other, [], hfresh, .refl⟩
        · exact hs other hmem
  | links ha hc ht =>
      rw [ht] at hother
      rcases List.mem_or_eq_of_mem_set hother with hother | rfl
      · exact hs other hother
      · obtain ⟨start, added, hstart, hgrows⟩ := hs _ (List.mem_of_getElem? ha)
        exact ⟨start, _, hstart, hgrows.connect hc⟩
  | grants payloads ha ht =>
      rw [ht] at hother
      rcases List.mem_or_eq_of_mem_set hother with hother | rfl
      · exact hs other hother
      · obtain ⟨start, added, hstart, hgrows⟩ := hs _ (List.mem_of_getElem? ha)
        exact ⟨start, added, hstart, hgrows.addNodes payloads⟩

/-- Whatever steps are carried out, every arena has grown. -/
theorem grown_run (declarations : List Declaration) (steps : List Step) :
    (({ declarations } : Session).run steps).1.Grown := by
  have hgeneral : ∀ {s : Session}, s.Grown → (s.run steps).1.Grown := by
    induction steps with
    | nil => exact fun hs => hs
    | cons step steps ih => exact fun hs => ih ((step_works _ step).grown hs)
  refine hgeneral ?_
  intro a ha
  obtain rfl := List.mem_singleton.mp ha
  exact ⟨.empty, [], .new, .refl⟩

end Session
end Dependence
