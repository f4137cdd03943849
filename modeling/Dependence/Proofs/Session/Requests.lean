import Dependence.Proofs.Session.Allocation
import Dependence.Proofs.Store.Parameters

/-! # What a session is asked for

What a step allocates and links is read off its answer (`Session.allocations`, `Session.links`).  What it is
asked for is known before it is carried out: a node for its caller, one for the further arguments of a
variadic function, one for each argument that has none, or an edge between two nodes that are there
(`Session.requests`, `Session.joins`).  Both are the same, for every step (`map_request_allocations`, `links_eq_joins`) and
every run (`map_request_allocated`, `linked_eq_joined`): what is asked for is never refused or forgotten, and nothing else is
made. -/

namespace Dependence

namespace Store

variable (s : Store) (a : Arena)

/-- The arguments that gain a node in a bulk insertion are those that lack one. -/
theorem gains_addEach (arguments : List (Id .argument)) :
    s.gains (s.addEach a arguments).state.1 = s.gained a arguments := by
  obtain ⟨new, hnew⟩ := addEach_allocates s a arguments
  have hentries : s.formals.entries ++ new = s.formals.entries ++ s.gained a arguments := by
    rw [← hnew.formals, addEach_store]
    rfl
  rw [hnew.gains_eq]
  exact List.append_cancel_left hentries

/-- An operation that makes nodes makes those that it wants. -/
theorem payloads_gains {u : Update} (hu : u.allocates = true) :
    (s.gains (s.update a u).state.1).map s.formalPayload = s.wanted (.update u) := by
  have heach : ∀ arguments, (s.gains (s.addEach a arguments).state.1).map s.formalPayload =
      s.wantedFor arguments := by
    intro arguments
    rw [gains_addEach, wantedFor_eq, ← map_fst_gained s a, List.map_map]
    rfl
  cases u with
  | addFormal argument => exact heach [argument]
  | addFormals => exact heach s.declaration.params
  | _ => cases hu

end Store

/-- What an allocation is for, with the position of the arena. -/
def Allocation.request (x : Allocation) : Nat × Payload := (x.arena, x.payload)

namespace Session

/-- Nodes that are asked for in an arena, if the arena is there. -/
def askedOf (s : Session) (i : Nat) (payloads : List Payload) : List (Nat × Payload) :=
  if i < s.arenas.length then payloads.map (Prod.mk i) else []

/-- The nodes that a step asks for, each with the position of the arena. -/
def requests (s : Session) : Step → List (Nat × Payload)
  | .updateArena i (.addNode payload) => s.askedOf i [payload]
  | .newStore d i =>
      match s.declarations[d]? with
      | some declaration => s.askedOf i (if declaration.isVariadic then [.variadic declaration.id] else [])
      | none => []
  | .updateStore j i update =>
      match s.stores[j]? with
      | some store => s.askedOf i (store.wanted (.update update))
      | none => []
  | _ => []

/-- The nodes that several steps ask for. -/
def requested (s : Session) : List Step → List (Nat × Payload)
  | [] => []
  | step :: steps => s.requests step ++ (s.step step).session.requested steps

/-- The edge that a step asks for, with the position of its arena, if both ends are there. -/
def joins (s : Session) : Step → List (Nat × Edge)
  | .updateArena i (.connect edge) =>
      if (s.node? i edge.source).isSome ∧ (s.node? i edge.target).isSome then [(i, edge)] else []
  | _ => []

/-- The edges that several steps ask for, if both ends are there. -/
def joined (s : Session) : List Step → List (Nat × Edge)
  | [] => []
  | step :: steps => s.joins step ++ (s.step step).session.joined steps

variable (s : Session)

theorem askedOf_of_some {i : Nat} {a : Arena} (ha : s.arenas[i]? = some a) (payloads : List Payload) :
    s.askedOf i payloads = payloads.map (Prod.mk i) :=
  if_pos (List.getElem?_eq_some_iff.mp ha).1

theorem askedOf_of_none {i : Nat} (ha : s.arenas[i]? = none) (payloads : List Payload) :
    s.askedOf i payloads = [] :=
  if_neg (Nat.not_lt_of_le (List.getElem?_eq_none_iff.mp ha))

/-! ### One step -/

theorem map_request_newStore (d i : Nat) :
    (s.allocations (.newStore d i)).map Allocation.request = s.requests (.newStore d i) := by
  cases hd : s.declarations[d]? with
  | none => simp [allocations, requests, step, hd, say]
  | some declaration =>
      cases ha : s.arenas[i]? with
      | none => simp [allocations, requests, step, hd, ha, say, s.askedOf_of_none ha]
      | some a =>
          simp only [allocations, requests, step, hd, ha, List.getElem?_concat_length, s.askedOf_of_some ha,
            Store.create_store]
          cases declaration.isVariadic <;> rfl

theorem map_request_updateStore (j i : Nat) (update : Store.Update) :
    (s.allocations (.updateStore j i update)).map Allocation.request = s.requests (.updateStore j i update) := by
  cases hs : s.stores[j]? with
  | none => simp [allocations, requests, step, hs, say]
  | some store =>
      cases ha : s.arenas[i]? with
      | none => simp [allocations, requests, step, hs, ha, say, s.askedOf_of_none ha]
      | some a =>
          have hj : j < s.stores.length := (List.getElem?_eq_some_iff.mp hs).1
          simp only [allocations, requests, step, hs, ha, List.getElem?_set_self hj, s.askedOf_of_some ha]
          cases hu : update.allocates with
          | true =>
              rw [if_pos rfl, ← store.payloads_gains a hu, List.map_map, List.map_map]
              rfl
          | false =>
              rw [if_neg Bool.false_ne_true, store.wanted_of_not_allocates hu]
              rfl

/-- A step allocates what it is asked for. -/
theorem map_request_allocations (step : Step) : (s.allocations step).map Allocation.request = s.requests step := by
  cases step with
  | updateArena i update =>
      cases update with
      | connect edge => rfl
      | addNode payload =>
          cases ha : s.arenas[i]? with
          | none => simp [allocations, requests, step, ha, say, s.askedOf_of_none ha]
          | some a =>
              simp only [allocations, requests, step, ha, Arena.update, s.askedOf_of_some ha]
              rfl
  | newStore d i => exact s.map_request_newStore d i
  | updateStore j i update => exact s.map_request_updateStore j i update
  | _ => rfl

/-- A step links the edge that it is asked for, if both ends are there. -/
theorem links_eq_joins (step : Step) : s.links step = s.joins step := by
  cases step with
  | updateArena i update =>
      cases update with
      | addNode payload => rfl
      | connect edge =>
          cases ha : s.arenas[i]? with
          | none => simp [links, joins, step, ha, say, node?]
          | some a =>
              simp only [links, joins, step, ha, Arena.update, node?, Option.bind_some]
              unfold Arena.connect Arena.contains
              cases a.node? edge.source <;> cases a.node? edge.target <;> rfl
  | _ => rfl

/-! ### All steps -/

/-- Steps allocate what they are asked for, in the order in which they are. -/
theorem map_request_allocated (steps : List Step) : (s.allocated steps).map Allocation.request = s.requested steps := by
  induction steps generalizing s with
  | nil => rfl
  | cons step steps ih => rw [allocated, requested, List.map_append, map_request_allocations, ih]

theorem linked_eq_joined (steps : List Step) : s.linked steps = s.joined steps := by
  induction steps generalizing s with
  | nil => rfl
  | cons step steps ih => rw [linked, joined, links_eq_joins, ih]

end Session
end Dependence
