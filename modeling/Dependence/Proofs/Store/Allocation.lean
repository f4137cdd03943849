import Dependence.Proofs.Arena.Allocation
import Dependence.Session.Operation

/-! # What stores do to arenas

An operation of a store changes its arena only by adding nodes, one for each argument that it records on
its own account (`update_allocates`); any other operation leaves the arena alone (`update_spares`).  The
handles that a store then shows in one of its enumerations are those that it showed before, those that
its caller supplies, and those that the arena grants. -/

namespace Dependence

namespace Store

/-- Whether an operation makes nodes of its own. -/
def Update.allocates : Update → Bool
  | .addFormal _ | .addFormals => true
  | _ => false

/-- The handle that the caller of an operation supplies. -/
def Update.supplied : Update → Option Handle
  | .recordFormal _ node | .recordValue _ node | .listNode node => some node
  | _ => none

/-- All handles that the enumerations of a store show. -/
def enumerated (s : Store) : List Handle :=
  s.listed ++ s.formals.entries.map Prod.snd ++ s.values.entries.map Prod.snd

/-- The arguments that have a node in the second store and none in the first, with their nodes. -/
def gains (s t : Store) : List (Id .argument × Handle) :=
  t.formals.entries.filter fun entry => !s.formals.contains entry.1

/-- The payload of the node of an argument. -/
def formalPayload (s : Store) (entry : Id .argument × Handle) : Payload :=
  .formal s.function entry.1

/-- A new store shows nothing, and its node for the further arguments neither. -/
theorem enumerated_create (a : Arena) (d : Declaration) : (create a d).state.1.enumerated = [] := by
  rw [create_store]
  rfl

theorem create_arena (a : Arena) (d : Declaration) :
    (create a d).state.2 = a.addNodes (if d.isVariadic then [.variadic d.id] else []) := by
  unfold create
  split <;> rfl

/-! ### Operations that make nodes -/

/-- A store after some arguments got new nodes of an arena: what changed, and what the arena granted. -/
structure Allocates (s : Store) (a : Arena) (new : List (Id .argument × Handle))
    (t : Store × Arena) : Prop where
  arena : t.2 = a.addNodes (new.map s.formalPayload)
  granted : a.granted (new.map s.formalPayload) = new.map fun entry => (entry.2, s.formalPayload entry)
  unrecorded : ∀ entry ∈ new, s.formals.contains entry.1 = false
  formals : t.1.formals.entries = s.formals.entries ++ new
  values : t.1.values = s.values
  listed : t.1.listed = s.listed ++ new.map Prod.snd
  declaration : t.1.declaration = s.declaration
  variadicNode : t.1.variadicNode = s.variadicNode

variable {s : Store} {a : Arena} {new : List (Id .argument × Handle)}

/-- One argument gets the next node of the arena, or none. -/
theorem addFormal_allocates (s : Store) (a : Arena) (argument : Id .argument) :
    s.Allocates a (if s.formals.contains argument then [] else [(argument, a.nextHandle)])
      (s.addFormal a argument).state := by
  rw [addFormal_eq]
  cases h : s.formals.contains argument with
  | true =>
      rw [record_of_contains (k := .argument) h]
      exact ⟨rfl, rfl, by simp, by simp, rfl, by simp, rfl, rfl⟩
  | false =>
      rw [record_of_not_contains (k := .argument) h]
      exact ⟨rfl, rfl, by simp [h], Index.entries_record_of_not_contains h _, rfl, rfl, rfl, rfl⟩

theorem Allocates.trans {t : Store} {b : Arena} {more : List (Id .argument × Handle)}
    {u : Store × Arena} (hst : s.Allocates a new (t, b)) (htu : t.Allocates b more u) :
    s.Allocates a (new ++ more) u := by
  have hpayload : t.formalPayload = s.formalPayload := by
    funext entry
    unfold formalPayload function
    rw [show t.declaration = s.declaration from hst.declaration]
  have hb : b = a.addNodes (new.map s.formalPayload) := hst.arena
  have hformals : t.formals.entries = s.formals.entries ++ new := hst.formals
  refine ⟨?_, ?_, ?_, ?_, ?_, ?_, ?_, ?_⟩
  · rw [htu.arena, hpayload, hb, List.map_append, Arena.addNodes_append]
  · have hmore := htu.granted
    rw [hpayload, hb] at hmore
    rw [List.map_append, Arena.granted_append, hst.granted, hmore, List.map_append]
  · intro entry hmem
    rcases List.mem_append.mp hmem with hmem | hmem
    · exact hst.unrecorded entry hmem
    · have hnone := htu.unrecorded entry hmem
      unfold Index.contains Index.find? at hnone ⊢
      rw [hformals, List.find?_append, Option.isSome_map, Option.isSome_or, Bool.or_eq_false_iff] at hnone
      rw [Option.isSome_map]
      exact hnone.1
  · rw [htu.formals, hformals, List.append_assoc]
  · exact htu.values.trans hst.values
  · rw [htu.listed, show t.listed = _ from hst.listed, List.append_assoc, List.map_append]
  · exact htu.declaration.trans hst.declaration
  · exact htu.variadicNode.trans hst.variadicNode

/-- Several arguments get nodes of the arena one after the other. -/
theorem addEach_allocates (s : Store) (a : Arena) (arguments : List (Id .argument)) :
    ∃ new, s.Allocates a new (s.addEach a arguments).state := by
  induction arguments generalizing s a with
  | nil =>
      refine ⟨[], rfl, rfl, ?_, (List.append_nil _).symm, rfl, (List.append_nil _).symm, rfl, rfl⟩
      intro entry hmem
      cases hmem
  | cons argument rest ih =>
      obtain ⟨more, hmore⟩ := ih (s.addFormal a argument).state.1 (s.addFormal a argument).state.2
      exact ⟨_, (addFormal_allocates s a argument).trans hmore⟩

/-- An operation that makes nodes makes them for the arguments that it records. -/
theorem update_allocates (s : Store) (a : Arena) {u : Update} (hu : u.allocates = true) :
    ∃ new, s.Allocates a new (s.update a u).state := by
  cases u with
  | addFormal argument => exact ⟨_, addFormal_allocates s a argument⟩
  | addFormals => exact addEach_allocates s a s.declaration.params
  | _ => cases hu

/-- The arguments that got new nodes are those that have nodes only now. -/
theorem Allocates.gains_eq {t : Store × Arena} (h : s.Allocates a new t) : s.gains t.1 = new := by
  unfold gains
  rw [h.formals, List.filter_append, List.filter_eq_nil_iff.mpr, List.filter_eq_self.mpr, List.nil_append]
  · intro entry hmem
    rw [h.unrecorded entry hmem, Bool.not_false]
  · intro entry hmem
    rw [Index.contains_of_mem hmem]
    decide

/-- The store shows no further handles than those that the arena granted. -/
theorem Allocates.mem_enumerated {t : Store × Arena} (h : s.Allocates a new t) {node : Handle}
    (hmem : node ∈ t.1.enumerated) :
    node ∈ s.enumerated ∨ ∃ entry ∈ a.granted (new.map s.formalPayload), entry.1 = node := by
  have hgranted : (∃ entry ∈ a.granted (new.map s.formalPayload), entry.1 = node) ↔
      node ∈ new.map Prod.snd := by
    rw [h.granted, ← List.mem_map, List.map_map]
    rfl
  rw [hgranted]
  unfold enumerated at hmem ⊢
  rw [h.listed, h.formals, h.values, List.map_append] at hmem
  simp only [List.mem_append] at hmem ⊢
  grind

/-! ### Operations that make none -/

/-- A store after an operation that makes no node: it shows at most one more handle, which it was
given. -/
structure Spares (s : Store) (a : Arena) (u : Update) (t : Store × Arena) : Prop where
  arena : t.2 = a
  enumerated : ∀ node ∈ t.1.enumerated, node ∈ s.enumerated ∨ u.supplied = some node
  declaration : t.1.declaration = s.declaration
  variadicNode : t.1.variadicNode = s.variadicNode

theorem mem_snd_record {key : Entity} {x : Index key} {k : Id key} {node other : Handle}
    (h : other ∈ (x.record k node).entries.map Prod.snd) :
    other ∈ x.entries.map Prod.snd ∨ node = other := by
  unfold Index.record at h
  split at h
  · exact .inl h
  · rw [List.map_append, List.mem_append] at h
    exact h.imp_right fun h => (List.mem_singleton.mp h).symm

/-- A recording makes the store show at most the node that it is given. -/
theorem record_spares {key : Entity} (k : Indexed key) (x : Id key) {u : Update} {node : Handle}
    (hu : u.supplied = some node) : s.Spares a u ((s.record k x node).state, a) := by
  rw [record_state]
  refine ⟨rfl, ?_, by cases k <;> rfl, by cases k <;> rfl⟩
  intro other hmem
  have hrecord := @mem_snd_record _ (s.index k) x node other
  rw [hu, Option.some.injEq]
  cases k <;>
    simp only [enumerated, withIndex, index, List.mem_append] at hmem hrecord ⊢ <;>
    grind

/-- Any other operation leaves the arena alone. -/
theorem update_spares (s : Store) (a : Arena) {u : Update} (hu : u.allocates = false) :
    s.Spares a u (s.update a u).state := by
  cases u with
  | setBuilt built =>
      simp only [update, setBuilt, Change.lift]
      split <;> exact ⟨rfl, fun node h => .inl h, rfl, rfl⟩
  | recordFormal argument node => exact record_spares .argument argument rfl
  | recordValue value node => exact record_spares .value value rfl
  | listNode node =>
      refine ⟨rfl, ?_, rfl, rfl⟩
      intro other hmem
      simp only [update, listNode, Change.lift, enumerated, List.mem_append, List.mem_singleton] at hmem ⊢
      simp only [Update.supplied, Option.some.injEq]
      grind
  | addCall call => exact ⟨rfl, fun node h => .inl h, rfl, rfl⟩
  | _ => cases hu

/-! ### All operations -/

/-- Whatever an operation does to its arena, it is to add nodes. -/
theorem update_arena (s : Store) (a : Arena) (u : Update) :
    ∃ payloads, (s.update a u).state.2 = a.addNodes payloads := by
  cases hu : u.allocates with
  | true =>
      obtain ⟨new, hnew⟩ := update_allocates s a hu
      exact ⟨_, hnew.arena⟩
  | false => exact ⟨[], (update_spares s a hu).arena⟩

theorem update_declaration (s : Store) (a : Arena) (u : Update) :
    (s.update a u).state.1.declaration = s.declaration := by
  cases hu : u.allocates with
  | true =>
      obtain ⟨new, hnew⟩ := update_allocates s a hu
      exact hnew.declaration
  | false => exact (update_spares s a hu).declaration

theorem update_variadicNode (s : Store) (a : Arena) (u : Update) :
    (s.update a u).state.1.variadicNode = s.variadicNode := by
  cases hu : u.allocates with
  | true =>
      obtain ⟨new, hnew⟩ := update_allocates s a hu
      exact hnew.variadicNode
  | false => exact (update_spares s a hu).variadicNode

/-- A handle that an operation makes a store show was supplied, or it led nowhere before. -/
theorem mem_enumerated_update {u : Update} (hroom : (s.update a u).state.2.HasRoom) {node : Handle}
    (hmem : node ∈ (s.update a u).state.1.enumerated) :
    node ∈ s.enumerated ∨ u.supplied = some node ∨ a.node? node = none := by
  cases hu : u.allocates with
  | true =>
      obtain ⟨new, hnew⟩ := update_allocates s a hu
      rw [hnew.arena] at hroom
      rcases hnew.mem_enumerated hmem with hmem | ⟨entry, hentry, rfl⟩
      · exact .inl hmem
      · exact .inr (.inr (Arena.mem_granted hroom entry hentry).1)
  | false =>
      rcases (update_spares s a hu).enumerated node hmem with hmem | hsupplied
      · exact .inl hmem
      · exact .inr (.inl hsupplied)

end Store
end Dependence
