import Dependence.Arena
import Dependence.Proofs.Slots.Vacancies

/-! # Allocation

`Arena.Extends a b` says that every handle that leads to a node of `a` leads to the same node of `b`, and
that `b` has no fewer slots.  Every operation on an arena extends it.

New nodes are granted handles one after the other (`Arena.granted`).  As long as a word can count the
slots (`Arena.HasRoom`) a granted handle led nowhere before, so that all of them differ, and from then on
it leads to its node (`mem_granted`, `nodup_granted`).  Both hold for slots that were vacant as for new
slots at the end. -/

namespace Dependence
namespace Arena

/-- What was found in the first arena is found in the second. -/
structure Extends (a b : Arena) : Prop where
  node? : ∀ {h : Handle} {payload : Payload}, a.node? h = some payload → b.node? h = some payload
  length_le : a.nodes.cells.length ≤ b.nodes.cells.length

/-- All slots of the arena can be named by handles.  Beyond that no node is added; the program gives up. -/
def HasRoom (a : Arena) : Prop := a.nodes.cells.length ≤ UInt32.size

/-- The arena with several more nodes. -/
def addNodes (a : Arena) (payloads : List Payload) : Arena := payloads.foldl addNode a

/-- The handles that several new nodes get one after the other, each with its payload. -/
def granted (a : Arena) : List Payload → List (Handle × Payload)
  | [] => []
  | payload :: rest => (a.nextHandle, payload) :: (a.addNode payload).granted rest

theorem Extends.refl (a : Arena) : a.Extends a := ⟨fun h => h, Nat.le_refl _⟩

theorem Extends.trans {a b c : Arena} (hab : a.Extends b) (hbc : b.Extends c) : a.Extends c :=
  ⟨fun h => hbc.node? (hab.node? h), Nat.le_trans hab.length_le hbc.length_le⟩

theorem HasRoom.of_extends {a b : Arena} (hab : a.Extends b) (h : b.HasRoom) : a.HasRoom :=
  Nat.le_trans hab.length_le h

/-- A handle that leads nowhere later led nowhere before. -/
theorem Extends.node?_eq_none {a b : Arena} (hab : a.Extends b) {h : Handle}
    (hb : b.node? h = none) : a.node? h = none := by
  cases ha : a.node? h with
  | none => rfl
  | some payload => rw [hab.node? ha] at hb; cases hb

/-! ### One edge -/

/-- An edge is linked between nodes that are there, and only then. -/
theorem connect_eq_ok {a b : Arena} {edge : Edge} :
    a.connect edge = .ok b ↔
      a.contains edge.source = true ∧ a.contains edge.target = true ∧ b = a.link edge := by
  unfold connect
  cases hs : a.contains edge.source <;> cases ht : a.contains edge.target <;> simp [eq_comm]

theorem extends_link (a : Arena) (edge : Edge) : a.Extends (a.link edge) :=
  ⟨fun h => h, Nat.le_refl _⟩

/-! ### One node -/

theorem node?_addNode (a : Arena) (payload : Payload) (h : Handle) :
    (a.addNode payload).node? h = if h.index = a.nodes.next then some payload else a.node? h :=
  Slots.get?_insert ..

theorem extends_addNode (a : Arena) (payload : Payload) : a.Extends (a.addNode payload) := by
  refine ⟨?_, Slots.length_le_length_insert ..⟩
  intro h old hold
  have hne : h.index ≠ a.nodes.next := by
    intro he
    unfold node? at hold
    rw [he, Slots.get?_next] at hold
    cases hold
  rw [node?_addNode, if_neg hne, hold]

theorem index_nextHandle {a : Arena} {payload : Payload} (h : (a.addNode payload).HasRoom) :
    a.nextHandle.index = a.nodes.next :=
  Id.index_ofIndex_of_lt (Nat.lt_of_lt_of_le (Slots.next_lt_length_insert ..) h)

/-- The handle of a new node led nowhere before. -/
theorem node?_nextHandle {a : Arena} {payload : Payload} (h : (a.addNode payload).HasRoom) :
    a.node? a.nextHandle = none := by
  unfold node?
  rw [index_nextHandle h, Slots.get?_next]

/-- From now on the handle of a new node leads to it. -/
theorem node?_addNode_nextHandle {a : Arena} {payload : Payload}
    (h : (a.addNode payload).HasRoom) : (a.addNode payload).node? a.nextHandle = some payload := by
  rw [node?_addNode, if_pos (index_nextHandle h)]

/-! ### Several nodes -/

theorem addNodes_append (a : Arena) (payloads more : List Payload) :
    a.addNodes (payloads ++ more) = (a.addNodes payloads).addNodes more :=
  List.foldl_append

/-- Adding nodes places their payloads in the slots, and leaves the edges alone. -/
theorem addNodes_eq (a : Arena) (payloads : List Payload) :
    a.addNodes payloads = { a with nodes := a.nodes.insertAll payloads } := by
  induction payloads generalizing a with
  | nil => rfl
  | cons payload rest ih => exact ih (a.addNode payload)

theorem nodes_addNodes (a : Arena) (payloads : List Payload) :
    (a.addNodes payloads).nodes = a.nodes.insertAll payloads := by
  rw [addNodes_eq]

theorem granted_append (a : Arena) (payloads more : List Payload) :
    a.granted (payloads ++ more) = a.granted payloads ++ (a.addNodes payloads).granted more := by
  induction payloads generalizing a with
  | nil => rfl
  | cons payload rest ih =>
      rw [List.cons_append, granted, granted, ih, List.cons_append]
      rfl

/-- The handles that so many new nodes would get one after the other. -/
def handles (a : Arena) (n : Nat) : List Handle :=
  (List.range n).map fun k => .ofIndex (a.nodes.upcoming k)

theorem handles_one (a : Arena) : a.handles 1 = [a.nextHandle] := by
  unfold handles nextHandle
  rw [← Slots.upcoming_zero]
  rfl

theorem handles_add (a : Arena) (payloads : List Payload) (n : Nat) :
    a.handles (payloads.length + n) = a.handles payloads.length ++ (a.addNodes payloads).handles n := by
  unfold handles
  rw [List.range_add, List.map_append, List.map_map, nodes_addNodes]
  simp only [Slots.upcoming_insertAll]
  rfl

@[simp] theorem length_handles (a : Arena) (n : Nat) : (a.handles n).length = n := by
  simp [handles]

/-- The handles granted do not depend on what the nodes are. -/
theorem granted_eq_zip (a : Arena) (payloads : List Payload) :
    a.granted payloads = (a.handles payloads.length).zip payloads := by
  induction payloads generalizing a with
  | nil => rfl
  | cons payload rest ih =>
      rw [granted, ih, List.length_cons, Nat.add_comm, show 1 = [payload].length from rfl, handles_add,
        List.length_singleton, handles_one]
      rfl

theorem map_fst_granted (a : Arena) (payloads : List Payload) :
    (a.granted payloads).map Prod.fst = a.handles payloads.length := by
  rw [granted_eq_zip, List.map_fst_zip (by simp)]

theorem map_snd_granted (a : Arena) (payloads : List Payload) : (a.granted payloads).map Prod.snd = payloads := by
  rw [granted_eq_zip, List.map_snd_zip (by simp)]

theorem extends_addNodes (a : Arena) (payloads : List Payload) : a.Extends (a.addNodes payloads) := by
  induction payloads generalizing a with
  | nil => exact .refl a
  | cons payload rest ih => exact (extends_addNode a payload).trans (ih _)

/-- A granted handle led nowhere before, and leads to its node afterwards. -/
theorem mem_granted {a : Arena} {payloads : List Payload} (hroom : (a.addNodes payloads).HasRoom) :
    ∀ entry ∈ a.granted payloads,
      a.node? entry.1 = none ∧ (a.addNodes payloads).node? entry.1 = some entry.2 := by
  induction payloads generalizing a with
  | nil => intro entry hmem; simp [granted] at hmem
  | cons payload rest ih =>
      intro entry hmem
      have hext := extends_addNodes (a.addNode payload) rest
      have hone : (a.addNode payload).HasRoom := .of_extends hext hroom
      rcases List.mem_cons.mp hmem with rfl | hmem
      · exact ⟨node?_nextHandle hone, hext.node? (node?_addNode_nextHandle hone)⟩
      · obtain ⟨hbefore, hafter⟩ := ih hroom entry hmem
        exact ⟨(extends_addNode a payload).node?_eq_none hbefore, hafter⟩

/-- A handle leads to a node afterwards only if it did before or was granted. -/
theorem node?_or_mem_granted {a : Arena} {payloads : List Payload} {h : Handle} {payload : Payload}
    (hp : (a.addNodes payloads).node? h = some payload) :
    a.node? h = some payload ∨ (h, payload) ∈ a.granted payloads := by
  induction payloads generalizing a with
  | nil => exact .inl hp
  | cons first rest ih =>
      rcases ih hp with hp | hmem
      · rw [node?_addNode] at hp
        split at hp
        · rename_i hnext
          have hh : h = a.nextHandle := by
            unfold nextHandle
            rw [← hnext, Id.ofIndex_index]
          obtain rfl := Option.some.inj hp
          exact .inr (hh ▸ List.mem_cons_self)
        · exact .inl hp
      · exact .inr (List.mem_cons_of_mem _ hmem)

theorem node?_addNodes_eq_some {a : Arena} {payloads : List Payload} (hroom : (a.addNodes payloads).HasRoom)
    {h : Handle} {payload : Payload} :
    (a.addNodes payloads).node? h = some payload ↔
      a.node? h = some payload ∨ (h, payload) ∈ a.granted payloads := by
  constructor
  · exact node?_or_mem_granted
  · rintro (hold | hnew)
    · exact (extends_addNodes a payloads).node? hold
    · exact (mem_granted hroom _ hnew).2

/-- Granted handles differ from each other. -/
theorem nodup_granted {a : Arena} {payloads : List Payload}
    (hroom : (a.addNodes payloads).HasRoom) : ((a.granted payloads).map Prod.fst).Nodup := by
  induction payloads generalizing a with
  | nil => exact List.nodup_nil
  | cons payload rest ih =>
      have hext := extends_addNodes (a.addNode payload) rest
      have hone : (a.addNode payload).HasRoom := .of_extends hext hroom
      rw [granted, List.map_cons, List.nodup_cons]
      refine ⟨?_, ih hroom⟩
      intro hmem
      obtain ⟨entry, hentry, he⟩ := List.mem_map.mp hmem
      have hnone := (mem_granted (a := a.addNode payload) hroom entry hentry).1
      rw [he, node?_addNode_nextHandle hone] at hnone
      cases hnone

end Arena
end Dependence
