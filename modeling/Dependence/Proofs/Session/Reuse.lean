import Dependence.Proofs.Arena.NormalForm
import Dependence.Proofs.Session.Requests

/-! # Vacant slots are used last first

The slots that an arena has left vacant are used before it grows, the last one first, and each only once.
So when an arena has been read from a blueprint, the blueprint tells which slot every later node and every
later edge will take (`Blueprint.nodeSlot`, `Blueprint.edgeSlot`), whatever else a session does in between.

The invariant is `Arena.Draws`: the slots of an arena are those it began with, with the payloads of all nodes
allocated since and all edges linked since placed one after the other.  Every step keeps it (`Works.draws`),
and everything else is read off the slots (`Arena.Loads.reuses`).  How many nodes and edges these are is told
by what the steps ask for (`Session.map_request_allocated`, `Session.linked_eq_joined`). -/

namespace Dependence

/-! ### Slots that a blueprint leaves vacant -/

namespace Blueprint

/-- The slot of the node that is allocated when so many others have been. -/
def nodeSlot (b : Blueprint) (k : Nat) : Nat :=
  (b.holes.reverse[k]?.map Id.index).getD (b.bound + (k - b.holes.length))

/-- The slots of edges that are vacant, in ascending order. -/
def vacantEdges (b : Blueprint) : List Nat := (Slots.mk b.edges).vacancies

/-- The slot of the edge that is linked when so many others have been. -/
def edgeSlot (b : Blueprint) (k : Nat) : Nat :=
  b.vacantEdges.reverse[k]?.getD (b.edges.length + (k - b.vacantEdges.length))

variable {b : Blueprint} {a : Arena}

theorem upcoming_nodes (hb : b.build = .ok a) (k : Nat) : a.nodes.upcoming k = b.nodeSlot k := by
  obtain ⟨hpresent, hvacant, -⟩ := slots_of_build hb
  have hlength : a.nodes.cells.length = b.bound := by
    have hcells := Slots.length_vacantFrom 0 a.nodes.cells
    rw [show a.nodes.cells.filterMap id = b.nodes from hpresent,
      show Slots.vacantFrom 0 a.nodes.cells = _ from hvacant, List.length_map] at hcells
    exact hcells.symm
  unfold Slots.upcoming nodeSlot
  rw [hvacant, hlength, ← List.map_reverse, List.getElem?_map, List.length_map]

theorem upcoming_edges (hb : b.build = .ok a) (k : Nat) : a.edges.upcoming k = b.edgeSlot k := by
  obtain ⟨-, -, hedges⟩ := slots_of_build hb
  rw [hedges]
  rfl

end Blueprint

/-! ### Drawing slots -/

namespace Arena

/-- What the snapshot of an arena shows as the slots that are filled next. -/
def ShowsFree (a : Arena) (node edge : Nat) : Prop :=
  ∃ parts, a.snapshot =
    .record "DependenceGraph"
      [("graph", .record "StableGraph"
        (parts ++ [("free_node", .wrapped "NodeIndex" node), ("free_edge", .wrapped "EdgeIndex" edge)]))]

/-- How an arena comes from another one by certain allocations and by linking certain edges. -/
structure Draws (start a : Arena) (xs : List Allocation) (linked : List Edge) : Prop where
  nodes : a.nodes = start.nodes.insertAll (xs.map Allocation.payload)
  edges : a.edges = start.edges.insertAll linked
  handle : ∀ (k : Nat) (x : Allocation), xs[k]? = some x → x.handle = .ofIndex (start.nodes.upcoming k)
  grows : Grows start a linked

variable {start a : Arena} {xs : List Allocation} {linked : List Edge}

theorem payloads_allocations (a : Arena) (i : Nat) (payloads : List Payload) :
    (a.allocations i payloads).map Allocation.payload = payloads := by
  unfold allocations
  rw [List.map_map]
  exact a.map_snd_granted payloads

/-- Allocations that are made at once are all made in one arena. -/
theorem filter_allocations (a : Arena) (j i : Nat) (payloads : List Payload) :
    (a.allocations j payloads).filter (fun x => x.arena = i) =
      if j = i then a.allocations j payloads else [] := by
  have harena : ∀ x ∈ a.allocations j payloads, x.arena = j := by
    intro x hx
    obtain ⟨entry, -, rfl⟩ := List.mem_map.mp hx
    rfl
  by_cases hj : j = i
  · rw [if_pos hj, List.filter_eq_self]
    exact fun x hx => decide_eq_true ((harena x hx).trans hj)
  · rw [if_neg hj, List.filter_eq_nil_iff]
    exact fun x hx he => hj ((harena x hx).symm.trans (of_decide_eq_true he))

/-- The handles granted are those of the upcoming slots. -/
theorem handle_allocations {i k : Nat} {payloads : List Payload} {x : Allocation}
    (h : (a.allocations i payloads)[k]? = some x) : x.handle = .ofIndex (a.nodes.upcoming k) := by
  unfold allocations at h
  induction payloads generalizing a k with
  | nil => cases h
  | cons payload rest ih =>
      cases k with
      | zero =>
          obtain rfl := Option.some.inj h
          rw [Slots.upcoming_zero]
          rfl
      | succ k =>
          have hrest := ih (a := a.addNode payload) h
          rw [hrest]
          exact congrArg Id.ofIndex (Slots.upcoming_insert ..)

theorem Draws.refl (a : Arena) : a.Draws a [] [] where
  nodes := rfl
  edges := rfl
  handle := by
    intro k x hx
    cases hx
  grows := .refl

theorem Draws.addNodes (h : start.Draws a xs linked) (i : Nat) (payloads : List Payload) :
    start.Draws (a.addNodes payloads) (xs ++ a.allocations i payloads) linked := by
  refine ⟨?_, ?_, ?_, h.grows.addNodes payloads⟩
  · rw [nodes_addNodes, h.nodes, List.map_append, payloads_allocations, Slots.insertAll_append]
  · rw [addNodes_eq, h.edges]
  · intro k x hx
    by_cases hk : k < xs.length
    · rw [List.getElem?_append_left hk] at hx
      exact h.handle k x hx
    · rw [List.getElem?_append_right (Nat.le_of_not_lt hk)] at hx
      rw [handle_allocations hx, h.nodes, Slots.upcoming_insertAll, List.length_map]
      congr 2
      omega

theorem Draws.connect {b : Arena} {edge : Edge} (h : start.Draws a xs linked)
    (hconnect : a.connect edge = .ok b) : start.Draws b xs (linked ++ [edge]) := by
  obtain ⟨-, -, rfl⟩ := connect_eq_ok.mp hconnect
  refine ⟨h.nodes, ?_, h.handle, h.grows.connect hconnect⟩
  rw [Slots.insertAll_append, ← h.edges]
  rfl

end Arena

namespace Session

/-- The handles that several steps return for new nodes of one arena. -/
def allocatedIn (s : Session) (i : Nat) (steps : List Step) : List Allocation :=
  (s.allocated steps).filter fun x => x.arena = i

/-- The edges that several steps link in one arena. -/
def linkedIn (s : Session) (i : Nat) (steps : List Step) : List Edge :=
  ((s.linked steps).filter fun entry => entry.1 = i).map Prod.snd

variable {s t : Session} {i : Nat} {start a : Arena} {steps : List Step}

/-- Every step keeps what an arena was drawn from. -/
theorem Works.draws {xs ys : List Allocation} {linked : List Edge} {edges : List (Nat × Edge)}
    (h : s.Works t ys edges) (ha : s.arenas[i]? = some a) (hdraws : start.Draws a xs linked) :
    ∃ b, t.arenas[i]? = some b ∧
      start.Draws b (xs ++ ys.filter fun x => x.arena = i)
        (linked ++ (edges.filter fun entry => entry.1 = i).map Prod.snd) := by
  have hsame : ∀ {b : Arena}, t.arenas[i]? = some b → start.Draws b xs linked →
      ∃ b, t.arenas[i]? = some b ∧ start.Draws b (xs ++ []) (linked ++ []) := by
    intro b hb hd
    refine ⟨b, hb, ?_⟩
    rwa [List.append_nil, List.append_nil]
  cases h with
  | keeps ht => exact hsame (ht ▸ ha) hdraws
  | makes _ ht =>
      refine hsame ?_ hdraws
      rw [ht, List.getElem?_append_left (List.getElem?_eq_some_iff.mp ha).1, ha]
  | @links j a' b edge ha' hc ht =>
      by_cases hj : j = i
      · subst hj
        obtain rfl := Option.some.inj (ha'.symm.trans ha)
        refine ⟨b, getElem?_of_set ha' ht, ?_⟩
        simpa using hdraws.connect hc
      · have hb : t.arenas[i]? = some a := by rw [ht, List.getElem?_set_ne hj, ha]
        simpa [hj] using hsame hb hdraws
  | @grants j a' payloads ha' ht =>
      by_cases hj : j = i
      · subst hj
        obtain rfl := Option.some.inj (ha'.symm.trans ha)
        refine ⟨_, getElem?_of_set ha' ht, ?_⟩
        rw [Arena.filter_allocations, if_pos rfl]
        simpa using hdraws.addNodes j payloads
      · have hb : t.arenas[i]? = some a := by rw [ht, List.getElem?_set_ne hj, ha]
        rw [Arena.filter_allocations, if_neg hj]
        exact hsame hb hdraws

theorem draws_run {xs : List Allocation} {linked : List Edge} (steps : List Step)
    (ha : s.arenas[i]? = some a) (hdraws : start.Draws a xs linked) :
    ∃ b, (s.run steps).1.arenas[i]? = some b ∧
      start.Draws b (xs ++ s.allocatedIn i steps) (linked ++ s.linkedIn i steps) := by
  induction steps generalizing s a xs linked with
  | nil => exact ⟨a, ha, by simpa [allocatedIn, linkedIn, allocated, Session.linked] using hdraws⟩
  | cons step steps ih =>
      obtain ⟨b, hb, hstep⟩ := (step_works s step).draws ha hdraws
      obtain ⟨c, hc, hrun⟩ := ih hb hstep
      refine ⟨c, hc, ?_⟩
      simpa [allocatedIn, linkedIn, allocated, Session.linked] using hrun

end Session

/-! ### Reuse -/

namespace Arena

theorem showsFree (a : Arena) : a.ShowsFree a.nodes.vacancyWord a.edges.vacancyWord := by
  have hfour : ∀ (front : List (String × Snapshot)) (w x y z : String × Snapshot),
      front ++ [w, x, y, z] = (front ++ [w, x]) ++ [y, z] := by simp
  unfold ShowsFree snapshot
  dsimp only
  rw [hfour]
  exact ⟨_, rfl⟩

/-- An edge that is linked comes first in the listings of its ends, whichever slot it takes. -/
theorem Grows.listings_connect {start a b : Arena} {linked : List Edge} {edge : Edge} (hstart : Fresh start)
    (h : Grows start a linked) (hconnect : a.connect edge = .ok b) :
    b.dependents edge.source = (edge.target, edge.kind) :: a.dependents edge.source ∧
      b.dependencies edge.target = (edge.source, edge.kind) :: a.dependencies edge.target := by
  obtain ⟨log, hlog, -⟩ := h.exists_logged hstart
  obtain ⟨hsource, htarget, rfl⟩ := connect_eq_ok.mp hconnect
  have hlog' := hlog.link edge
  unfold dependents dependencies
  constructor
  · rw [hlog.chained_eq hlog.outgoing hsource, hlog'.chained_eq hlog'.outgoing hsource]
    simp
  · rw [hlog.chained_eq hlog.incoming htarget, hlog'.chained_eq hlog'.incoming htarget]
    simp

theorem getElem?_edges_blueprint {a : Arena} {k : Nat} {edge : Edge} :
    a.blueprint.edges[k]? = some (some edge) ↔ a.edges.get? k = some edge := by
  rw [← Slots.get?_trimmed]
  exact Option.join_eq_some_iff.symm

end Arena

/-- What has become of an arena that was read from a blueprint, after certain allocations and links. -/
structure Blueprint.Reuses (b : Blueprint) (start a : Arena) (xs : List Allocation) (linked : List Edge) :
    Prop where
  /-- So what comes last among the vacant slots is the largest. -/
  ascends : (b.holes.map Id.index).Pairwise (· < ·) ∧ b.vacantEdges.Pairwise (· < ·)
  handle : ∀ (k : Nat) (x : Allocation), xs[k]? = some x → x.handle = .ofIndex (b.nodeSlot k)
  nextHandle : a.nextHandle = .ofIndex (b.nodeSlot xs.length)
  edge : ∀ (k : Nat) (edge : Edge), linked[k]? = some edge → a.blueprint.edges[b.edgeSlot k]? = some (some edge)
  nextEdge : a.edges.next = b.edgeSlot linked.length
  keepsNode : ∀ x payload, start.node? x = some payload → a.node? x = some payload
  keepsEdge : ∀ (k : Nat) (edge : Edge), b.edges[k]? = some (some edge) → a.blueprint.edges[k]? = some (some edge)
  showsFree : a.ShowsFree ((b.holes.reverse[xs.length]?.map Id.index).getD 4294967295)
    (b.vacantEdges.reverse[linked.length]?.getD 4294967295)
  listings : ∀ edge c, a.connect edge = .ok c →
    c.dependents edge.source = (edge.target, edge.kind) :: a.dependents edge.source ∧
      c.dependencies edge.target = (edge.source, edge.kind) :: a.dependencies edge.target

theorem Arena.Loads.reuses {b : Blueprint} {start a : Arena} {xs : List Allocation} {linked : List Edge}
    (hload : Loads b start) (h : start.Draws a xs linked) : b.Reuses start a xs linked := by
  have hbuild := loads_iff.mp hload
  obtain ⟨-, hvacant, hedges⟩ := Blueprint.slots_of_build hbuild
  refine ⟨⟨?_, Slots.pairwise_vacantFrom 0 b.edges⟩, ?_, ?_, ?_, ?_, ?_, ?_, ?_, ?_⟩
  · rw [← hvacant]
    exact Slots.pairwise_vacantFrom 0 start.nodes.cells
  · intro k x hx
    rw [h.handle k x hx, Blueprint.upcoming_nodes hbuild]
  · unfold nextHandle
    rw [← Slots.upcoming_zero, h.nodes, Slots.upcoming_insertAll, Blueprint.upcoming_nodes hbuild,
      List.length_map, Nat.add_zero]
  · intro k edge hk
    rw [getElem?_edges_blueprint, h.edges, ← Blueprint.upcoming_edges hbuild]
    exact start.edges.get?_insertAll_upcoming hk
  · rw [← Slots.upcoming_zero, h.edges, Slots.upcoming_insertAll, Blueprint.upcoming_edges hbuild, Nat.add_zero]
  · intro x payload hx
    unfold node?
    rw [h.nodes]
    exact Slots.get?_insertAll hx _
  · intro k edge hk
    rw [getElem?_edges_blueprint, h.edges]
    refine Slots.get?_insertAll ?_ linked
    rw [hedges]
    exact Option.join_eq_some_iff.mpr hk
  · have hshows := a.showsFree
    unfold Slots.vacancyWord at hshows
    rw [h.nodes, h.edges, Slots.vacancy?_insertAll, Slots.vacancy?_insertAll, List.length_map, hvacant, hedges,
      ← List.map_reverse, List.getElem?_map] at hshows
    exact hshows
  · exact fun edge c => h.grows.listings_connect hload.fresh

namespace Session

/-- Whatever steps follow on reading an arena, the nodes and edges that they ask for are allocated and linked, and
no others; those in the arena take the slots that its blueprint foretells, and what has been read stays where
it is. -/
theorem reuses_run {s : Session} {i : Nat} {b : Blueprint} {start : Arena} (hload : Arena.Loads b start)
    (hs : s.arenas[i]? = some start) (steps : List Step) :
    (s.allocated steps).map Allocation.request = s.requested steps ∧ s.linked steps = s.joined steps ∧
      ∃ a, (s.run steps).1.arenas[i]? = some a ∧
        b.Reuses start a (s.allocatedIn i steps) (s.linkedIn i steps) := by
  obtain ⟨a, ha, hdraws⟩ := draws_run steps hs (.refl start)
  exact ⟨s.map_request_allocated steps, s.linked_eq_joined steps, a, ha, hload.reuses hdraws⟩

/-- Two nodes between vacant slots, and an edge between vacant slots. -/
def sparsePlan : Blueprint where
  nodes := [.value ⟨7⟩, .value ⟨8⟩]
  holes := [⟨0⟩, ⟨2⟩, ⟨4⟩]
  edges := [none, some ⟨⟨1⟩, ⟨3⟩, .data⟩, none]

/-- The arena of this blueprint. -/
def sparse : Arena where
  nodes := ⟨[none, some (.value ⟨7⟩), none, some (.value ⟨8⟩), none]⟩
  edges := ⟨[none, some ⟨⟨1⟩, ⟨3⟩, .data⟩, none]⟩
  outgoing := ⟨⟨[none, some 1]⟩, ⟨[none, none]⟩⟩
  incoming := ⟨⟨[none, none, none, some 1]⟩, ⟨[none, none]⟩⟩

/-- A variadic store, a node of the arena's own and an argument take the vacant slots from the last to the
first, and the next node a new one; an edge that fails and an argument that comes again take none. -/
theorem reuses_run_sparse :
    let s : Session :=
      { declarations := [{ id := ⟨2⟩, name := "f", isVariadic := true }], arenas := [sparse] }
    let steps : List Step :=
      [.updateArena 0 (.connect ⟨⟨0⟩, ⟨1⟩, .data⟩), .newStore 0 0, .updateArena 0 (.connect ⟨⟨4⟩, ⟨1⟩, .control⟩),
        .updateArena 0 (.addNode (.value ⟨9⟩)), .updateStore 0 0 (.addFormal ⟨3⟩),
        .updateStore 0 0 (.addFormal ⟨3⟩), .updateArena 0 (.addNode (.value ⟨10⟩))]
    s.requested steps = [(0, .variadic ⟨2⟩), (0, .value ⟨9⟩), (0, .formal ⟨2⟩ ⟨3⟩), (0, .value ⟨10⟩)] ∧
      (s.allocatedIn 0 steps).map Allocation.handle = [⟨4⟩, ⟨2⟩, ⟨0⟩, ⟨5⟩] ∧
      ∃ a, (s.run steps).1.arenas[0]? = some a ∧ a.nextHandle = ⟨6⟩ ∧
        a.blueprint.edges[2]? = some (some ⟨⟨4⟩, ⟨1⟩, .control⟩) ∧ a.ShowsFree 4294967295 0 := by
  intro s steps
  have hload : Arena.Loads sparsePlan sparse := Arena.loads_iff.mpr (by decide)
  have hs : s.arenas[0]? = some sparse := rfl
  obtain ⟨hrequested, -, a, ha, hreuses⟩ := reuses_run hload hs steps
  have hedge := hreuses.edge 0 ⟨⟨4⟩, ⟨1⟩, .control⟩ (by decide +kernel)
  have hfour : s.allocatedIn 0 steps = [⟨0, ⟨4⟩, .variadic ⟨2⟩⟩, ⟨0, ⟨2⟩, .value ⟨9⟩⟩,
      ⟨0, ⟨0⟩, .formal ⟨2⟩ ⟨3⟩⟩, ⟨0, ⟨5⟩, .value ⟨10⟩⟩] := by decide +kernel
  have hone : s.linkedIn 0 steps = [⟨⟨4⟩, ⟨1⟩, .control⟩] := by decide +kernel
  have hnext := hreuses.nextHandle
  have hshows := hreuses.showsFree
  rw [hfour, hone] at hshows
  rw [hfour] at hnext
  refine ⟨?_, by rw [hfour]; rfl, a, ha, hnext, hedge, hshows⟩
  rw [← hrequested]
  decide +kernel

end Session
end Dependence
