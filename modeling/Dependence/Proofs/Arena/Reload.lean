import Dependence.Proofs.Arena.Growth
import Dependence.Proofs.Persistence
import Dependence.Session

/-! # An arena that began empty is read back whole

In an arena that began empty no slot is vacant, so edges lie in the order in which they were linked, and
every edge ends at nodes (`Arena.Gapless`).  Building it from its blueprint therefore links the same edges
in the same order (`Gapless.build_blueprint`), and yields the same slots and the same chains.

What is read from the text of such an arena, directly or by way of a tree, is thus the arena itself
(`reload_of_grows`); it takes every further operation as the arena would have done. -/

namespace Dependence

namespace Slots

variable {α : Type} {s : Slots α}

/-- No slot is vacant. -/
def Full (s : Slots α) : Prop := none ∉ s.cells

theorem Full.vacancy?_eq_none (h : s.Full) : s.vacancy? = none := by
  cases hv : s.vacancy? with
  | none => rfl
  | some i => exact absurd (List.mem_of_getElem? (getElem?_of_vacancy? hv)) h

theorem Full.insert_eq (h : s.Full) (a : α) : s.insert a = ⟨s.cells ++ [some a]⟩ := by
  unfold insert
  rw [h.vacancy?_eq_none]

theorem Full.insert (h : s.Full) (a : α) : (s.insert a).Full := by
  intro hmem
  rw [h.insert_eq] at hmem
  rcases List.mem_append.mp hmem with hmem | hmem
  · exact h hmem
  · cases List.mem_singleton.mp hmem

theorem Full.present_map_some (h : s.Full) : s.present.map some = s.cells := by
  obtain ⟨cells⟩ := s
  induction cells with
  | nil => rfl
  | cons cell cells ih =>
      obtain ⟨hcell, hcells⟩ := not_or.mp fun hmem => h (List.mem_cons.mpr hmem)
      cases cell with
      | none => exact absurd rfl hcell
      | some a => exact congrArg (some a :: ·) (ih hcells)

/-- A new thing is the last one. -/
theorem Full.entries_insert (h : s.Full) (a : α) : (s.insert a).entries = s.entries ++ [(s.next, a)] := by
  have hnext : s.next = s.cells.length := by
    unfold next
    rw [h.vacancy?_eq_none]
    rfl
  unfold entries
  rw [h.insert_eq, hnext, List.zipIdx_append, List.filterMap_append, Nat.zero_add]
  rfl

theorem Full.trimmed_eq (h : s.Full) : s.trimmed = s := by
  obtain ⟨cells⟩ := s
  have hkeep : cells.reverse.dropWhile Option.isNone = cells.reverse := by
    cases hr : cells.reverse with
    | nil => rfl
    | cons cell rest =>
        have hmem : cell ∈ cells := List.mem_reverse.mp (hr ▸ List.mem_cons_self)
        cases cell with
        | none => exact absurd hmem h
        | some a => rfl
  unfold trimmed
  rw [hkeep, List.reverse_reverse]

theorem Full.vacancies_eq_nil (h : s.Full) : s.vacancies = [] := by
  rw [List.eq_nil_iff_forall_not_mem]
  intro i hi
  exact h (List.mem_of_getElem? (mem_vacancies.mp hi))

end Slots

namespace Arena

/-! ### Arenas without gaps -/

/-- No slot is vacant, every edge ends at slots of nodes, and the edges are chained in the order of their
slots. -/
structure Gapless (a : Arena) : Prop where
  nodes : a.nodes.Full
  edges : a.edges.Full
  bounded : ∀ edge ∈ a.edges.present, Blueprint.farEnd edge < a.nodes.cells.length
  outgoing : a.outgoing = Blueprint.chain Edge.source a.edges
  incoming : a.incoming = Blueprint.chain Edge.target a.edges

theorem gapless_empty : empty.Gapless :=
  ⟨List.not_mem_nil, List.not_mem_nil, fun _ hmem => (by cases hmem), rfl, rfl⟩

variable {a : Arena}

theorem Gapless.addNode (h : a.Gapless) (payload : Payload) : (a.addNode payload).Gapless := by
  refine ⟨h.nodes.insert payload, h.edges, ?_, h.outgoing, h.incoming⟩
  intro edge hmem
  exact Nat.lt_of_lt_of_le (h.bounded edge hmem) (Slots.length_le_length_insert ..)

/-- The chains of a longer row of edges are linked once more. -/
theorem chain_insert {edges : Slots Edge} (h : edges.Full) (node : Edge → Handle) (edge : Edge) :
    Blueprint.chain node (edges.insert edge) = (Blueprint.chain node edges).link (node edge).index edges.next := by
  unfold Blueprint.chain
  rw [h.entries_insert, List.foldl_append]
  rfl

theorem index_lt_of_contains {h : Handle} (hc : a.contains h = true) : h.index < a.nodes.cells.length := by
  obtain ⟨payload, hp⟩ := Option.isSome_iff_exists.mp hc
  unfold node? Slots.get? at hp
  cases hi : a.nodes.cells[h.index]? with
  | none =>
      rw [hi] at hp
      cases hp
  | some cell => exact (List.getElem?_eq_some_iff.mp hi).1

theorem Gapless.link (h : a.Gapless) {edge : Edge} (hs : a.contains edge.source = true)
    (ht : a.contains edge.target = true) : (a.link edge).Gapless := by
  refine ⟨h.nodes, h.edges.insert edge, ?_, ?_, ?_⟩
  · intro other hmem
    have hpresent : (a.link edge).edges.present = a.edges.present ++ [edge] := by
      unfold Arena.link
      rw [h.edges.insert_eq]
      simp [Slots.present]
    rw [hpresent] at hmem
    rcases List.mem_append.mp hmem with hmem | hmem
    · exact h.bounded other hmem
    · obtain rfl := List.mem_singleton.mp hmem
      exact Nat.max_lt.mpr ⟨index_lt_of_contains hs, index_lt_of_contains ht⟩
  · show a.outgoing.link _ _ = Blueprint.chain Edge.source (a.edges.insert edge)
    rw [chain_insert h.edges, h.outgoing]
  · show a.incoming.link _ _ = Blueprint.chain Edge.target (a.edges.insert edge)
    rw [chain_insert h.edges, h.incoming]

/-- An arena that began empty has no gaps. -/
theorem Grows.gapless {added : List Edge} (h : Grows .empty a added) : a.Gapless := by
  refine h.keeps (P := fun a _ => a.Gapless) gapless_empty ?_ ?_
  · exact fun a _ payload ha => ha.addNode payload
  · exact fun a _ edge hs ht ha => ha.link hs ht

/-! ### Building an arena again -/

theorem Gapless.blueprint_eq (h : a.Gapless) :
    a.blueprint = { nodes := a.nodes.present, holes := [], edges := a.edges.cells } := by
  unfold blueprint
  rw [h.nodes.trimmed_eq, h.nodes.vacancies_eq_nil, h.edges.trimmed_eq]
  rfl

/-- An arena without gaps is built again from its blueprint. -/
theorem Gapless.build_blueprint (h : a.Gapless) : a.blueprint.build = .ok a := by
  have hlength : a.nodes.present.length = a.nodes.cells.length := by
    rw [← h.nodes.present_map_some, List.length_map]
  have hbounded : ∀ edge ∈ a.edges.present, ¬ a.nodes.present.length + 0 ≤ Blueprint.farEnd edge := by
    intro edge hmem
    have hlt := h.bounded edge hmem
    omega
  have hloose : Blueprint.loose? { nodes := a.nodes.present, holes := [], edges := a.edges.cells } = none := by
    refine List.find?_eq_none.mpr ?_
    intro edge hmem
    exact mt of_decide_eq_true (hbounded edge hmem)
  have hnodes : (⟨a.nodes.present.map some⟩ : Slots Payload) = a.nodes :=
    congrArg Slots.mk h.nodes.present_map_some
  rw [h.blueprint_eq]
  unfold Blueprint.build
  simp only [hloose, Blueprint.layOut, List.map_nil, bind, Except.bind, hnodes, ← h.outgoing, ← h.incoming]
  rfl

/-! ### Reading a text again -/

/-- What is read of the text of an arena that began empty is this arena, whether it is read straight from
the text or from the tree of the text; loading the tree is as good as copying the arena. -/
theorem reload_of_grows {added : List Edge} (h : Grows .empty a added) :
    format.parse a.dump = .ok a ∧
      ∃ tree, Json.parse a.dump = .ok tree ∧ format.ofJson tree = .ok a ∧
        ∀ (s : Session) (i : Nat), s.arenas[i]? = some a → s.step (.loadArena tree) = s.step (.copyArena i) := by
  have hfaithful : format.Faithful Json.maxDepth a := faithful_of_build 122 h.gapless.build_blueprint
  refine ⟨hfaithful.parse_text, format.write a, hfaithful.fits.parse_text, hfaithful.ofJson_write, ?_⟩
  intro s i hi
  simp only [Session.step, hfaithful.ofJson_write, hi]

/-- The nodes of a variadic function, and one whose label is written with escapes. -/
def labelled : Arena :=
  let built := (Store.create .empty ⟨⟨3⟩, "print", [⟨1⟩], true⟩).state
  (built.1.update built.2 .addFormals).state.2.addNode (.synthetic "\"\\\n\x01😀")

/-- The same with parallel edges, and an edge from a node to itself. -/
def knotted : Arena :=
  ((labelled.link ⟨⟨0⟩, ⟨0⟩, .data⟩).link ⟨⟨0⟩, ⟨2⟩, .control⟩).link ⟨⟨0⟩, ⟨2⟩, .control⟩

theorem reload_of_grows_knotted :
    Grows .empty knotted [⟨⟨0⟩, ⟨0⟩, .data⟩, ⟨⟨0⟩, ⟨2⟩, .control⟩, ⟨⟨0⟩, ⟨2⟩, .control⟩] ∧
      knotted.node? ⟨2⟩ = some (.synthetic "\"\\\n\x01😀") ∧
      knotted.dependents ⟨0⟩ = [(⟨2⟩, .control), (⟨2⟩, .control), (⟨0⟩, .data)] ∧
      format.parse knotted.dump = .ok knotted := by
  have hnodes : Grows .empty labelled [] := .addNode _ (.update _ _ (.create _ .refl))
  have hself : Grows .empty (labelled.link ⟨⟨0⟩, ⟨0⟩, .data⟩) [⟨⟨0⟩, ⟨0⟩, .data⟩] :=
    .connect hnodes (connect_eq_ok.mpr ⟨rfl, rfl, rfl⟩)
  have hedge : Grows .empty ((labelled.link ⟨⟨0⟩, ⟨0⟩, .data⟩).link ⟨⟨0⟩, ⟨2⟩, .control⟩)
      [⟨⟨0⟩, ⟨0⟩, .data⟩, ⟨⟨0⟩, ⟨2⟩, .control⟩] :=
    .connect hself (connect_eq_ok.mpr ⟨rfl, rfl, rfl⟩)
  have hgrows : Grows .empty knotted [⟨⟨0⟩, ⟨0⟩, .data⟩, ⟨⟨0⟩, ⟨2⟩, .control⟩, ⟨⟨0⟩, ⟨2⟩, .control⟩] :=
    .connect hedge (connect_eq_ok.mpr ⟨rfl, rfl, rfl⟩)
  exact ⟨hgrows, rfl, rfl, (reload_of_grows hgrows).1⟩

end Arena
end Dependence
