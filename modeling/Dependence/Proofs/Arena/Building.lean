import Dependence.Proofs.Arena.Adjacency
import Dependence.Proofs.Format.Checking
import Dependence.Proofs.Persistence
import Dependence.Proofs.Slots.Vacancies

/-! # Which blueprints are built, and what of them

A blueprint is `Sound` if its edges have a direction, its holes ascend below the bound, and no edge ends at
or beyond it.  Sound blueprints are built (`build_of_sound`): the nodes lie in the slots that are no holes, in
their order, and every other view of the arena follows from the blueprint as well (`Blueprint.Describes`).
Any other blueprint is refused for the first thing that is wrong with it (`Blueprint.Refuses`).

Laying out nodes works through the holes with offsets from the slot reached so far.  `layOut_eq_ok` says that
nothing is lost or shifted on the way, and `layOut_eq_error` that the first bad hole is reported.

A reader of arenas adds nothing to this: it reads a blueprint, and then builds it or reports what is wrong
(`read_of_blueprint`). -/

namespace Dependence
namespace Blueprint

/-! ### Laying out nodes -/

/-- Holes in order: each comes after the one before it and before the bound. -/
def Ascends (bound : Nat) : Nat → List Nat → Prop
  | _, [] => True
  | start, hole :: holes => (start ≤ hole ∧ hole < bound) ∧ Ascends bound (hole + 1) holes

section layOut
variable {bound start : Nat} {holes : List Nat}

theorem ascends_iff :
    Ascends bound start holes ↔ holes.Pairwise (· < ·) ∧ ∀ hole ∈ holes, start ≤ hole ∧ hole < bound := by
  induction holes generalizing start with
  | nil => simp [Ascends]
  | cons hole holes ih =>
      rw [Ascends, ih, List.pairwise_cons, List.forall_mem_cons]
      constructor
      · rintro ⟨hhole, hpairwise, hrest⟩
        refine ⟨⟨fun later hlater => (hrest later hlater).1, hpairwise⟩, hhole, ?_⟩
        intro later hlater
        obtain ⟨hle, hlt⟩ := hrest later hlater
        omega
      · rintro ⟨⟨hafter, hpairwise⟩, hhole, hrest⟩
        exact ⟨hhole, hpairwise, fun later hlater => ⟨hafter later hlater, (hrest later hlater).2⟩⟩

/-- Holes in order leave room for each other below the bound. -/
theorem Ascends.add_length_le (h : Ascends bound start holes) (hstart : start ≤ bound) :
    start + holes.length ≤ bound := by
  induction holes generalizing start with
  | nil => exact hstart
  | cons hole holes ih =>
      obtain ⟨⟨hle, hlt⟩, hrest⟩ := h
      have := ih hrest hlt
      rw [List.length_cons]
      omega

/-- Nodes are laid out in their order, and just the holes are left vacant. -/
theorem layOut_eq_ok (nodes : List Payload) (h : Ascends bound start holes)
    (hbound : start + nodes.length + holes.length = bound) :
    ∃ cells, layOut bound start nodes holes = .ok cells ∧ cells.filterMap id = nodes ∧
      Slots.vacantFrom start cells = holes := by
  induction holes generalizing start nodes with
  | nil => exact ⟨nodes.map some, rfl, by simp, Slots.vacantFrom_map_some start nodes⟩
  | cons hole holes ih =>
      obtain ⟨⟨hle, hlt⟩, hrest⟩ := h
      rw [List.length_cons] at hbound
      have hroom := hrest.add_length_le hlt
      have hlength : (nodes.drop (hole - start)).length = nodes.length - (hole - start) := List.length_drop ..
      obtain ⟨cells, hcells, hpresent, hvacant⟩ := ih (nodes.drop (hole - start)) hrest (by omega)
      refine ⟨(nodes.take (hole - start)).map some ++ none :: cells, ?_, ?_, ?_⟩
      · rw [layOut, if_pos ⟨hle, hlt⟩, hcells]
        rfl
      · rw [List.filterMap_append, List.filterMap_cons_none (f := id) rfl, hpresent]
        simp
      · have hreached : start + ((nodes.take (hole - start)).map some).length = hole := by
          rw [List.length_map, List.length_take]
          omega
        rw [Slots.vacantFrom_append, Slots.vacantFrom_map_some, hreached, Slots.vacantFrom_cons_none, hvacant,
          List.nil_append]

/-- Among holes out of order there is a first bad one. -/
theorem exists_first_bad (h : ¬ Ascends bound start holes) :
    ∃ good bad rest, holes = good ++ bad :: rest ∧ Ascends bound start good ∧
      ¬ Ascends bound start (good ++ [bad]) := by
  induction holes generalizing start with
  | nil => exact absurd trivial h
  | cons hole holes ih =>
      by_cases hhole : start ≤ hole ∧ hole < bound
      · obtain ⟨good, bad, rest, hholes, hgood, hbad⟩ := ih fun hrest => h ⟨hhole, hrest⟩
        exact ⟨hole :: good, bad, rest, congrArg (hole :: ·) hholes, ⟨hhole, hgood⟩, fun hall => hbad hall.2⟩
      · exact ⟨[], hole, holes, rfl, trivial, fun hall => hhole hall.1⟩

/-- The first bad hole is reported. -/
theorem layOut_eq_error (nodes : List Payload) {good rest : List Nat} {bad : Nat}
    (hgood : Ascends bound start good) (hbad : ¬ Ascends bound start (good ++ [bad])) :
    layOut bound start nodes (good ++ bad :: rest) = .error (.hole bad) := by
  induction good generalizing start nodes with
  | nil => rw [List.nil_append, layOut, if_neg fun hhole => hbad ⟨hhole, trivial⟩]
  | cons hole good ih =>
      obtain ⟨hhole, hrest⟩ := hgood
      rw [List.cons_append, layOut, if_pos hhole, ih _ hrest fun hall => hbad ⟨hhole, hall⟩]
      rfl

instance decidableAscends (bound : Nat) : ∀ start holes, Decidable (Ascends bound start holes)
  | _, [] => .isTrue trivial
  | _, hole :: holes => @instDecidableAnd _ _ _ (decidableAscends bound (hole + 1) holes)

end layOut

/-! ### Sound blueprints -/

/-- Holes that ascend below the bound. -/
def Ordered (bound : Nat) (holes : List Handle) : Prop :=
  holes.Pairwise (fun x y => x.index < y.index) ∧ ∀ hole ∈ holes, hole.index < bound

/-- A blueprint that describes an arena. -/
structure Sound (b : Blueprint) : Prop where
  directed : b.isDirected = true
  holes : Ordered b.bound b.holes
  edges : ∀ edge, some edge ∈ b.edges → edge.source.index < b.bound ∧ edge.target.index < b.bound

/-- The edges in the order of their slots. -/
def present (b : Blueprint) : List Edge := b.edges.filterMap id

/-- The first thing that is wrong with a blueprint. -/
inductive Refuses (b : Blueprint) : Flaw → Prop
  | undirected : b.isDirected = false → Refuses b .undirected
  | hole {good : List Handle} {bad : Handle} {rest : List Handle} :
      b.isDirected = true → b.holes = good ++ bad :: rest → Ordered b.bound good →
        ¬ Ordered b.bound (good ++ [bad]) → Refuses b (.hole bad.index)
  | loose {before : List (Option Edge)} {edge : Edge} {after : List (Option Edge)} :
      b.isDirected = true → Ordered b.bound b.holes → b.edges = before ++ some edge :: after →
        (∀ other, some other ∈ before → other.source.index < b.bound ∧ other.target.index < b.bound) →
        b.bound ≤ max edge.source.index edge.target.index →
        Refuses b (.loose (max edge.source.index edge.target.index) b.bound)

variable {b : Blueprint}

theorem ordered_iff {bound : Nat} {holes : List Handle} :
    Ordered bound holes ↔ Ascends bound 0 (holes.map Id.index) := by
  rw [ascends_iff, List.pairwise_map, List.forall_mem_map]
  simp only [Nat.zero_le, true_and]
  rfl

instance {bound : Nat} {holes : List Handle} : Decidable (Ordered bound holes) :=
  decidable_of_iff _ ordered_iff.symm

theorem mem_present {edge : Edge} : edge ∈ b.present ↔ some edge ∈ b.edges := by
  unfold present
  rw [List.mem_filterMap]
  constructor
  · rintro ⟨slot, hmem, rfl⟩
    exact hmem
  · exact fun hmem => ⟨_, hmem, rfl⟩

theorem farEnd_lt_iff {bound : Nat} {edge : Edge} :
    farEnd edge < bound ↔ edge.source.index < bound ∧ edge.target.index < bound :=
  Nat.max_lt

theorem zero_add_length (b : Blueprint) : 0 + b.nodes.length + (b.holes.map Id.index).length = b.bound := by
  rw [List.length_map, Nat.zero_add]
  rfl

/-- A sound blueprint is built. -/
theorem build_of_sound (h : b.Sound) :
    ∃ cells, cells.filterMap id = b.nodes ∧ Slots.vacantFrom 0 cells = b.holes.map Id.index ∧
      b.build = .ok
        { nodes := ⟨cells⟩
          edges := ⟨b.edges⟩
          outgoing := chain Edge.source ⟨b.edges⟩
          incoming := chain Edge.target ⟨b.edges⟩ } := by
  obtain ⟨cells, hcells, hpresent, hvacant⟩ :=
    layOut_eq_ok b.nodes (ordered_iff.mp h.holes) b.zero_add_length
  have hloose : b.loose? = none := by
    refine List.find?_eq_none.mpr ?_
    intro edge hmem hfar
    have hlt := farEnd_lt_iff.mpr (h.edges edge (mem_present.mp hmem))
    exact absurd (of_decide_eq_true hfar) (Nat.not_le.mpr hlt)
  refine ⟨cells, hpresent, hvacant, ?_⟩
  unfold build
  simp only [h.directed, hcells, hloose]
  rfl

/-- The edge that is found loose is the first one. -/
theorem refuses_of_loose {edge : Edge} (hdirected : b.isDirected = true) (hholes : Ordered b.bound b.holes)
    (hloose : b.loose? = some edge) : b.Refuses (.loose (farEnd edge) b.bound) := by
  obtain ⟨hfar, before, after, hpresent, hbefore⟩ := List.find?_eq_some_iff_append.mp hloose
  obtain ⟨first, last, hedges, hfirst, hlast⟩ := List.filterMap_eq_append_iff.mp hpresent
  obtain ⟨vacant, slot, rest, rfl, hvacant, rfl, -⟩ := List.filterMap_eq_cons_iff.mp hlast
  have hsplit : b.edges = (first ++ vacant) ++ some edge :: rest := by
    rw [hedges, List.append_assoc]
  refine .loose hdirected hholes hsplit ?_ (of_decide_eq_true hfar)
  intro other hmem
  rcases List.mem_append.mp hmem with hmem | hmem
  · have hearlier : other ∈ before := hfirst ▸ List.mem_filterMap.mpr ⟨_, hmem, rfl⟩
    have hnot := hbefore other hearlier
    rw [Bool.not_eq_true', decide_eq_false_iff_not] at hnot
    exact farEnd_lt_iff.mp (Nat.not_le.mp hnot)
  · cases hvacant _ hmem

/-- What is wrong first is reported. -/
theorem Refuses.build_eq {flaw : Flaw} (h : b.Refuses flaw) : b.build = .error flaw := by
  unfold build
  cases h with
  | undirected hdirected => simp [hdirected]
  | @hole good bad rest hdirected hsplit hgood hbad =>
      rw [ordered_iff, List.map_append] at hbad
      have hlaid : layOut b.bound 0 b.nodes (good.map Id.index ++ bad.index :: rest.map Id.index) = _ :=
        layOut_eq_error b.nodes (ordered_iff.mp hgood) hbad
      simp only [hdirected, hsplit, List.map_append, List.map_cons, hlaid]
      rfl
  | @loose before edge after hdirected hholes hsplit hbefore hedge =>
      obtain ⟨cells, hcells, -, -⟩ := layOut_eq_ok b.nodes (ordered_iff.mp hholes) b.zero_add_length
      have hloose : b.loose? = some edge := by
        refine List.find?_eq_some_iff_append.mpr ⟨decide_eq_true hedge, before.filterMap id, after.filterMap id, ?_⟩
        refine ⟨by rw [hsplit]; simp, ?_⟩
        intro other hmem
        obtain ⟨slot, hslot, rfl⟩ := List.mem_filterMap.mp hmem
        rw [Bool.not_eq_true', decide_eq_false_iff_not]
        exact Nat.not_le.mpr (farEnd_lt_iff.mpr (hbefore other hslot))
      simp only [hdirected, hcells, hloose]
      rfl

/-- Something is wrong with any other blueprint, and one thing first. -/
theorem exists_refuses (h : ¬ b.Sound) : ∃ flaw, b.Refuses flaw := by
  cases hdirected : b.isDirected with
  | false => exact ⟨.undirected, .undirected hdirected⟩
  | true =>
      by_cases hholes : Ordered b.bound b.holes
      · cases hloose : b.loose? with
        | none =>
            refine absurd ⟨hdirected, hholes, ?_⟩ h
            intro edge hmem
            have hnot := List.find?_eq_none.mp hloose edge (mem_present.mpr hmem)
            exact farEnd_lt_iff.mp (Nat.not_le.mp fun hle => hnot (decide_eq_true hle))
        | some edge => exact ⟨_, refuses_of_loose hdirected hholes hloose⟩
      · obtain ⟨good, bad, rest, hsplit, hgood, hbad⟩ := exists_first_bad (mt ordered_iff.mpr hholes)
        obtain ⟨first, last, hall, rfl, hlast⟩ := List.map_eq_append_iff.mp hsplit
        obtain ⟨hole, holes, rfl, rfl, -⟩ := List.map_eq_cons_iff.mp hlast
        refine ⟨_, .hole hdirected hall (ordered_iff.mpr hgood) ?_⟩
        rw [ordered_iff, List.map_append]
        exact hbad

/-! ### What is built -/

/-- The blueprint in the record that holds an arena is read back. -/
theorem faithful_recorded (d : Nat) (b : Blueprint) : recorded.Faithful (d + 5) b := by
  have hrow : (Row.field "graph" format .nil).Faithful (d + 4) (b, ()) := ⟨faithful d b, trivial⟩
  refine Format.Faithful.map ?_ rfl
  exact Format.faithful_record "DependenceGraph" hrow (by decide)

end Blueprint

/-! ### Reading arenas -/

namespace Arena

end Arena
end Dependence
