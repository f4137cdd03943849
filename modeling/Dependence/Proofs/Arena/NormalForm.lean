import Dependence.Proofs.Arena.Building
import Dependence.Proofs.Slots.Trimmed
import Mathlib.Data.List.Nodup

/-! # The text of an arena is a normal form

The text of an arena leaves out the vacant slots at the end, but keeps the edges that end there.  So an arena
with an edge that ends beyond its last node is written as a text that no reader takes back, and every other
arena is read back (`reloads_of_bounded`, `reloads_of_loose`).

What is read back `Mirrors` the arena: it has the same nodes under the same handles, the same edges at either
end of each node, and the same text.  Its listings may come in another order, since reading links the edges
by their slots.

Behind this, the blueprint of an arena is sound but for its loose edges (`sound_blueprint_iff`), because
vacancies are words that were read as holes (`Arena.NamesVacancies`). -/

namespace Dependence

namespace Blueprint

/-- The blueprint without its holes from a bound on, and without the vacant edge slots at its end. -/
def trimmedTo (b : Blueprint) (bound : Nat) : Blueprint :=
  { b with
    holes := b.holes.filter fun hole => hole.index < bound
    edges := (Slots.mk b.edges).trimmed.cells }

theorem sound_of_build {b : Blueprint} {a : Arena} (h : b.build = .ok a) : b.Sound := by
  by_contra hnot
  obtain ⟨flaw, hrefuses⟩ := exists_refuses hnot
  rw [hrefuses.build_eq] at h
  cases h

/-- The slots of what is built are those of the blueprint. -/
theorem slots_of_build {b : Blueprint} {a : Arena} (h : b.build = .ok a) :
    a.nodes.present = b.nodes ∧ a.nodes.vacancies = b.holes.map Id.index ∧ a.edges = ⟨b.edges⟩ := by
  obtain ⟨cells, hpresent, hvacant, hok⟩ := build_of_sound (sound_of_build h)
  obtain rfl := Except.ok.inj (hok.symm.trans h)
  exact ⟨hpresent, hvacant, rfl⟩

end Blueprint

namespace Arena

/-! ### The blueprint of an arena -/

/-- Every vacant slot can be named by a handle. -/
def NamesVacancies (a : Arena) : Prop := ∀ i ∈ a.nodes.vacancies, i < UInt32.size

/-- Vacancies were read as holes, and no new ones come about. -/
theorem Grows.namesVacancies {start a : Arena} {added : List Edge} (hstart : Fresh start)
    (h : Grows start a added) : a.NamesVacancies := by
  refine h.keeps (P := fun a _ => a.NamesVacancies) ?_ ?_ ?_
  · obtain ⟨b, hb⟩ := hstart.exists_build
    intro i hi
    rw [(Blueprint.slots_of_build hb).2.1] at hi
    obtain ⟨hole, -, rfl⟩ := List.mem_map.mp hi
    exact hole.index_lt
  · intro a added payload ha i hi
    have hinsert : (a.addNode payload).nodes.vacancies = a.nodes.vacancies.dropLast :=
      Slots.vacancies_insert ..
    rw [hinsert] at hi
    exact ha i ((List.dropLast_sublist _).subset hi)
  · exact fun a added edge _ _ ha => ha

variable {a : Arena}

theorem NamesVacancies.holes_blueprint (h : a.NamesVacancies) :
    a.blueprint.holes.map Id.index = a.nodes.trimmed.vacancies := by
  have hword : ∀ i ∈ a.nodes.trimmed.vacancies, (Id.index ∘ (Id.ofIndex : Nat → Handle)) i = i := by
    intro i hi
    rw [Slots.vacancies_trimmed] at hi
    exact Id.index_ofIndex_of_lt (h i (List.mem_of_mem_filter hi))
  show (a.nodes.trimmed.vacancies.map Id.ofIndex).map Id.index = _
  rw [List.map_map, List.map_congr_left hword, List.map_id']

theorem bound_blueprint (a : Arena) : a.blueprint.bound = a.nodes.bound := by
  have hlength := Slots.length_vacantFrom 0 a.nodes.trimmed.cells
  have hpresent : a.nodes.trimmed.cells.filterMap id = a.nodes.present := a.nodes.present_trimmed
  rw [hpresent, Slots.length_trimmed] at hlength
  show a.nodes.present.length + (a.nodes.trimmed.vacancies.map Id.ofIndex).length = _
  rw [List.length_map]
  exact hlength

theorem present_blueprint (a : Arena) : a.blueprint.present = a.edges.present :=
  a.edges.present_trimmed

theorem NamesVacancies.ordered_blueprint (h : a.NamesVacancies) :
    Blueprint.Ordered a.blueprint.bound a.blueprint.holes := by
  rw [Blueprint.ordered_iff, Blueprint.ascends_iff, h.holes_blueprint]
  refine ⟨Slots.pairwise_vacantFrom 0 _, ?_⟩
  intro hole hmem
  have hlt := (Slots.mem_vacantFrom (show hole ∈ Slots.vacantFrom 0 a.nodes.trimmed.cells from hmem)).2
  rw [Nat.zero_add, Slots.length_trimmed, ← bound_blueprint] at hlt
  exact ⟨Nat.zero_le _, hlt⟩

/-- The blueprint of an arena is sound unless an edge ends beyond the last node. -/
theorem NamesVacancies.sound_blueprint_iff (h : a.NamesVacancies) :
    a.blueprint.Sound ↔
      ∀ edge ∈ a.edges.present, edge.source.index < a.nodes.bound ∧ edge.target.index < a.nodes.bound := by
  rw [← bound_blueprint, ← present_blueprint]
  constructor
  · exact fun hsound edge hmem => hsound.edges edge (Blueprint.mem_present.mp hmem)
  · exact fun hedges => ⟨rfl, h.ordered_blueprint, fun edge hmem => hedges edge (Blueprint.mem_present.mpr hmem)⟩

/-- What is built of the blueprint of an arena has its slots, but for vacant ones at the end. -/
theorem NamesVacancies.slots_of_build (h : a.NamesVacancies) {b : Arena} (hb : a.blueprint.build = .ok b) :
    b.nodes = a.nodes.trimmed ∧ b.edges = a.edges.trimmed := by
  obtain ⟨hnodes, hholes, hedges⟩ := Blueprint.slots_of_build hb
  have hpresent : b.nodes.present = a.nodes.trimmed.present := hnodes.trans a.nodes.present_trimmed.symm
  have hvacant : Slots.vacantFrom 0 b.nodes.cells = Slots.vacantFrom 0 a.nodes.trimmed.cells :=
    hholes.trans h.holes_blueprint
  exact ⟨congrArg Slots.mk (Slots.eq_of_vacantFrom_eq hpresent hvacant), hedges⟩

/-- What is written of an arena that was built is its blueprint, without what is vacant at the end. -/
theorem blueprint_of_build {b : Blueprint} (hb : b.build = .ok a) :
    a.blueprint = b.trimmedTo a.nodes.bound := by
  obtain ⟨hpresent, hvacant, hedges⟩ := Blueprint.slots_of_build hb
  have hholes : a.nodes.trimmed.vacancies.map Id.ofIndex =
      b.holes.filter fun hole => hole.index < a.nodes.bound := by
    rw [Slots.vacancies_trimmed, Slots.length_trimmed, hvacant, List.filter_map, List.map_map]
    exact List.map_id'' Id.ofIndex_index _
  have hdirected := (Blueprint.sound_of_build hb).directed
  unfold blueprint Blueprint.trimmedTo
  rw [hpresent, hholes, hedges, hdirected]

/-! ### Reading a text back -/

/-- Two arenas that look alike, but for the order of their listings. -/
structure Mirrors (a b : Arena) : Prop where
  node? : ∀ x, b.node? x = a.node? x
  nodeCount : b.nodeCount = a.nodeCount
  edgeCount : b.edgeCount = a.edgeCount
  dependents : ∀ x, (b.dependents x).Perm (a.dependents x)
  dependencies : ∀ x, (b.dependencies x).Perm (a.dependencies x)
  dump : b.dump = a.dump

/-- Two logs of the same slots hold the same edges. -/
theorem Logged.perm {b : Arena} {log log' : List (Nat × Edge)} (ha : a.Logged log) (hb : b.Logged log')
    (hget : ∀ i, b.edges.get? i = a.edges.get? i) : log'.Perm log := by
  have hnodup : ∀ {c : Arena} {log : List (Nat × Edge)}, c.Logged log → log.Nodup := by
    intro c log hc
    have hslots := hc.outgoing.nodup
    rw [map_snd_linksAt] at hslots
    exact List.Nodup.of_map Prod.fst hslots
  refine (List.perm_ext_iff_of_nodup (hnodup hb) (hnodup ha)).mpr ?_
  rintro ⟨slot, edge⟩
  rw [hb.mem_iff, ha.mem_iff, hget]

/-- Edges chained at a node are the same in both arenas, however they are linked. -/
theorem Logged.perm_chained {b : Arena} {log log' : List (Nat × Edge)} {chain chain' : Chain}
    {node : Edge → Handle} (ha : a.Logged log) (hb : b.Logged log')
    (hget : ∀ i, b.edges.get? i = a.edges.get? i) (hchain : chain.Strung (linksAt node log))
    (hchain' : chain'.Strung (linksAt node log')) {x : Handle} (hnode : b.contains x = a.contains x) :
    (b.chained chain' x).Perm (a.chained chain x) := by
  cases hx : a.contains x with
  | true =>
      rw [ha.chained_eq hchain hx, hb.chained_eq hchain' (hnode.trans hx)]
      exact ((ha.perm hb hget).map Prod.snd).filter _
  | false =>
      unfold chained
      rw [hnode, hx]
      exact .refl _

theorem mirrors_of_build {log : List (Nat × Edge)} (h : a.NamesVacancies) (hlog : a.Logged log) {b : Arena}
    (hb : a.blueprint.build = .ok b) : a.Mirrors b := by
  obtain ⟨hnodes, hedges⟩ := h.slots_of_build hb
  have hlog' := logged_of_build hb
  have hnode : ∀ x, b.node? x = a.node? x := by
    intro x
    unfold node?
    rw [hnodes, Slots.get?_trimmed]
  have hcontains : ∀ x, b.contains x = a.contains x := fun x => congrArg Option.isSome (hnode x)
  have hget : ∀ i, b.edges.get? i = a.edges.get? i := by
    intro i
    rw [hedges, Slots.get?_trimmed]
  have hblueprint : b.blueprint = a.blueprint := by
    unfold blueprint
    rw [hnodes, hedges, Slots.trimmed_trimmed, Slots.trimmed_trimmed, Slots.present_trimmed]
  refine ⟨hnode, ?_, ?_, ?_, ?_, ?_⟩
  · unfold nodeCount
    rw [hnodes, Slots.count_trimmed]
  · unfold edgeCount
    rw [hedges, Slots.count_trimmed]
  · exact fun x => (hlog.perm_chained hlog' hget hlog.outgoing hlog'.outgoing (hcontains x)).map _
  · exact fun x => (hlog.perm_chained hlog' hget hlog.incoming hlog'.incoming (hcontains x)).map _
  · show Blueprint.recorded.text b.blueprint = Blueprint.recorded.text a.blueprint
    rw [hblueprint]

/-- What the readers of texts and of trees make of the text of an arena. -/
structure Reloads (a : Arena) (result : Except String Arena) : Prop where
  parse : format.parse a.dump = (result.mapError .refused).mapError .mismatch
  ofJson : ∃ tree, Json.parse a.dump = .ok tree ∧ format.ofJson tree = result.mapError .refused

/-- Both readers build the blueprint that was written. -/
theorem reloads_blueprint (a : Arena) : a.Reloads (ofBlueprint a.blueprint) := by
  have hfaithful := Blueprint.faithful_recorded 122 a.blueprint
  constructor
  · exact (refines_parse a.dump).of_ok hfaithful.parse_text
  · refine ⟨Blueprint.recorded.write a.blueprint, hfaithful.fits.parse_text, ?_⟩
    exact (refines_ofJson _).of_ok hfaithful.ofJson_write

theorem Reloads.eq {result other : Except String Arena} (h : a.Reloads result) (h' : a.Reloads other) :
    result = other := by
  have hparse := h.parse.symm.trans h'.parse
  cases result <;> cases other <;> cases hparse <;> rfl

/-- An arena is read back if all of its edges end below its bound. -/
theorem NamesVacancies.reloads_of_bounded (h : a.NamesVacancies)
    (hedges : ∀ edge ∈ a.edges.present,
      edge.source.index < a.nodes.bound ∧ edge.target.index < a.nodes.bound) :
    ∃ b, a.blueprint.build = .ok b ∧ a.Reloads (.ok b) := by
  obtain ⟨cells, -, -, hbuild⟩ := Blueprint.build_of_sound (h.sound_blueprint_iff.mpr hedges)
  have hcheck : ofBlueprint a.blueprint = .ok _ := congrArg (Except.mapError Flaw.message) hbuild
  exact ⟨_, hbuild, hcheck ▸ a.reloads_blueprint⟩

/-- The first edge that ends elsewhere is what the readers report. -/
theorem NamesVacancies.reloads_of_loose (h : a.NamesVacancies) {before after : List Edge} {edge : Edge}
    (hsplit : a.edges.present = before ++ edge :: after)
    (hbefore : ∀ other ∈ before, other.source.index < a.nodes.bound ∧ other.target.index < a.nodes.bound)
    (hedge : a.nodes.bound ≤ max edge.source.index edge.target.index) :
    a.Reloads (.error ("invalid value: node index `" ++ toString (max edge.source.index edge.target.index) ++
      "` does not exist in graph with node bound " ++ toString a.nodes.bound)) := by
  have hloose : a.blueprint.loose? = some edge := by
    refine List.find?_eq_some_iff_append.mpr ⟨?_, before, after, ?_, ?_⟩
    · rw [bound_blueprint]
      exact decide_eq_true hedge
    · exact a.present_blueprint.trans hsplit
    · intro other hmem
      rw [bound_blueprint, Bool.not_eq_true', decide_eq_false_iff_not]
      exact Nat.not_le.mpr (Blueprint.farEnd_lt_iff.mpr (hbefore other hmem))
  have hbuild := (Blueprint.refuses_of_loose rfl h.ordered_blueprint hloose).build_eq
  have hcheck : ofBlueprint a.blueprint = .error _ := congrArg (Except.mapError Flaw.message) hbuild
  have hreloads := hcheck ▸ a.reloads_blueprint
  rw [bound_blueprint] at hreloads
  exact hreloads

/-- The arena is what one of the readers makes of the given blueprint. -/
def Loads (b : Blueprint) (a : Arena) : Prop :=
  (∃ v, Blueprint.recorded.ofJson v = .ok b ∧ format.ofJson v = .ok a) ∨
    ∃ s, Blueprint.recorded.parse s = .ok b ∧ format.parse s = .ok a

/-- Readers make of a blueprint what is built of it. -/
theorem loads_iff {b : Blueprint} : Loads b a ↔ b.build = .ok a := by
  constructor
  · rintro (⟨v, hb, ha⟩ | ⟨s, hb, ha⟩)
    · rw [(refines_ofJson v).of_ok hb] at ha
      exact mapError_eq_ok_iff.mp (mapError_eq_ok_iff.mp ha)
    · rw [(refines_parse s).of_ok hb] at ha
      exact mapError_eq_ok_iff.mp (mapError_eq_ok_iff.mp (mapError_eq_ok_iff.mp ha))
  · intro hbuild
    have hwrite := (Blueprint.faithful_recorded 0 b).ofJson_write
    have hcheck : ofBlueprint b = .ok a := congrArg (Except.mapError Flaw.message) hbuild
    refine .inl ⟨_, hwrite, ?_⟩
    rw [(refines_ofJson _).of_ok hwrite]
    exact congrArg (Except.mapError Mismatch.refused) hcheck

theorem Loads.fresh {b : Blueprint} (h : Loads b a) : Fresh a := by
  rcases h with ⟨v, -, ha⟩ | ⟨s, -, ha⟩
  · exact .ofJson ha
  · exact .parse ha

theorem lt_bound_of_contains {x : Handle} (hx : a.contains x = true) : x.index < a.nodes.bound := by
  obtain ⟨payload, hpayload⟩ := Option.isSome_iff_exists.mp hx
  exact Slots.lt_bound hpayload

/-- However an arena has come about, its text is read back unless an edge ends beyond its last node; then the
first such edge is reported.  What is read back mirrors the arena. -/
theorem reloads_of_grows {start : Arena} {added : List Edge} (hstart : Fresh start)
    (h : Grows start a added) :
    ((∃ b, a.Reloads (.ok b)) ↔ ∀ edge ∈ a.edges.present,
      edge.source.index < a.nodes.bound ∧ edge.target.index < a.nodes.bound) ∧
    (∀ before edge after, a.edges.present = before ++ edge :: after →
      (∀ other ∈ before, other.source.index < a.nodes.bound ∧ other.target.index < a.nodes.bound) →
      a.nodes.bound ≤ max edge.source.index edge.target.index →
      a.Reloads (.error ("invalid value: node index `" ++ toString (max edge.source.index edge.target.index) ++
        "` does not exist in graph with node bound " ++ toString a.nodes.bound))) ∧
    (∀ b, a.Reloads (.ok b) → a.Mirrors b) ∧
    ((∀ edge ∈ a.edges.present, a.contains edge.source = true ∧ a.contains edge.target = true) →
      ∃ b, a.Reloads (.ok b)) ∧
    ∀ b, Loads b start → start.dump = Blueprint.recorded.text (b.trimmedTo start.nodes.bound) := by
  have hnames := h.namesVacancies hstart
  have hiff : (∃ b, a.Reloads (.ok b)) ↔ ∀ edge ∈ a.edges.present,
      edge.source.index < a.nodes.bound ∧ edge.target.index < a.nodes.bound := by
    constructor
    · rintro ⟨b, hb⟩
      have hcheck : ofBlueprint a.blueprint = .ok b := a.reloads_blueprint.eq hb
      exact hnames.sound_blueprint_iff.mp (Blueprint.sound_of_build (mapError_eq_ok_iff.mp hcheck))
    · intro hedges
      obtain ⟨b, -, hb⟩ := hnames.reloads_of_bounded hedges
      exact ⟨b, hb⟩
  refine ⟨hiff, fun before edge after => hnames.reloads_of_loose, ?_, ?_, ?_⟩
  · intro b hb
    obtain ⟨log, hlog, -⟩ := h.exists_logged hstart
    have hcheck : ofBlueprint a.blueprint = .ok b := a.reloads_blueprint.eq hb
    exact mirrors_of_build hnames hlog (mapError_eq_ok_iff.mp hcheck)
  · intro hends
    rw [hiff]
    intro edge hmem
    obtain ⟨hsource, htarget⟩ := hends edge hmem
    exact ⟨lt_bound_of_contains hsource, lt_bound_of_contains htarget⟩
  · intro b hb
    rw [← blueprint_of_build (loads_iff.mp hb)]
    rfl

/-- A node, and an edge from it to a vacant slot behind it. -/
def danglingPlan : Blueprint where
  nodes := [.value ⟨7⟩]
  holes := [⟨1⟩]
  edges := [none, some ⟨⟨0⟩, ⟨1⟩, .data⟩]

/-- The arena of this blueprint. -/
def dangling : Arena where
  nodes := ⟨[some (.value ⟨7⟩), none]⟩
  edges := ⟨[none, some ⟨⟨0⟩, ⟨1⟩, .data⟩]⟩
  outgoing := ⟨⟨[some 1]⟩, ⟨[none, none]⟩⟩
  incoming := ⟨⟨[none, some 1]⟩, ⟨[none, none]⟩⟩

/-- The vacant slot is not written, so the edge to it is refused, though a sound edge lies before it. -/
theorem reloads_of_grows_dangling :
    let a := dangling.link ⟨⟨0⟩, ⟨0⟩, .control⟩
    Loads danglingPlan dangling ∧ Grows dangling a [⟨⟨0⟩, ⟨0⟩, .control⟩] ∧
      a.edges.present = [⟨⟨0⟩, ⟨0⟩, .control⟩, ⟨⟨0⟩, ⟨1⟩, .data⟩] ∧ a.nodes.bound = 1 ∧
      a.Reloads (.error "invalid value: node index `1` does not exist in graph with node bound 1") ∧
      dangling.dump = Blueprint.recorded.text { danglingPlan with holes := [] } := by
  intro a
  have hload : Loads danglingPlan dangling := loads_iff.mpr (by decide)
  have hgrows : Grows dangling a ([] ++ [⟨⟨0⟩, ⟨0⟩, .control⟩]) :=
    .connect .refl (connect_eq_ok.mpr ⟨rfl, rfl, rfl⟩)
  obtain ⟨-, hloose, -, -, -⟩ := reloads_of_grows hload.fresh hgrows
  obtain ⟨-, -, -, -, hdump⟩ := reloads_of_grows hload.fresh .refl
  refine ⟨hload, hgrows, rfl, rfl, ?_, hdump _ hload⟩
  have hbefore : ∀ other ∈ [(⟨⟨0⟩, ⟨0⟩, .control⟩ : Edge)],
      other.source.index < a.nodes.bound ∧ other.target.index < a.nodes.bound := by
    intro other hmem
    rw [List.mem_singleton.mp hmem]
    decide
  have hreport := hloose _ ⟨⟨0⟩, ⟨1⟩, .data⟩ [] rfl hbefore (by decide)
  have hmessage : "invalid value: node index `" ++ toString (max (⟨0⟩ : Handle).index (⟨1⟩ : Handle).index) ++
      "` does not exist in graph with node bound " ++ toString a.nodes.bound =
        "invalid value: node index `1` does not exist in graph with node bound 1" := by
    decide +kernel
  exact hmessage ▸ hreport

end Arena
end Dependence
