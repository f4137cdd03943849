import Dependence.Persistence
import Dependence.Proofs.Format.Choice

/-! # Arenas read back what they write

The formats of identities, declarations, calls, payloads, kinds of dependence, edges and blueprints are
faithful for all values.  That of arenas is faithful for every arena that is built again from its own
blueprint (`Arena.faithful_of_build`). -/

namespace Dependence

/-! ### Identities, declarations and calls -/

theorem Id.faithful {e : Entity} (d : Nat) (x : Id e) : (@Id.format e).Faithful d x :=
  (Format.faithful_word d x.word).map rfl

theorem Declaration.faithful (d : Nat) (x : Declaration) : format.Faithful (d + 2) x := by
  have hrow : row.Faithful (d + 1) (x.id, x.name, x.params, x.isVariadic, ()) := by
    refine ⟨Id.faithful _ x.id, Format.faithful_string _ x.name, ?_, Format.faithful_boolean _ x.isVariadic, trivial⟩
    exact Format.faithful_list fun param _ => Id.faithful d param
  refine Format.Faithful.map ?_ rfl
  exact Format.faithful_record "FunctionDecl" hrow (by decide)

/-- A callee is told from none, because a number does not begin like null. -/
theorem Call.faithful_callee (d : Nat) :
    ∀ callee : Option (Id .function), (@Id.format .function).optional.Faithful d callee
  | none => Format.faithful_none _ d
  | some f => (Id.faithful d f).some (Format.head?_compact_word f.word)

theorem Call.faithful (d : Nat) (c : Call) : format.Faithful (d + 1) c := by
  have hrow : row.Faithful d (c.instruction, c.callee, ()) :=
    ⟨Id.faithful d c.instruction, Call.faithful_callee d c.callee, trivial⟩
  refine Format.Faithful.map ?_ rfl
  exact Format.faithful_record "CallSite" hrow (by decide)

/-! ### Payloads and kinds -/

theorem Payload.faithful (d : Nat) : ∀ p : Payload, format.Faithful (d + 2) p
  | formal f a =>
      Format.faithful_choice_of_record rfl rfl ⟨Id.faithful d f, Id.faithful d a, trivial⟩ (by decide) rfl
  | value v => Format.faithful_choice_of_record rfl rfl ⟨Id.faithful d v, trivial⟩ (by decide) rfl
  | variadic f => Format.faithful_choice_of_record rfl rfl ⟨Id.faithful d f, trivial⟩ (by decide) rfl
  | synthetic label =>
      Format.faithful_choice_of_record rfl rfl ⟨Format.faithful_string d label, trivial⟩ (by decide) rfl

theorem Kind.faithful (d : Nat) (k : Kind) : format.Faithful d k := by
  cases k with
  | data => exact Format.faithful_choice_of_alone rfl rfl rfl
  | control => exact Format.faithful_choice_of_alone rfl rfl rfl
  | defUse => exact Format.faithful_choice_of_alone rfl rfl rfl

theorem Edge.faithful (d : Nat) (edge : Edge) : format.Faithful (d + 1) edge := by
  have hrow : row.Faithful d (edge.source, edge.target, edge.kind, ()) :=
    ⟨Id.faithful d edge.source, Id.faithful d edge.target, Kind.faithful d edge.kind, trivial⟩
  refine Format.Faithful.map ?_ rfl
  exact Format.faithful_tuple hrow

/-- A vacant slot is told from an edge, which is written as an array. -/
theorem Edge.faithful_optional (d : Nat) : ∀ slot : Option Edge, format.optional.Faithful (d + 1) slot
  | none => Format.faithful_none format (d + 1)
  | some edge => by
      refine (Edge.faithful d edge).some ?_
      show some '[' ≠ some 'n'
      decide

/-! ### Blueprints and arenas -/

namespace Blueprint

theorem faithful_direction (d : Nat) (isDirected : Bool) : directionFormat.Faithful d isDirected := by
  cases isDirected with
  | false => exact Format.faithful_choice_of_alone rfl rfl rfl
  | true => exact Format.faithful_choice_of_alone rfl rfl rfl

theorem faithful (d : Nat) (b : Blueprint) : format.Faithful (d + 4) b := by
  have hrow : row.Faithful (d + 3) (b.nodes, b.holes, b.isDirected, b.edges, ()) := by
    refine ⟨?_, ?_, faithful_direction (d + 3) b.isDirected, ?_, trivial⟩
    · exact Format.faithful_list fun payload _ => Payload.faithful d payload
    · exact Format.faithful_list fun hole _ => Id.faithful (d + 2) hole
    · exact Format.faithful_list fun slot _ => Edge.faithful_optional (d + 1) slot
  refine Format.Faithful.map ?_ rfl
  exact Format.faithful_record "DeserStableGraph" hrow (by decide)

end Blueprint

/-- An arena that is built again from its own blueprint is read back. -/
theorem Arena.faithful_of_build (d : Nat) {a : Arena} (h : a.blueprint.build = .ok a) :
    format.Faithful (d + 5) a := by
  have hcheck : ofBlueprint a.blueprint = .ok a := by
    unfold ofBlueprint
    rw [h]
    rfl
  have hrow : row.Faithful (d + 4) (a, ()) := ⟨(Blueprint.faithful d a.blueprint).refine hcheck, trivial⟩
  refine Format.Faithful.map ?_ rfl
  exact Format.faithful_record "DependenceGraph" hrow (by decide)

end Dependence
