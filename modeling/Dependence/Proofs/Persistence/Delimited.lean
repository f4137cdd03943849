import Dependence.Proofs.Arena.NormalForm
import Dependence.Proofs.Format.Cutting

/-! # Texts are read as a whole

A format is delimited if its texts say where they end: what is written for a value is found cut short wherever it is
cut, and to a text that is read nothing can be added but blanks.

The formats of declarations, calls, payloads, kinds of dependence and arenas are delimited
(`Format.delimited_persisted`).  For an arena the text must be one that is read: that it describes an arena is checked
when its blueprint is complete, before the last brace. -/

namespace Dependence
namespace Format

variable {α : Type}

/-- Of the text of a value no strict prefix is read, and each is found cut short; to a text that is read only blanks
can be added, and they do not change what is read. -/
structure Delimited (f : Format α) (Whole : α → Prop) : Prop where
  parse_of_cut : ∀ x, Whole x → ∀ p q : String, p ++ q = f.text x → q ≠ "" → f.parse p = .error .truncated
  parse_append_iff : ∀ t x, f.parse t = .ok x → ∀ s y,
    f.parse (t ++ s) = .ok y ↔ (∀ c ∈ s.toList, Scan.isBlank c = true) ∧ y = x

theorem delimited_of_snaps {f : Format α} {Whole : α → Prop} (hclosed : Scan.Closed f.scan)
    (hsnaps : ∀ x, Whole x → f.scan.Snaps (f.write x).compact) : f.Delimited Whole := by
  constructor
  · intro x hx p q hpq hq
    have htext : p.toList ++ q.toList = (f.write x).compact := by
      rw [← String.toList_append, hpq]
      exact String.toList_ofList
    have hrest : q.toList ≠ [] := fun h => hq (String.toList_eq_nil_iff.mp h)
    unfold parse Scan.whole
    rw [hsnaps x hx p.toList q.toList htext hrest]
    rfl
  · exact fun t x ht => f.parse_append_iff hclosed ht

end Format

/-! ### Declarations and calls -/

theorem Id.local_scan {e : Entity} : Scan.Local (@Id.format e).scan := Format.local_map Format.local_word Id.mk Id.word

theorem Id.frays {e : Entity} (x : Id e) : (@Id.format e).scan.Frays ((@Id.format e).write x).compact :=
  (Format.frays_word x.word).map Id.mk

theorem Declaration.closed_scan : Scan.Closed format.scan := by
  have hrow : row.Local := ⟨Id.local_scan, Format.closed_string.local, (Format.closed_list Id.local_scan).local,
    Format.closed_boolean.local, trivial⟩
  exact Format.closed_map (Format.closed_record "FunctionDecl" hrow) _ _

theorem Declaration.snaps (x : Declaration) : format.scan.Snaps (format.write x).compact := by
  have hparams : ∀ param ∈ x.params, (@Id.format .argument).Faithful 0 param := fun param _ => Id.faithful 0 param
  have hf : row.Faithful 1 (x.id, x.name, x.params, x.isVariadic, ()) :=
    ⟨Id.faithful 1 x.id, Format.faithful_string 1 x.name, Format.faithful_list hparams,
      Format.faithful_boolean 1 x.isVariadic, trivial⟩
  have hfrays : row.Frays (x.id, x.name, x.params, x.isVariadic, ()) := by
    refine ⟨Id.frays x.id, ?_, ?_, ?_, trivial⟩
    · exact (Format.faithful_string 0 x.name).frays (Format.snaps_string x.name)
    · exact (Format.faithful_list hparams).frays (Format.snaps_list hparams fun param _ => Id.frays param)
    · exact (Format.faithful_boolean 0 x.isVariadic).frays (Format.snaps_boolean x.isVariadic)
  exact (Format.snaps_record "FunctionDecl" hf hfrays (by decide)).andThen _

theorem Call.closed_scan : Scan.Closed format.scan := by
  have hrow : row.Local := ⟨Id.local_scan, Format.local_optional Id.local_scan, trivial⟩
  exact Format.closed_map (Format.closed_record "CallSite" hrow) _ _

theorem Call.frays_callee : ∀ callee : Option (Id .function),
    (@Id.format .function).optional.scan.Frays ((@Id.format .function).optional.write callee).compact
  | none => Format.frays_none rfl
  | some f => Format.frays_some rfl (Id.faithful 0 f).accepts.begins (Format.head?_compact_word f.word) (Id.frays f)

theorem Call.snaps (c : Call) : format.scan.Snaps (format.write c).compact := by
  have hf : row.Faithful 0 (c.instruction, c.callee, ()) :=
    ⟨Id.faithful 0 c.instruction, Call.faithful_callee 0 c.callee, trivial⟩
  have hfrays : row.Frays (c.instruction, c.callee, ()) := ⟨Id.frays c.instruction, Call.frays_callee c.callee, trivial⟩
  exact (Format.snaps_record "CallSite" hf hfrays (by decide)).andThen _

/-! ### Payloads, kinds and edges -/

theorem Payload.closed_scan : Scan.Closed format.scan := by
  refine Format.closed_choice ?_
  intro branch hmem
  simp only [branches, List.mem_cons, List.not_mem_nil, or_false] at hmem
  obtain rfl | rfl | rfl | rfl := hmem
  · exact Branch.local_record _ _ _ ⟨Id.local_scan, Id.local_scan, trivial⟩
  · exact Branch.local_record _ _ _ ⟨Id.local_scan, trivial⟩
  · exact Branch.local_record _ _ _ ⟨Id.local_scan, trivial⟩
  · exact Branch.local_record _ _ _ ⟨Format.closed_string.local, trivial⟩

theorem Payload.snaps : ∀ p : Payload, format.scan.Snaps (format.write p).compact
  | formal f a =>
      Format.snaps_choice_of_record rfl rfl ⟨Id.faithful 0 f, Id.faithful 0 a, trivial⟩ ⟨Id.frays f, Id.frays a, trivial⟩
        (by decide)
  | value v => Format.snaps_choice_of_record rfl rfl ⟨Id.faithful 0 v, trivial⟩ ⟨Id.frays v, trivial⟩ (by decide)
  | variadic f => Format.snaps_choice_of_record rfl rfl ⟨Id.faithful 0 f, trivial⟩ ⟨Id.frays f, trivial⟩ (by decide)
  | synthetic label => by
      have hfaithful := Format.faithful_string 0 label
      exact Format.snaps_choice_of_record rfl rfl ⟨hfaithful, trivial⟩
        ⟨hfaithful.frays (Format.snaps_string label), trivial⟩ (by decide)

theorem Kind.closed_scan : Scan.Closed format.scan := by
  refine Format.closed_choice ?_
  intro branch hmem
  simp only [branches, List.mem_cons, List.not_mem_nil, or_false] at hmem
  obtain rfl | rfl | rfl := hmem
  · exact Branch.local_constant _ _
  · exact Branch.local_constant _ _
  · exact Branch.local_constant _ _

theorem Kind.snaps (k : Kind) : format.scan.Snaps (format.write k).compact := Format.snaps_choice_of_alone rfl

theorem Edge.closed_scan : Scan.Closed format.scan := by
  have hrow : row.Local := ⟨Id.local_scan, Id.local_scan, Kind.closed_scan.local, trivial⟩
  exact Format.closed_map (Format.closed_tuple hrow) _ _

theorem Edge.frays (edge : Edge) : format.scan.Frays (format.write edge).compact := by
  have hf : row.Faithful 0 (edge.source, edge.target, edge.kind, ()) :=
    ⟨Id.faithful 0 edge.source, Id.faithful 0 edge.target, Kind.faithful 0 edge.kind, trivial⟩
  have hfrays : row.Frays (edge.source, edge.target, edge.kind, ()) :=
    ⟨Id.frays edge.source, Id.frays edge.target, (Kind.faithful 0 edge.kind).frays (Kind.snaps edge.kind), trivial⟩
  exact (Edge.faithful 0 edge).frays ((Format.snaps_tuple hf hfrays).andThen _)

theorem Edge.frays_optional : ∀ slot : Option Edge,
    format.optional.scan.Frays (format.optional.write slot).compact
  | none => Format.frays_none rfl
  | some edge => by
      refine Format.frays_some rfl (Edge.faithful 0 edge).accepts.begins ?_ (Edge.frays edge)
      show some '[' ≠ some 'n'
      decide

/-! ### Blueprints and arenas -/

namespace Blueprint

theorem closed_direction : Scan.Closed directionFormat.scan := by
  refine Format.closed_choice ?_
  intro branch hmem
  simp only [List.mem_cons, List.not_mem_nil, or_false] at hmem
  obtain rfl | rfl := hmem
  · exact Branch.local_constant _ _
  · exact Branch.local_constant _ _

theorem closed_scan : Scan.Closed format.scan := by
  have hrow : row.Local := by
    refine ⟨(Format.closed_list Payload.closed_scan.local).local, (Format.closed_list Id.local_scan).local,
      closed_direction.local, ?_, trivial⟩
    exact (Format.closed_list (Format.local_optional Edge.closed_scan.local)).local
  exact Format.closed_map (Format.closed_record "DeserStableGraph" hrow) _ _

theorem snaps (b : Blueprint) : format.scan.Snaps (format.write b).compact := by
  have hnodes : ∀ payload ∈ b.nodes, Payload.format.Faithful 2 payload := fun payload _ => Payload.faithful 0 payload
  have hholes : ∀ hole ∈ b.holes, (@Id.format .node).Faithful 2 hole := fun hole _ => Id.faithful 2 hole
  have hedges : ∀ slot ∈ b.edges, Edge.format.optional.Faithful 2 slot := fun slot _ => Edge.faithful_optional 1 slot
  have hf : row.Faithful 3 (b.nodes, b.holes, b.isDirected, b.edges, ()) :=
    ⟨Format.faithful_list hnodes, Format.faithful_list hholes, faithful_direction 3 b.isDirected,
      Format.faithful_list hedges, trivial⟩
  have hfrays : row.Frays (b.nodes, b.holes, b.isDirected, b.edges, ()) := by
    refine ⟨?_, ?_, ?_, ?_, trivial⟩
    · refine (Format.faithful_list hnodes).frays (Format.snaps_list hnodes fun payload hmem => ?_)
      exact (hnodes payload hmem).frays (Payload.snaps payload)
    · exact (Format.faithful_list hholes).frays (Format.snaps_list hholes fun hole _ => Id.frays hole)
    · exact (faithful_direction 3 b.isDirected).frays (Format.snaps_choice_of_alone rfl)
    · exact (Format.faithful_list hedges).frays (Format.snaps_list hedges fun slot _ => Edge.frays_optional slot)
  exact (Format.snaps_record "DeserStableGraph" hf hfrays (by decide)).andThen _

end Blueprint

namespace Arena

theorem closed_scan : Scan.Closed format.scan := by
  have hrow : row.Local := ⟨(Format.closed_refine Blueprint.closed_scan _ _).local, trivial⟩
  exact Format.closed_map (Format.closed_record "DependenceGraph" hrow) _ _

/-- The text of an arena that is read as another one is what would be written for that one under the first one's
blueprint. -/
theorem snaps {a b : Arena} (h : format.parse a.dump = .ok b) : format.scan.Snaps (format.write a).compact := by
  have hcheck : ofBlueprint a.blueprint = .ok b := by
    rw [a.reloads_blueprint.parse] at h
    exact mapError_eq_ok_iff.mp (mapError_eq_ok_iff.mp h)
  have hblueprint : (Blueprint.format.refine ofBlueprint fun _ => a.blueprint).Faithful 4 b := by
    refine Format.Faithful.refine ?_ hcheck
    exact Blueprint.faithful 0 a.blueprint
  have hsnaps : (Blueprint.format.refine ofBlueprint fun _ => a.blueprint).scan.Snaps
      (Blueprint.format.write a.blueprint).compact :=
    (Blueprint.snaps a.blueprint).andThen _
  have hf : Row.Faithful (.field "graph" (Blueprint.format.refine ofBlueprint fun _ => a.blueprint) .nil) 4 (b, ()) :=
    ⟨hblueprint, trivial⟩
  have hfrays : Row.Frays (.field "graph" (Blueprint.format.refine ofBlueprint fun _ => a.blueprint) .nil) (b, ()) :=
    ⟨hblueprint.frays hsnaps, trivial⟩
  have hrecord := Format.snaps_record "DependenceGraph" hf hfrays (List.nodup_singleton "graph")
  exact hrecord.andThen _

end Arena

namespace Format

/-- No text of a declaration, a call, a payload, a kind of dependence or an arena is read before it is complete, and none
is read if something else follows it. -/
theorem delimited_persisted :
    (Declaration.format.Delimited fun _ => True) ∧ (Call.format.Delimited fun _ => True) ∧
      (Payload.format.Delimited fun _ => True) ∧ (Kind.format.Delimited fun _ => True) ∧
      Arena.format.Delimited fun a => ∃ b, Arena.format.parse a.dump = .ok b := by
  refine ⟨?_, ?_, ?_, ?_, ?_⟩
  · exact delimited_of_snaps Declaration.closed_scan fun d _ => d.snaps
  · exact delimited_of_snaps Call.closed_scan fun c _ => c.snaps
  · exact delimited_of_snaps Payload.closed_scan fun p _ => p.snaps
  · exact delimited_of_snaps Kind.closed_scan fun k _ => k.snaps
  · refine delimited_of_snaps Arena.closed_scan fun a h => ?_
    obtain ⟨b, hb⟩ := h
    exact Arena.snaps hb

/-- A label is found cut short in the middle of an escape, and an arena before its last brace, where its blueprint has
been checked already.  To the text of the label a line break can be added, and no comma. -/
theorem delimited_persisted_label :
    let label := Payload.synthetic "a\n"
    let text := "\x7b\"Synthetic\":\x7b\"label\":\"a\\n\"\x7d\x7d"
    Payload.format.parse "\x7b\"Synthetic\":\x7b\"label\":\"a\\" = .error .truncated ∧
      Arena.format.parse ("\x7b\"graph\":\x7b\"nodes\":[" ++ text ++
        "],\"node_holes\":[],\"edge_property\":\"directed\",\"edges\":[]\x7d") = .error .truncated ∧
      Payload.format.parse (text ++ "\n") = .ok label ∧ Payload.format.parse (text ++ ",") ≠ .ok label := by
  intro label text
  obtain ⟨-, -, hpayload, -, harena⟩ := delimited_persisted
  let arena := Arena.empty.addNode label
  have hread : Payload.format.parse text = .ok label := by decide +kernel
  have hreload : Arena.format.parse arena.dump = .ok arena := by decide +kernel
  refine ⟨?_, ?_, ?_, ?_⟩
  · exact hpayload.parse_of_cut label trivial _ "n\"\x7d\x7d" (by decide +kernel) (by decide)
  · exact harena.parse_of_cut arena ⟨arena, hreload⟩ _ "\x7d" (by decide +kernel) (by decide)
  · exact (hpayload.parse_append_iff text label hread "\n" label).mpr ⟨by simp [Scan.isBlank], rfl⟩
  · intro hcomma
    obtain ⟨hblank, -⟩ := (hpayload.parse_append_iff text label hread "," label).mp hcomma
    cases hblank ',' (by decide)

end Format
end Dependence
