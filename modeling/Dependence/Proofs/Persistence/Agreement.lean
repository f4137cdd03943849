import Dependence.Persistence
import Dependence.Proofs.Format.Order
import Dependence.Proofs.Format.Outlining
import Dependence.Proofs.Format.Rereading
import Dependence.Proofs.Json.Blanks

/-! # The reader of texts and the reader of trees agree

Where a text has a tree, the two readers of a format accept the same and make the same of it (`Format.Agrees`).  There
are two liberties.  A reader of texts passes over the members that are no fields without asking what they mean, so it also
accepts texts that have no tree.  And a text may give the content of a variant as an array, which a tree may not.

A format keeps three things of the formats that it is made from (`Format.Coherent`): whatever is read has an outline
(`Format.Outlined`), whatever has a tree is read again (`Format.Rereads`), and the order of members means nothing
(`Format.Orderless`).  From these three the readers agree (`Format.Coherent.agrees`), so what remains for a format is to
say where its records are. -/

namespace Dependence

namespace Format

variable {α : Type} {f : Format α} {layout : Layout}

/-- The two readers of a format agree. -/
structure Agrees (f : Format α) (layout : Layout) : Prop where
  /-- What is read from the tree of a text is read from the text, if no object of the tree repeats a name. -/
  parse_of_ofJson : ∀ {t v x}, Json.parse t = .ok v → v.Distinct → f.ofJson v = .ok x → f.parse t = .ok x
  /-- What is read from a text is read from its tree, if no content of a variant is given as an array. -/
  ofJson_of_parse : ∀ {t v x}, Json.parse t = .ok v → layout.Plain v → f.parse t = .ok x → f.ofJson v = .ok x
  /-- Texts whose trees differ in the order of members only are read alike. -/
  parse_iff_of_sorted_eq : ∀ {t t' v v'}, Json.parse t = .ok v → Json.parse t' = .ok v' → v.Distinct → v'.Distinct →
    layout.Plain v → layout.Plain v' → v.sorted = v'.sorted → ∀ x, f.parse t = .ok x ↔ f.parse t' = .ok x
  /-- Texts that differ only in blanks outside their strings are read alike. -/
  parse_iff_of_tight_eq : ∀ {t t' v v'}, Json.parse t = .ok v → Json.parse t' = .ok v' → v.Distinct →
    layout.Plain v → Json.tight t = Json.tight t' → ∀ x, f.parse t = .ok x ↔ f.parse t' = .ok x
  /-- No text is read in which a record has a field twice, whether it has a tree or not. -/
  once_of_parse : ∀ {t x}, f.parse t = .ok x → ∃ v, Json.outline t = .ok v ∧ layout.Once v

theorem Outlined.ofJson_of_parse (h : f.Outlined layout) {t : String} {v : Json} {x : α} (hv : Json.parse t = .ok v)
    (hplain : layout.Plain v) (hx : f.parse t = .ok x) : f.ofJson v = .ok x := by
  obtain ⟨rest, hread, -⟩ := Scan.whole_eq_ok_iff.mp hx
  obtain ⟨rest', hscan, -⟩ := Scan.whole_eq_ok_iff.mp hv
  obtain ⟨w, hw, -, hagree⟩ := h.outlined hread
  rw [Json.sketch_of_scan hscan] at hw
  cases hw
  exact hagree hplain

theorem Rereads.parse_of_ofJson (h : f.Rereads) {t : String} {v : Json} {x : α} (hv : Json.parse t = .ok v)
    (hdistinct : v.Distinct) (hx : f.ofJson v = .ok x) : f.parse t = .ok x := by
  obtain ⟨rest, hscan, hrest⟩ := Scan.whole_eq_ok_iff.mp hv
  exact Scan.whole_eq_ok_iff.mpr ⟨rest, h.reread hscan hdistinct hx, hrest⟩

/-- What the readers of a format have to keep. -/
structure Coherent (f : Format α) (layout : Layout) : Prop where
  outlined : f.Outlined layout
  rereads : f.Rereads
  orderless : Orderless f.ofJson

theorem Coherent.agrees (h : f.Coherent layout) : f.Agrees layout := by
  have halike : ∀ {t t' v v' x}, Json.parse t = .ok v → Json.parse t' = .ok v' → v'.Distinct → layout.Plain v →
      v.sorted = v'.sorted → f.parse t = .ok x → f.parse t' = .ok x := by
    intro t t' v v' x hv hv' hdistinct hplain hsorted hx
    have hread := h.outlined.ofJson_of_parse hv hplain hx
    rw [← h.orderless v, hsorted, h.orderless v'] at hread
    exact h.rereads.parse_of_ofJson hv' hdistinct hread
  refine ⟨h.rereads.parse_of_ofJson, h.outlined.ofJson_of_parse, ?_, ?_, ?_⟩
  · intro t t' v v' hv hv' hdistinct hdistinct' hplain hplain' hsorted x
    exact ⟨halike hv hv' hdistinct' hplain hsorted, halike hv' hv hdistinct hplain' hsorted.symm⟩
  · intro t t' v v' hv hv' hdistinct hplain htight x
    have hsame := Json.parse_tight hv'
    rw [← htight, Json.parse_tight hv] at hsame
    cases hsame
    exact ⟨halike hv hv' hdistinct hplain rfl, halike hv' hv hdistinct hplain rfl⟩
  · intro t x hx
    obtain ⟨rest, hread, hrest⟩ := Scan.whole_eq_ok_iff.mp hx
    obtain ⟨v, hv, honce, -⟩ := h.outlined.outlined hread
    exact ⟨v, Scan.whole_eq_ok_iff.mpr ⟨rest, hv, hrest⟩, honce⟩

end Format

/-! ### Coherent formats -/

namespace Row

/-- The formats of the fields are coherent. -/
def Coherent {ρ π : Type} : Row ρ π → List (String × Layout) → Prop
  | .nil, [] => True
  | .nil, _ :: _ => False
  | .cons _ _ _ _ _, [] => False
  | .cons name format _ _ rest, (other, layout) :: fields =>
      other = name ∧ format.Coherent layout ∧ rest.Coherent fields

variable {fields : List (String × Layout)}

theorem Coherent.outlined {ρ π : Type} : ∀ {row : Row ρ π} {fields : List (String × Layout)}, row.Coherent fields →
    row.Outlined fields
  | .nil, [], _ => trivial
  | .nil, _ :: _, h => h.elim
  | .cons _ _ _ _ _, [], h => h.elim
  | .cons _ _ _ _ _, _ :: _, h => ⟨h.1, h.2.1.outlined, h.2.2.outlined⟩

theorem Coherent.rereads {ρ π : Type} : ∀ {row : Row ρ π} {fields : List (String × Layout)}, row.Coherent fields →
    row.Rereads
  | .nil, _, _ => trivial
  | .cons _ _ _ _ _, [], h => h.elim
  | .cons _ _ _ _ _, _ :: _, h => ⟨h.2.1.rereads, h.2.2.rereads⟩

theorem Coherent.orderless {ρ π : Type} : ∀ {row : Row ρ π} {fields : List (String × Layout)}, row.Coherent fields →
    row.Orderless
  | .nil, _, _ => trivial
  | .cons _ _ _ _ _, [], h => h.elim
  | .cons _ _ _ _ _, _ :: _, h => ⟨h.2.1.orderless, h.2.2.orderless⟩

end Row

namespace Format

variable {α β ρ π : Type} {f : Format α} {layout : Layout} {row : Row ρ π} {fields : List (String × Layout)}

theorem coherent_word : word.Coherent .leaf := ⟨outlined_word, rereads_word, orderless_word⟩

theorem coherent_boolean : boolean.Coherent .leaf := ⟨outlined_boolean, rereads_boolean, orderless_boolean⟩

theorem coherent_string : string.Coherent .leaf := ⟨outlined_string, rereads_string, orderless_string⟩

theorem Coherent.map (h : f.Coherent layout) {make : α → β} {parts : β → α} : (f.map make parts).Coherent layout :=
  ⟨outlined_map h.outlined make parts, rereads_map h.rereads make parts, orderless_map h.orderless make parts⟩

theorem Coherent.refine (h : f.Coherent layout) {check : α → Except String β} {parts : β → α} :
    (f.refine check parts).Coherent layout :=
  ⟨outlined_refine h.outlined check parts, rereads_refine h.rereads check parts,
    orderless_refine h.orderless check parts⟩

theorem Coherent.optional (h : f.Coherent .leaf) : f.optional.Coherent .leaf :=
  ⟨outlined_optional h.outlined, rereads_optional h.rereads, orderless_optional h.orderless⟩

theorem Coherent.list (h : f.Coherent layout) : f.list.Coherent (.list layout) :=
  ⟨outlined_list h.outlined, rereads_list h.rereads h.outlined.progress, orderless_list h.orderless⟩

theorem Coherent.plainList (h : f.Coherent .leaf) : f.list.Coherent .leaf := by
  rw [← Layout.list_leaf]
  exact h.list

theorem coherent_record {title : String} (h : row.Coherent fields) (hnodup : row.names.Nodup) :
    (record title row).Coherent (.record false fields) :=
  ⟨outlined_record title h.outlined hnodup, rereads_record title h.rereads hnodup, orderless_record title h.orderless⟩

theorem coherent_tuple (h : row.Coherent (Layout.leaves row.names)) : (tuple row).Coherent .leaf :=
  ⟨outlined_tuple h.outlined, rereads_tuple h.rereads, orderless_tuple h.orderless⟩

end Format

namespace Branch

variable {α ρ π : Type} {row : Row ρ π} {fields : List (String × Layout)}

/-- What the readers of a variant have to keep. -/
structure Coherent (branch : Branch α) (layout : Layout) : Prop where
  outlined : branch.Outlined layout
  rereads : branch.Rereads
  orderless : Format.Orderless branch.ofJson

theorem coherent_constant (name : String) (x : α) : (constant name x).Coherent .leaf :=
  ⟨outlined_constant name x, rereads_constant name x, orderless_constant name x⟩

theorem coherent_record {type name : String} {make : ρ → α} (h : row.Coherent fields) (hnodup : row.names.Nodup) :
    (record type name row make).Coherent (.record true fields) :=
  ⟨outlined_record type name make h.outlined hnodup, rereads_record type name make h.rereads hnodup,
    orderless_record type name make h.orderless⟩

end Branch

namespace Format

variable {α : Type} {branches : List (Branch α)} {write : α → Json} {variants : List (String × Layout)}

theorem coherent_choice (h : ∀ branch ∈ branches, branch.Coherent (Layout.ofName variants branch.name))
    (hnodup : (branches.map Branch.name).Nodup) : (choice branches write).Coherent (.choice variants) :=
  ⟨outlined_choice (fun branch hmem => (h branch hmem).outlined) hnodup,
    rereads_choice (fun branch hmem => (h branch hmem).rereads) hnodup,
    orderless_choice (fun branch hmem => (h branch hmem).orderless) hnodup⟩

theorem coherent_names (h : ∀ branch ∈ branches, branch.Coherent .leaf) (hnodup : (branches.map Branch.name).Nodup) :
    (choice branches write).Coherent .leaf := by
  rw [← Layout.choice_nil]
  exact coherent_choice h hnodup

end Format

/-! ### Identities, declarations and calls -/

theorem Id.coherent {e : Entity} : (@Id.format e).Coherent .leaf := Format.coherent_word.map

/-- A declaration is a record of plain values. -/
def Declaration.layout : Layout := .record false (Layout.leaves row.names)

theorem Declaration.coherent : format.Coherent layout := by
  refine (Format.coherent_record ?_ (by decide)).map
  exact ⟨rfl, Id.coherent, rfl, Format.coherent_string, rfl, Id.coherent.plainList, rfl, Format.coherent_boolean,
    trivial⟩

/-- A call is a record of plain values. -/
def Call.layout : Layout := .record false (Layout.leaves row.names)

theorem Call.coherent : format.Coherent layout := by
  refine (Format.coherent_record ?_ (by decide)).map
  exact ⟨rfl, Id.coherent, rfl, Id.coherent.optional, trivial⟩

/-! ### Payloads and kinds -/

/-- The content of every variant of a payload is a record of plain values. -/
def Payload.layout : Layout :=
  .choice [("FormalArgument", .record true (Layout.leaves formalRow.names)),
    ("Value", .record true (Layout.leaves valueRow.names)), ("VarArg", .record true (Layout.leaves variadicRow.names)),
    ("Synthetic", .record true (Layout.leaves syntheticRow.names))]

theorem Payload.coherent : format.Coherent layout := by
  refine Format.coherent_choice ?_ (by decide)
  intro branch hmem
  simp only [branches, List.mem_cons, List.not_mem_nil, or_false] at hmem
  rcases hmem with rfl | rfl | rfl | rfl
  · exact Branch.coherent_record ⟨rfl, Id.coherent, rfl, Id.coherent, trivial⟩ (by decide)
  · exact Branch.coherent_record ⟨rfl, Id.coherent, trivial⟩ (by decide)
  · exact Branch.coherent_record ⟨rfl, Id.coherent, trivial⟩ (by decide)
  · exact Branch.coherent_record ⟨rfl, Format.coherent_string, trivial⟩ (by decide)

theorem Kind.coherent : format.Coherent .leaf := by
  refine Format.coherent_names ?_ (by decide)
  intro branch hmem
  simp only [branches, List.mem_cons, List.not_mem_nil, or_false] at hmem
  rcases hmem with rfl | rfl | rfl
  · exact Branch.coherent_constant _ _
  · exact Branch.coherent_constant _ _
  · exact Branch.coherent_constant _ _

/-! ### Arenas -/

theorem Edge.coherent : format.Coherent .leaf := by
  refine (Format.coherent_tuple ?_).map
  exact ⟨rfl, Id.coherent, rfl, Id.coherent, rfl, Kind.coherent, trivial⟩

namespace Blueprint

theorem coherent_direction : directionFormat.Coherent .leaf := by
  refine Format.coherent_names ?_ (by decide)
  intro branch hmem
  simp only [List.mem_cons, List.not_mem_nil, or_false] at hmem
  rcases hmem with rfl | rfl
  · exact Branch.coherent_constant _ _
  · exact Branch.coherent_constant _ _

/-- A blueprint is a record, one field of which is a list of payloads. -/
def layout : Layout :=
  .record false [("nodes", .list Payload.layout), ("node_holes", .leaf), ("edge_property", .leaf), ("edges", .leaf)]

theorem coherent : format.Coherent layout := by
  refine (Format.coherent_record ?_ (by decide)).map
  exact ⟨rfl, Payload.coherent.list, rfl, Id.coherent.plainList, rfl, coherent_direction, rfl,
    Edge.coherent.optional.plainList, trivial⟩

end Blueprint

/-- An arena is a record, the field of which is a blueprint. -/
def Arena.layout : Layout := .record false [("graph", Blueprint.layout)]

theorem Arena.coherent : format.Coherent layout := by
  refine (Format.coherent_record ?_ (by decide)).map
  exact ⟨rfl, Blueprint.coherent.refine, trivial⟩

namespace Format

/-- The readers of texts and of trees agree on identities, declarations, calls, payloads, kinds of dependence and
arenas.  The outline of a text, in which no record has a field twice, is its tree if it has one; and in a declaration or
a call there are no variants. -/
theorem agrees_persisted :
    (∀ e : Entity, (@Id.format e).Agrees .leaf) ∧ Declaration.format.Agrees Declaration.layout ∧
      Call.format.Agrees Call.layout ∧ Payload.format.Agrees Payload.layout ∧ Kind.format.Agrees .leaf ∧
      Arena.format.Agrees Arena.layout ∧ (∀ t v, Json.parse t = .ok v → Json.outline t = .ok v) ∧
      ∀ v, Layout.leaf.Plain v ∧ Declaration.layout.Plain v ∧ Call.layout.Plain v :=
  ⟨fun _ => Id.coherent.agrees, Declaration.coherent.agrees, Call.coherent.agrees, Payload.coherent.agrees,
    Kind.coherent.agrees, Arena.coherent.agrees, fun _ _ => Json.outline_of_parse,
    fun v => ⟨Layout.all_leaf v, Layout.plain_leaves _ v, Layout.plain_leaves _ v⟩⟩

/-- A tree that names a parameter by its function and its argument, in this order or in the other one. -/
def parameterTree (members : List (String × UInt32)) : Json :=
  .object [("FormalArgument", .object (members.map fun member => (member.1, .number (.integer member.2.toNat))))]

theorem parse_parameterTree (members : List (String × UInt32)) :
    Json.parse (parameterTree members).text = .ok (parameterTree members) := by
  have hfits : (parameterTree members).Fits (125 + 2) := by
    refine .object (List.forall_mem_singleton.mpr (.object (List.forall_mem_map.mpr ?_)))
    exact fun member _ => .natural (Nat.lt_trans member.2.toNat_lt (by decide))
  exact hfits.parse_text

theorem sorted_parameterTree (f x : UInt32) : (parameterTree [("function", f), ("arg", x)]).sorted =
    (parameterTree [("arg", x), ("function", f)]).sorted := by
  simp +decide only [parameterTree, List.map_cons, List.map_nil, Json.sorted, Json.sortedMembers, Json.fields,
    List.foldl_cons, List.foldl_nil, Json.insertField, if_true, if_false]

theorem distinct_parameterTree {members : List (String × UInt32)} (h : (members.map Prod.fst).Nodup) :
    (parameterTree members).Distinct := by
  refine .object (List.nodup_singleton _) (List.forall_mem_singleton.mpr (.object ?_ ?_))
  · rwa [List.map_map]
  · exact List.forall_mem_map.mpr fun member _ => .number _

theorem plain_parameterTree (members : List (String × UInt32)) : Payload.layout.Plain (parameterTree members) := by
  refine Layout.all_ofMembers_iff.mpr ?_
  intro name v hmem
  obtain ⟨rfl, rfl⟩ := Prod.mk.inj (List.mem_singleton.mp hmem)
  refine Layout.all_record_object_iff.mpr ⟨fun _ items h => Json.noConfusion h, fun name v _ => ?_⟩
  rw [Layout.ofName_leaves]
  exact Layout.all_leaf v

/-- A payload with its members in one order, in the other one, and with blanks between them.  The first text is read
because its tree is, each other text because the one before it is, and the second tree because its text is. -/
theorem agrees_persisted_parameter :
    let function := ("function", 1)
    let argument := ("arg", 2)
    let spaced := " \x7b\"FormalArgument\": \x7b\"arg\": 2, \"function\": 1\x7d\x7d"
    let texts := [(parameterTree [function, argument]).text, (parameterTree [argument, function]).text, spaced]
    (∀ t ∈ texts, Payload.format.parse t = .ok (.formal ⟨1⟩ ⟨2⟩)) ∧
      Payload.format.ofJson (parameterTree [argument, function]) = .ok (.formal ⟨1⟩ ⟨2⟩) ∧
      ∀ t ∈ texts, ∃ v, Json.outline t = .ok v ∧ Payload.layout.Once v := by
  intro function argument spaced texts
  obtain ⟨-, -, -, hagrees, -⟩ := agrees_persisted
  have hdistinct : (parameterTree [function, argument]).Distinct := distinct_parameterTree (by decide)
  have hdistinct' : (parameterTree [argument, function]).Distinct := distinct_parameterTree (by decide)
  have hblanks : (Json.parse spaced).isOk = true := by decide +kernel
  obtain ⟨v, hv⟩ : ∃ v, Json.parse spaced = .ok v := by
    cases hparse : Json.parse spaced with
    | ok v => exact ⟨v, rfl⟩
    | error e =>
        rw [hparse] at hblanks
        cases hblanks
  have hread := hagrees.parse_of_ofJson (parse_parameterTree [function, argument]) hdistinct (x := .formal ⟨1⟩ ⟨2⟩)
    (by decide +kernel)
  have hread' := (hagrees.parse_iff_of_sorted_eq (parse_parameterTree _) (parse_parameterTree _) hdistinct hdistinct'
    (plain_parameterTree _) (plain_parameterTree _) (sorted_parameterTree 1 2) _).mp hread
  have hread'' := (hagrees.parse_iff_of_tight_eq (parse_parameterTree _) hv hdistinct' (plain_parameterTree _)
    (by decide +kernel) _).mp hread'
  have hall : ∀ t ∈ texts, Payload.format.parse t = .ok (.formal ⟨1⟩ ⟨2⟩) := by
    simp [texts, hread, hread', hread'']
  exact ⟨hall, hagrees.ofJson_of_parse (parse_parameterTree _) (plain_parameterTree _) hread',
    fun t ht => hagrees.once_of_parse (hall t ht)⟩

/-- A number that is out of range makes no difference in a member that is no field. -/
example : Payload.format.parse "\x7b\"Value\": \x7b\"size\": 1e999, \"value\": 7\x7d\x7d" = .ok (.value ⟨7⟩) := by
  decide +kernel

end Format
end Dependence
