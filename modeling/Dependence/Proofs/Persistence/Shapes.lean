import Dependence.Persistence
import Dependence.Proofs.Format.Trees

/-! # The trees that are read

Which trees are read as which identity, declaration, call, payload or kind of dependence.  An identity is an
integer in the range of words (`Id.tree`).  The relations `Declaration.Spelt`, `Call.Spelt`, `Payload.Spelt`
and `Kind.Spelt` list the shapes of the others: what has fields is an object with these fields and any others, or
an array of just these fields in their order; what has variants is the name of a variant, or an object whose
only member has that name.  The readers accept these trees and no others, and read what is spelt there.

Of an object that is refused, they report what is to blame among its fields (`Row.Blames`). -/

namespace Dependence

/-! ### Plain values -/

namespace Format

theorem wordOf_eq_ok_iff {n : Number} {w : UInt32} : wordOf n = .ok w ↔ n = .integer w.toNat := by
  constructor
  · intro h
    unfold wordOf at h
    split at h
    · split at h
      · rename_i i hi
        obtain ⟨m, rfl⟩ := Int.eq_ofNat_of_zero_le hi.1
        have hm : m < UInt32.size := by exact_mod_cast hi.2
        rw [← Except.ok.inj h, Int.toNat_natCast, UInt32.toNat_ofNat_of_lt' hm]
      · cases h
    · cases h
  · rintro rfl
    exact wordOf_toNat w

theorem word_ofJson_eq_ok_iff {v : Json} {w : UInt32} :
    word.ofJson v = .ok w ↔ v = .number (.integer w.toNat) := by
  cases v <;> simp [word, wordOf_eq_ok_iff]

theorem string_ofJson_eq_ok_iff {v : Json} {s : String} : string.ofJson v = .ok s ↔ v = .string s := by
  constructor
  · intro h
    cases v with
    | string t => exact congrArg Json.string (Except.ok.inj h)
    | _ => cases h
  · rintro rfl
    rfl

theorem boolean_ofJson_eq_ok_iff {v : Json} {b : Bool} : boolean.ofJson v = .ok b ↔ v = .boolean b := by
  constructor
  · intro h
    cases v with
    | boolean c => exact congrArg Json.boolean (Except.ok.inj h)
    | _ => cases h
  · rintro rfl
    rfl

theorem unit_ofJson_eq_ok_iff {v : Json} {u : Unit} : unit.ofJson v = .ok u ↔ v = .null := by
  constructor
  · intro h
    cases v with
    | null => rfl
    | _ => cases h
  · rintro rfl
    rfl

/-- A value is read from the trees of its parts, where it is nothing but these. -/
theorem map_ofJson_eq_ok_iff {α β : Type} {f : Format α} {make : α → β} {parts : β → α}
    (hmake : Function.LeftInverse make parts) (hparts : Function.LeftInverse parts make) {v : Json} {y : β} :
    (f.map make parts).ofJson v = .ok y ↔ f.ofJson v = .ok (parts y) := by
  refine map_eq_ok_iff.trans ?_
  constructor
  · rintro ⟨x, hx, rfl⟩
    rwa [hparts x]
  · exact fun h => ⟨parts y, h, hmake y⟩

end Format

/-! ### Identities -/

namespace Id

variable {e : Entity}

/-- An identity in a tree. -/
def tree (x : Id e) : Json := .number (.integer x.index)

theorem exists_eq_tree_iff {v : Json} :
    (∃ x : Id e, v = x.tree) ↔ ∃ i : Int, v = .number (.integer i) ∧ 0 ≤ i ∧ i < UInt32.size := by
  constructor
  · rintro ⟨x, rfl⟩
    exact ⟨x.index, rfl, Int.natCast_nonneg _, by exact_mod_cast x.index_lt⟩
  · rintro ⟨i, rfl, hpos, hlt⟩
    obtain ⟨n, rfl⟩ := Int.eq_ofNat_of_zero_le hpos
    refine ⟨ofIndex n, ?_⟩
    rw [tree, index_ofIndex_of_lt (by exact_mod_cast hlt)]

theorem ofJson_eq_ok_iff {v : Json} {x : Id e} : format.ofJson v = .ok x ↔ v = x.tree := by
  unfold format
  rw [Format.map_ofJson_eq_ok_iff (fun _ => rfl) (fun _ => rfl)]
  exact Format.word_ofJson_eq_ok_iff

theorem list_ofJson_eq_ok_iff {v : Json} {xs : List (Id e)} :
    (Format.list format).ofJson v = .ok xs ↔ v = .array (xs.map tree) := by
  rw [Format.list_ofJson_eq_ok_iff]
  constructor
  · rintro ⟨items, rfl, h⟩
    have htrees : List.Forall₂ (fun item x => item = tree x) items xs := h.imp fun _ _ hread => ofJson_eq_ok_iff.mp hread
    rw [← List.forall₂_map_right_iff, List.forall₂_eq_eq_eq] at htrees
    rw [htrees]
  · rintro rfl
    refine ⟨_, rfl, ?_⟩
    rw [List.forall₂_map_left_iff, List.forall₂_same]
    exact fun x _ => ofJson_eq_ok_iff.mpr rfl

/-- A callee in a tree. -/
def treeOrNull (x : Option (Id e)) : Json := x.elim .null tree

theorem optional_ofJson_eq_ok_iff {v : Json} {x : Option (Id e)} :
    (Format.optional format).ofJson v = .ok x ↔ v = treeOrNull x := by
  rw [Format.optional_ofJson_eq_ok_iff]
  cases x with
  | none => simp [treeOrNull]
  | some y =>
      constructor
      · rintro (⟨-, h⟩ | ⟨-, z, hz, h⟩)
        · cases h
        · rw [Option.some.inj h]
          exact ofJson_eq_ok_iff.mp hz
      · rintro rfl
        exact .inr ⟨Json.noConfusion, y, ofJson_eq_ok_iff.mpr rfl, rfl⟩

end Id

/-! ### Declarations and calls -/

/-- The trees of a declaration. -/
inductive Declaration.Spelt : Json → Declaration → Prop
  | object {members : List (String × Json)} {d : Declaration} :
      Json.field? members "id" = some d.id.tree → Json.field? members "name" = some (.string d.name) →
        Json.field? members "params" = some (.array (d.params.map Id.tree)) →
          Json.field? members "is_var_arg" = some (.boolean d.isVariadic) → Spelt (.object members) d
  | array {d : Declaration} :
      Spelt (.array [d.id.tree, .string d.name, .array (d.params.map Id.tree), .boolean d.isVariadic]) d

/-- The trees of a call. An object need not have a callee. -/
inductive Call.Spelt : Json → Call → Prop
  | object {members : List (String × Json)} {c : Call} :
      Json.field? members "instruction" = some c.instruction.tree →
        Json.field? members "callee" = some (Id.treeOrNull c.callee) → Spelt (.object members) c
  | short {members : List (String × Json)} {c : Call} :
      Json.field? members "instruction" = some c.instruction.tree → Json.field? members "callee" = none →
        c.callee = none → Spelt (.object members) c
  | array {c : Call} : Spelt (.array [c.instruction.tree, Id.treeOrNull c.callee]) c

theorem Declaration.spells_iff {look : String → Option Json} {d : Declaration} :
    row.Spells look (d.id, d.name, d.params, d.isVariadic, ()) ↔
      look "id" = some d.id.tree ∧ look "name" = some (.string d.name) ∧
        look "params" = some (.array (d.params.map Id.tree)) ∧ look "is_var_arg" = some (.boolean d.isVariadic) := by
  simp only [row, Row.spells_field_iff, Row.Spells, Id.ofJson_eq_ok_iff, Id.list_ofJson_eq_ok_iff,
    Format.string_ofJson_eq_ok_iff, Format.boolean_ofJson_eq_ok_iff, exists_eq_right, and_true]

theorem Declaration.enumerates_iff {items : List Json} {d : Declaration} :
    row.Enumerates items (d.id, d.name, d.params, d.isVariadic, ()) [] ↔
      items = [d.id.tree, .string d.name, .array (d.params.map Id.tree), .boolean d.isVariadic] := by
  simp only [row, Row.field, Row.enumerates_cons_iff, Row.Enumerates, Id.ofJson_eq_ok_iff,
    Id.list_ofJson_eq_ok_iff, Format.string_ofJson_eq_ok_iff, Format.boolean_ofJson_eq_ok_iff]
  constructor
  · rintro ⟨_, _, rfl, rfl, _, _, rfl, rfl, _, _, rfl, rfl, _, _, rfl, rfl, rfl⟩
    rfl
  · rintro rfl
    exact ⟨_, _, rfl, rfl, _, _, rfl, rfl, _, _, rfl, rfl, _, _, rfl, rfl, rfl⟩

theorem Declaration.ofJson_eq_ok_iff {v : Json} {d : Declaration} : format.ofJson v = .ok d ↔ Spelt v d := by
  unfold format
  rw [Format.map_ofJson_eq_ok_iff (fun _ => rfl) (fun _ => rfl), Format.record_ofJson_eq_ok_iff (by decide)]
  constructor
  · rintro (⟨members, rfl, h⟩ | ⟨items, rfl, h⟩)
    · obtain ⟨hid, hname, hparams, hvariadic⟩ := spells_iff.mp h
      exact .object hid hname hparams hvariadic
    · rw [enumerates_iff.mp h]
      exact .array
  · intro h
    cases h with
    | object hid hname hparams hvariadic =>
        exact .inl ⟨_, rfl, spells_iff.mpr ⟨hid, hname, hparams, hvariadic⟩⟩
    | array => exact .inr ⟨_, rfl, enumerates_iff.mpr rfl⟩

theorem Call.spells_iff {look : String → Option Json} {c : Call} :
    row.Spells look (c.instruction, c.callee, ()) ↔
      look "instruction" = some c.instruction.tree ∧
        (look "callee" = some (Id.treeOrNull c.callee) ∨ look "callee" = none ∧ c.callee = none) := by
  rw [row, Row.spells_field_iff, Row.Spells]
  cases look "callee" with
  | none => simp [Row.Spells, Id.ofJson_eq_ok_iff, @eq_comm _ none c.callee]
  | some v => simp [Row.Spells, Id.ofJson_eq_ok_iff, Id.optional_ofJson_eq_ok_iff]

theorem Call.enumerates_iff {items : List Json} {c : Call} :
    row.Enumerates items (c.instruction, c.callee, ()) [] ↔
      items = [c.instruction.tree, Id.treeOrNull c.callee] := by
  simp only [row, Row.field, Row.enumerates_cons_iff, Row.Enumerates, Id.ofJson_eq_ok_iff,
    Id.optional_ofJson_eq_ok_iff]
  constructor
  · rintro ⟨_, _, rfl, rfl, _, _, rfl, rfl, rfl⟩
    rfl
  · rintro rfl
    exact ⟨_, _, rfl, rfl, _, _, rfl, rfl, rfl⟩

theorem Call.ofJson_eq_ok_iff {v : Json} {c : Call} : format.ofJson v = .ok c ↔ Spelt v c := by
  unfold format
  rw [Format.map_ofJson_eq_ok_iff (fun _ => rfl) (fun _ => rfl), Format.record_ofJson_eq_ok_iff (by decide)]
  constructor
  · rintro (⟨members, rfl, h⟩ | ⟨items, rfl, h⟩)
    · obtain ⟨hinstruction, hcallee | ⟨habsent, hnone⟩⟩ := spells_iff.mp h
      · exact .object hinstruction hcallee
      · exact .short hinstruction habsent hnone
    · rw [enumerates_iff.mp h]
      exact .array
  · intro h
    cases h with
    | object hinstruction hcallee => exact .inl ⟨_, rfl, spells_iff.mpr ⟨hinstruction, .inl hcallee⟩⟩
    | short hinstruction habsent hnone =>
        exact .inl ⟨_, rfl, spells_iff.mpr ⟨hinstruction, .inr ⟨habsent, hnone⟩⟩⟩
    | array => exact .inr ⟨_, rfl, enumerates_iff.mpr rfl⟩

/-! ### Payloads and kinds -/

/-- The trees of a payload: the name of its variant, and an object that has its fields. -/
inductive Payload.Spelt (v : Json) : Payload → Prop
  | formal {members : List (String × Json)} {f : Id .function} {a : Id .argument} :
      v.Tags "FormalArgument" (.object members) → Json.field? members "function" = some f.tree →
        Json.field? members "arg" = some a.tree → Spelt v (.formal f a)
  | value {members : List (String × Json)} {x : Id .value} :
      v.Tags "Value" (.object members) → Json.field? members "value" = some x.tree → Spelt v (.value x)
  | variadic {members : List (String × Json)} {f : Id .function} :
      v.Tags "VarArg" (.object members) → Json.field? members "function" = some f.tree → Spelt v (.variadic f)
  | synthetic {members : List (String × Json)} {label : String} :
      v.Tags "Synthetic" (.object members) → Json.field? members "label" = some (.string label) →
        Spelt v (.synthetic label)

/-- The trees of a kind of dependence: its name, alone or with null. -/
inductive Kind.Spelt (v : Json) (k : Kind) : Prop
  | alone : v = .string k.name → Spelt v k
  | tagged : v.Tags k.name .null → Spelt v k

/-- The content of a variant that is a record is an object. -/
theorem Branch.record_ofJson_eq_ok_iff {α ρ π : Type} {type name : String} {row : Row ρ π} {make : ρ → α}
    (hnodup : row.names.Nodup) {v : Json} {x : α} :
    (Branch.record type name row make).ofJson v = .ok x ↔
      ∃ members xs, v = .object members ∧ row.Spells (Json.field? members) xs ∧ make xs = x := by
  unfold Branch.record
  cases v with
  | object members =>
      show (row.ofMembers members).map make = .ok x ↔ _
      rw [map_eq_ok_iff]
      simp [Row.ofMembers_eq_ok_iff_spells hnodup]
  | null => simp
  | boolean b => simp
  | number n => simp
  | string s => simp
  | array items => simp

section payloads
variable {look : String → Option Json}

theorem Payload.formalRow_spells_iff {f : Id .function} {a : Id .argument} :
    formalRow.Spells look (f, a, ()) ↔ look "function" = some f.tree ∧ look "arg" = some a.tree := by
  simp [formalRow, Row.spells_field_iff, Row.Spells, Id.ofJson_eq_ok_iff]

theorem Payload.valueRow_spells_iff {x : Id .value} :
    valueRow.Spells look (x, ()) ↔ look "value" = some x.tree := by
  simp [valueRow, Row.spells_field_iff, Row.Spells, Id.ofJson_eq_ok_iff]

theorem Payload.variadicRow_spells_iff {f : Id .function} :
    variadicRow.Spells look (f, ()) ↔ look "function" = some f.tree := by
  simp [variadicRow, Row.spells_field_iff, Row.Spells, Id.ofJson_eq_ok_iff]

theorem Payload.syntheticRow_spells_iff {label : String} :
    syntheticRow.Spells look (label, ()) ↔ look "label" = some (.string label) := by
  simp [syntheticRow, Row.spells_field_iff, Row.Spells, Format.string_ofJson_eq_ok_iff]

end payloads

theorem Payload.ofJson_eq_ok_iff {v : Json} {p : Payload} : format.ofJson v = .ok p ↔ Spelt v p := by
  unfold format
  rw [Format.choice_ofJson_eq_ok_iff]
  constructor
  · rintro (⟨name, branch, rfl, hfind, halone⟩ | ⟨name, content, branch, htags, hfind, hread⟩)
    · obtain ⟨hmem, -⟩ := (Branch.find_eq_ok_iff (by decide)).mp hfind
      simp only [branches, List.mem_cons, List.not_mem_nil, or_false] at hmem
      rcases hmem with rfl | rfl | rfl | rfl <;> cases halone
    · obtain ⟨hmem, rfl⟩ := (Branch.find_eq_ok_iff (by decide)).mp hfind
      simp only [branches, List.mem_cons, List.not_mem_nil, or_false] at hmem
      rcases hmem with rfl | rfl | rfl | rfl
      · obtain ⟨members, ⟨f, a, ⟨⟩⟩, rfl, hspells, rfl⟩ := (Branch.record_ofJson_eq_ok_iff (by decide)).mp hread
        obtain ⟨hfunction, hargument⟩ := formalRow_spells_iff.mp hspells
        exact .formal htags hfunction hargument
      · obtain ⟨members, ⟨x, ⟨⟩⟩, rfl, hspells, rfl⟩ := (Branch.record_ofJson_eq_ok_iff (by decide)).mp hread
        exact .value htags (valueRow_spells_iff.mp hspells)
      · obtain ⟨members, ⟨f, ⟨⟩⟩, rfl, hspells, rfl⟩ := (Branch.record_ofJson_eq_ok_iff (by decide)).mp hread
        exact .variadic htags (variadicRow_spells_iff.mp hspells)
      · obtain ⟨members, ⟨label, ⟨⟩⟩, rfl, hspells, rfl⟩ := (Branch.record_ofJson_eq_ok_iff (by decide)).mp hread
        exact .synthetic htags (syntheticRow_spells_iff.mp hspells)
  · intro h
    refine .inr ?_
    cases h with
    | formal htags hfunction hargument =>
        exact ⟨_, _, _, htags, rfl, (Branch.record_ofJson_eq_ok_iff (by decide)).mpr
          ⟨_, _, rfl, formalRow_spells_iff.mpr ⟨hfunction, hargument⟩, rfl⟩⟩
    | value htags hvalue =>
        exact ⟨_, _, _, htags, rfl, (Branch.record_ofJson_eq_ok_iff (by decide)).mpr
          ⟨_, _, rfl, valueRow_spells_iff.mpr hvalue, rfl⟩⟩
    | variadic htags hfunction =>
        exact ⟨_, _, _, htags, rfl, (Branch.record_ofJson_eq_ok_iff (by decide)).mpr
          ⟨_, _, rfl, variadicRow_spells_iff.mpr hfunction, rfl⟩⟩
    | synthetic htags hlabel =>
        exact ⟨_, _, _, htags, rfl, (Branch.record_ofJson_eq_ok_iff (by decide)).mpr
          ⟨_, _, rfl, syntheticRow_spells_iff.mpr hlabel, rfl⟩⟩

theorem Kind.ofJson_eq_ok_iff {v : Json} {k : Kind} : format.ofJson v = .ok k ↔ Spelt v k := by
  have hconstant : ∀ {name content} {k' : Kind},
      (Branch.constant name k').ofJson content = .ok k ↔ content = .null ∧ k' = k := by
    intro name content k'
    refine map_eq_ok_iff.trans ?_
    simp [Format.unit_ofJson_eq_ok_iff]
  unfold format
  rw [Format.choice_ofJson_eq_ok_iff]
  constructor
  · rintro (⟨name, branch, rfl, hfind, halone⟩ | ⟨name, content, branch, htags, hfind, hread⟩)
    · obtain ⟨hmem, rfl⟩ := (Branch.find_eq_ok_iff (by decide)).mp hfind
      simp only [branches, List.mem_cons, List.not_mem_nil, or_false] at hmem
      rcases hmem with rfl | rfl | rfl <;> cases halone <;> exact .alone rfl
    · obtain ⟨hmem, rfl⟩ := (Branch.find_eq_ok_iff (by decide)).mp hfind
      simp only [branches, List.mem_cons, List.not_mem_nil, or_false] at hmem
      rcases hmem with rfl | rfl | rfl <;> obtain ⟨rfl, rfl⟩ := hconstant.mp hread <;> exact .tagged htags
  · intro h
    cases h with
    | alone hv =>
        refine .inl ⟨_, .constant k.name k, hv, ?_, rfl⟩
        cases k <;> rfl
    | tagged htags =>
        refine .inr ⟨_, _, .constant k.name k, htags, ?_, hconstant.mpr ⟨rfl, rfl⟩⟩
        cases k <;> rfl

/-! ### What is reported -/

namespace Format

variable {α ρ π : Type}

/-- A format reads just the trees of its values. -/
def ReadsJust (f : Format α) (Spelt : Json → α → Prop) : Prop := ∀ v x, f.ofJson v = .ok x ↔ Spelt v x

/-- Of an object that is refused the mismatch is reported that is to blame in a row. -/
def Reports (f : Format α) (row : Row ρ π) : Prop :=
  ∀ members m, f.ofJson (.object members) = .error m ↔ row.Blames (Json.field? members) m

/-- The same of the content of a variant. -/
def ReportsWithin (f : Format α) (name : String) (row : Row ρ π) : Prop :=
  ∀ v members m, v.Tags name (.object members) → (f.ofJson v = .error m ↔ row.Blames (Json.field? members) m)

theorem reports_record {title : String} {row : Row ρ π} {make : ρ → α} {parts : α → ρ}
    (hnodup : row.names.Nodup) : ((record title row).map make parts).Reports row := by
  intro members m
  refine map_eq_error_iff.trans ?_
  exact Row.ofMembers_eq_error_iff hnodup

theorem reportsWithin_choice {branches : List (Branch α)} {write : α → Json} {type name : String}
    {row : Row ρ π} {make : ρ → α} (hnodup : row.names.Nodup)
    (hfind : Branch.find branches name = .ok (Branch.record type name row make)) :
    (choice branches write).ReportsWithin name row := by
  intro v members m htags
  rw [choice_ofJson_of_tags htags, hfind]
  refine map_eq_error_iff.trans ?_
  exact Row.ofMembers_eq_error_iff hnodup

/-- Identities, declarations, calls, payloads and kinds are read from just the trees in which they are spelt, as
what is spelt there; and of an object that is refused, the least of the fields whose values do not fit is
reported, or else the first one that is missing. -/
theorem readsJust_persisted :
    (∀ (e : Entity) (v : Json), (∃ x, (@Id.format e).ofJson v = .ok x) ↔
      ∃ i : Int, v = .number (.integer i) ∧ 0 ≤ i ∧ i < UInt32.size) ∧
    (∀ e : Entity, (@Id.format e).ReadsJust fun v x => v = x.tree) ∧
    Declaration.format.ReadsJust Declaration.Spelt ∧ Call.format.ReadsJust Call.Spelt ∧
    Payload.format.ReadsJust Payload.Spelt ∧ Kind.format.ReadsJust Kind.Spelt ∧
    Declaration.format.Reports Declaration.row ∧ Call.format.Reports Call.row ∧
    Payload.format.ReportsWithin "FormalArgument" Payload.formalRow ∧
    Payload.format.ReportsWithin "Value" Payload.valueRow ∧
    Payload.format.ReportsWithin "VarArg" Payload.variadicRow ∧
    Payload.format.ReportsWithin "Synthetic" Payload.syntheticRow := by
  refine ⟨?_, fun e v x => Id.ofJson_eq_ok_iff, fun v d => Declaration.ofJson_eq_ok_iff,
    fun v c => Call.ofJson_eq_ok_iff, fun v p => Payload.ofJson_eq_ok_iff, fun v k => Kind.ofJson_eq_ok_iff,
    reports_record (by decide), reports_record (by decide), reportsWithin_choice (by decide) rfl,
    reportsWithin_choice (by decide) rfl, reportsWithin_choice (by decide) rfl,
    reportsWithin_choice (by decide) rfl⟩
  intro e v
  simp only [Id.ofJson_eq_ok_iff]
  exact Id.exists_eq_tree_iff

end Format
end Dependence
