import Dependence.Json

/-! # Layouts

A `Layout` says where in a tree records are expected, and a `Body` is what stands at such a place.  Two properties of
bodies matter for readers of texts: that no field is there twice (`Body.Once`), and that the content of a variant is not
given as an array (`Body.Plain`).  A layout extends a property of bodies to all places of a tree (`Layout.All`). -/

namespace Dependence

/-- A place where a record is expected: the names of its fields, what stands there, and whether this is the content of a
variant. -/
structure Body where
  isVariant : Bool
  names : List String
  content : Json

/-- No field is there twice. -/
def Body.Once (body : Body) : Prop :=
  ∀ members, body.content = .object members → ∀ name ∈ body.names, (members.map Prod.fst).count name ≤ 1

/-- The content of a variant is not given as an array. -/
def Body.Plain (body : Body) : Prop := body.isVariant = true → ∀ items, body.content ≠ .array items

/-- The places in a tree where records are expected. -/
abbrev Layout := Json → List Body

namespace Layout

/-- Every record has a property. -/
def All (P : Body → Prop) (layout : Layout) (v : Json) : Prop := ∀ body ∈ layout v, P body

/-- No record has a field twice. -/
abbrev Once : Layout → Json → Prop := All Body.Once

/-- No content of a variant is given as an array. -/
abbrev Plain : Layout → Json → Prop := All Body.Plain

/-- No records are expected. -/
def leaf : Layout := fun _ => []

/-- A list with a layout for its items. -/
def list (item : Layout) : Layout
  | .array items => items.flatMap item
  | _ => []

/-- The layout of the member of a name. A member that is no field is passed over. -/
def ofName (fields : List (String × Layout)) (name : String) : Layout := (fields.lookup name).getD leaf

/-- Members with layouts for those of certain names. -/
def ofMembers (fields : List (String × Layout)) (members : List (String × Json)) : List Body :=
  members.flatMap fun member => ofName fields member.1 member.2

/-- Items with layouts for those at certain positions. -/
def ofItems : List (String × Layout) → List Json → List Body
  | (_, layout) :: fields, item :: items => layout item ++ ofItems fields items
  | _, _ => []

/-- A record with layouts for its fields. -/
def record (isVariant : Bool) (fields : List (String × Layout)) : Layout := fun v =>
  { isVariant, names := fields.map Prod.fst, content := v } ::
    match v with
    | .object members => ofMembers fields members
    | .array items => ofItems fields items
    | _ => []

/-- A choice with layouts for the contents of its variants. -/
def choice (variants : List (String × Layout)) : Layout
  | .object members => ofMembers variants members
  | _ => []

/-- Fields in which no records are expected. -/
def leaves (names : List String) : List (String × Layout) := names.map fun name => (name, leaf)

variable {P : Body → Prop} {layout : Layout} {fields : List (String × Layout)} {isVariant : Bool}

theorem all_leaf (v : Json) : leaf.All P v := fun _ h => by cases h

theorem all_list_iff {items : List Json} : (list layout).All P (.array items) ↔ ∀ item ∈ items, layout.All P item := by
  simp only [All, list, List.mem_flatMap]
  exact ⟨fun h item hitem body hbody => h body ⟨item, hitem, hbody⟩,
    fun h body ⟨item, hitem, hbody⟩ => h item hitem body hbody⟩

theorem list_leaf : list leaf = leaf := by
  funext v
  cases v with
  | array items => exact List.flatMap_eq_nil_iff.mpr fun _ _ => rfl
  | _ => rfl

/-- A choice between variants in which no records are expected. -/
theorem choice_nil : choice [] = leaf := by
  funext v
  cases v with
  | object members => exact List.flatMap_eq_nil_iff.mpr fun _ _ => rfl
  | _ => rfl

theorem ofName_cons (other name : String) :
    ofName ((other, layout) :: fields) name = if name = other then layout else ofName fields name := by
  unfold ofName
  rw [List.lookup_cons]
  by_cases h : name = other
  · rw [if_pos h, beq_iff_eq.mpr h]
    rfl
  · rw [if_neg h, beq_eq_false_iff_ne.mpr h]

theorem ofName_of_not_mem {name : String} : ∀ {fields : List (String × Layout)}, name ∉ fields.map Prod.fst →
    ofName fields name = leaf
  | [], _ => rfl
  | (other, layout) :: fields, h => by
      rw [List.map_cons, List.mem_cons, not_or] at h
      rw [ofName_cons, if_neg h.1]
      exact ofName_of_not_mem h.2

theorem all_ofMembers_iff {members : List (String × Json)} :
    (∀ body ∈ ofMembers fields members, P body) ↔ ∀ name v, (name, v) ∈ members → (ofName fields name).All P v := by
  simp only [All, ofMembers, List.mem_flatMap]
  exact ⟨fun h name v hmem body hbody => h body ⟨(name, v), hmem, hbody⟩,
    fun h body ⟨(name, v), hmem, hbody⟩ => h name v hmem body hbody⟩

theorem all_ofItems_nil : ∀ body ∈ ofItems fields [], P body := by
  cases fields with
  | nil => exact List.forall_mem_nil _
  | cons field fields => exact List.forall_mem_nil _

theorem ofName_leaves (name : String) : ∀ names : List String, ofName (leaves names) name = leaf
  | [] => rfl
  | other :: names => by
      rw [leaves, List.map_cons, ofName_cons]
      split
      · rfl
      · exact ofName_leaves name names

theorem ofItems_leaves : ∀ (names : List String) (items : List Json), ofItems (leaves names) items = []
  | [], _ => rfl
  | _ :: _, [] => rfl
  | _ :: names, _ :: items => ofItems_leaves names items

theorem all_record_object_iff {members : List (String × Json)} :
    (record isVariant fields).All P (.object members) ↔
      P { isVariant, names := fields.map Prod.fst, content := .object members } ∧
        ∀ name v, (name, v) ∈ members → (ofName fields name).All P v := by
  rw [← all_ofMembers_iff]
  exact List.forall_mem_cons

theorem all_record_array_iff {items : List Json} :
    (record isVariant fields).All P (.array items) ↔
      P { isVariant, names := fields.map Prod.fst, content := .array items } ∧
        ∀ body ∈ ofItems fields items, P body :=
  List.forall_mem_cons

/-- There are no variants among plain fields. -/
theorem plain_leaves (names : List String) (v : Json) : (record false (leaves names)).Plain v := by
  have hbody : ∀ content, Body.Plain { isVariant := false, names := (leaves names).map Prod.fst, content } :=
    fun _ h => Bool.noConfusion h
  cases v with
  | object members =>
      refine all_record_object_iff.mpr ⟨hbody _, fun name w _ => ?_⟩
      rw [ofName_leaves]
      exact all_leaf w
  | array items =>
      refine all_record_array_iff.mpr ⟨hbody _, ?_⟩
      rw [ofItems_leaves]
      exact List.forall_mem_nil _
  | _ => exact List.forall_mem_singleton.mpr (hbody _)

end Layout

end Dependence
