import Dependence.Proofs.Format.Trees

/-! # The order of members means nothing

`v.sorted` is a tree with the members of all its objects in ascending order of their names, of several members of one
name the last.  Two trees that are the same when sorted differ in the order of members only, if no name is repeated in
them.

A reader of trees makes the same of a tree when it is sorted, errors included (`Format.Orderless`).  Every format keeps
this of the formats that it is made from. -/

namespace Dependence

namespace Json

mutual

/-- A tree with the members of all objects in ascending order. -/
def sorted : Json → Json
  | .null => .null
  | .boolean b => .boolean b
  | .number n => .number n
  | .string s => .string s
  | .array items => .array (sortedItems items)
  | .object members => .object (fields (sortedMembers members))

/-- The items of an array, each of them sorted. -/
def sortedItems : List Json → List Json
  | [] => []
  | item :: items => item.sorted :: sortedItems items

/-- The members of an object, each of them sorted. -/
def sortedMembers : List (String × Json) → List (String × Json)
  | [] => []
  | (name, v) :: members => (name, v.sorted) :: sortedMembers members

end

theorem sortedItems_eq_map : ∀ items, sortedItems items = items.map sorted
  | [] => rfl
  | item :: items => by rw [sortedItems, sortedItems_eq_map items, List.map_cons]

/-- A member with another value. -/
def onValue (f : Json → Json) (member : String × Json) : String × Json := (member.1, f member.2)

theorem sortedMembers_eq_map : ∀ members, sortedMembers members = members.map (onValue sorted)
  | [] => rfl
  | (name, v) :: members => by
      rw [sortedMembers, sortedMembers_eq_map members, List.map_cons]
      rfl

theorem insertField_map (f : Json → Json) (name : String) (v : Json) : ∀ members : List (String × Json),
    insertField name (f v) (members.map (onValue f)) = (insertField name v members).map (onValue f)
  | [] => rfl
  | (other, old) :: members => by
      rw [List.map_cons, onValue, insertField, insertField]
      split
      · rfl
      · split
        · rfl
        · rw [insertField_map f name v members, List.map_cons]
          rfl

/-- What is done to all values is done to those that a reader sees. -/
theorem fields_map (f : Json → Json) (members : List (String × Json)) :
    fields (members.map (onValue f)) = (fields members).map (onValue f) := by
  induction members using List.reverseRecOn with
  | nil => rfl
  | append_singleton members member ih =>
      obtain ⟨name, v⟩ := member
      rw [List.map_append, List.map_singleton, onValue, fields_append, ih, insertField_map, fields_append]

/-- Members in ascending order are seen as they are. -/
theorem Ascending.fields_eq {members : List (String × Json)} (h : Ascending members) : fields members = members := by
  refine List.Perm.eq_of_pairwise ?_ (ascending_fields members) h (perm_fields h.nodup)
  exact fun a b _ _ hab hba => absurd (String.lt_trans hab hba) (String.lt_irrefl _)

theorem fields_sortedMembers (members : List (String × Json)) :
    fields (fields (sortedMembers members)) = (fields members).map (onValue sorted) := by
  rw [(ascending_fields _).fields_eq, sortedMembers_eq_map, fields_map]

theorem found_sorted (v : Json) : v.sorted.found = v.found := by
  cases v with
  | number n => rw [sorted]
  | _ => rfl

end Json

namespace Format

variable {α β : Type} {f : Format α}

/-- A reader of trees does not ask for the order of members. -/
def Orderless (ofJson : Json → Except Mismatch α) : Prop := ∀ v, ofJson v.sorted = ofJson v

theorem unexpected_sorted (expected : String) (v : Json) : unexpected expected v.sorted = unexpected expected v := by
  rw [unexpected, Json.found_sorted, unexpected]

/-! ### Plain values -/

theorem orderless_word : Orderless word.ofJson := by
  intro v
  cases v with
  | array items => exact congrArg Except.error (unexpected_sorted "u32" (.array items))
  | object members => exact congrArg Except.error (unexpected_sorted "u32" (.object members))
  | _ => rfl

theorem orderless_boolean : Orderless boolean.ofJson := by
  intro v
  cases v with
  | array items => exact congrArg Except.error (unexpected_sorted "a boolean" (.array items))
  | object members => exact congrArg Except.error (unexpected_sorted "a boolean" (.object members))
  | _ => rfl

theorem orderless_string : Orderless string.ofJson := by
  intro v
  cases v with
  | array items => exact congrArg Except.error (unexpected_sorted "a string" (.array items))
  | object members => exact congrArg Except.error (unexpected_sorted "a string" (.object members))
  | _ => rfl

theorem orderless_unit : Orderless unit.ofJson := by
  intro v
  cases v with
  | array items => exact congrArg Except.error (unexpected_sorted "unit" (.array items))
  | object members => exact congrArg Except.error (unexpected_sorted "unit" (.object members))
  | _ => rfl

/-! ### Formats from formats -/

theorem Orderless.map {ofJson : Json → Except Mismatch α} (h : Orderless ofJson) (g : α → β) :
    Orderless fun v => (ofJson v).map g :=
  fun v => congrArg (Except.map g) (h v)

theorem orderless_map (hf : Orderless f.ofJson) (make : α → β) (parts : β → α) : Orderless (f.map make parts).ofJson :=
  hf.map make

theorem orderless_refine (hf : Orderless f.ofJson) (check : α → Except String β) (parts : β → α) :
    Orderless (f.refine check parts).ofJson :=
  fun v => congrArg (fun read : Except Mismatch α => read >>= fun x => (check x).mapError .refused) (hf v)

theorem orderless_optional (hf : Orderless f.ofJson) : Orderless f.optional.ofJson := by
  intro v
  cases v with
  | null => rfl
  | _ => exact hf.map some _

theorem mapM_sortedItems (hf : Orderless f.ofJson) : ∀ items : List Json,
    (Json.sortedItems items).mapM f.ofJson = items.mapM f.ofJson
  | [] => rfl
  | item :: items => by
      rw [Json.sortedItems, List.mapM_cons, List.mapM_cons, hf item, mapM_sortedItems hf items]

theorem orderless_list (hf : Orderless f.ofJson) : Orderless f.list.ofJson := by
  intro v
  cases v with
  | array items => exact mapM_sortedItems hf items
  | object members => exact congrArg Except.error (unexpected_sorted "a sequence" (.object members))
  | _ => rfl

end Format

/-! ### Records -/

namespace Row

variable {ρ π : Type}

/-- The formats of the fields do not ask for the order of members. -/
def Orderless {ρ π : Type} : Row ρ π → Prop
  | .nil => True
  | .cons _ format _ _ rest => Format.Orderless format.ofJson ∧ rest.Orderless

theorem visit_sorted (name : String) (v : Json) {ρ π : Type} : ∀ {row : Row ρ π} {cells : π}, row.Orderless →
    row.visit name v.sorted cells = row.visit name v cells
  | .nil, (), _ => rfl
  | .cons other format _ _ rest, (cell, cells), h => by
      rw [visit_cons, visit_cons, h.1 v, visit_sorted name v h.2]

theorem foldlM_visit_sorted {row : Row ρ π} (h : row.Orderless) : ∀ (members : List (String × Json)) (cells : π),
    (members.map (Json.onValue Json.sorted)).foldlM (fun cells (name, v) => row.visit name v cells) cells =
      members.foldlM (fun cells (name, v) => row.visit name v cells) cells
  | [], _ => rfl
  | (name, v) :: members, cells => by
      rw [List.map_cons, List.foldlM_cons, List.foldlM_cons]
      show (row.visit name v.sorted cells >>= _) = (row.visit name v cells >>= _)
      rw [visit_sorted name v h]
      exact congrArg (row.visit name v cells >>= ·) (funext fun mid => foldlM_visit_sorted h members mid)

theorem ofMembers_sorted {row : Row ρ π} (h : row.Orderless) (members : List (String × Json)) :
    row.ofMembers (Json.fields (Json.sortedMembers members)) = row.ofMembers members := by
  unfold ofMembers
  rw [Json.fields_sortedMembers, foldlM_visit_sorted h]

theorem ofFront_sortedItems (expected : String) {ρ π : Type} : ∀ {row : Row ρ π} (read : Nat) (items : List Json),
    row.Orderless → row.ofFront expected read (Json.sortedItems items) =
      (row.ofFront expected read items).map fun r => (r.1, Json.sortedItems r.2)
  | .nil, _, _, _ => rfl
  | .cons _ format _ _ rest, read, item :: items, h => by
      rw [Json.sortedItems, ofFront, ofFront, h.1 item, ofFront_sortedItems expected (read + 1) items h.2]
      cases format.ofJson item with
      | error m => rfl
      | ok x => cases rest.ofFront expected (read + 1) items <;> rfl
  | .cons _ _ _ (some x) rest, read, [], h => by
      have hrest := ofFront_sortedItems expected (read + 1) [] h.2
      rw [Json.sortedItems] at hrest ⊢
      rw [ofFront]
      generalize rest.ofFront expected (read + 1) [] = front at hrest ⊢
      cases front with
      | error m => rfl
      | ok r =>
          have hleft := congrArg Prod.snd (Except.ok.inj hrest)
          exact congrArg (fun left => Except.ok ((x, r.1), left)) hleft
  | .cons _ _ _ none _, _, [], _ => rfl

theorem ofItems_sortedItems {row : Row ρ π} (h : row.Orderless) (expected : String) (items : List Json) :
    row.ofItems expected (Json.sortedItems items) = row.ofItems expected items := by
  unfold ofItems
  rw [ofFront_sortedItems expected 0 items h, Json.sortedItems_eq_map, List.length_map]
  cases row.ofFront expected 0 items with
  | error m => rfl
  | ok r =>
      obtain ⟨xs, left⟩ := r
      cases left <;> rfl

end Row

namespace Format

variable {α ρ π : Type} {row : Row ρ π}

theorem orderless_record (title : String) (h : row.Orderless) : Orderless (record title row).ofJson := by
  intro v
  cases v with
  | object members => exact Row.ofMembers_sorted h members
  | array items => exact Row.ofItems_sortedItems h _ items
  | _ => rfl

theorem orderless_tuple (h : row.Orderless) : Orderless (tuple row).ofJson := by
  intro v
  cases v with
  | array items => exact Row.ofItems_sortedItems h _ items
  | object members => exact congrArg Except.error (unexpected_sorted _ (.object members))
  | _ => rfl

end Format

/-! ### Choices -/

namespace Branch

variable {α ρ π : Type}

theorem orderless_constant (name : String) (x : α) : Format.Orderless (constant name x).ofJson :=
  Format.orderless_unit.map fun _ => x

theorem orderless_record (type name : String) {row : Row ρ π} (make : ρ → α) (h : row.Orderless) :
    Format.Orderless (record type name row make).ofJson := by
  intro v
  cases v with
  | object members => exact congrArg (Except.map make) (Row.ofMembers_sorted h members)
  | array items => exact congrArg Except.error (Format.unexpected_sorted _ (.array items))
  | _ => rfl

end Branch

namespace Format

variable {α : Type} {branches : List (Branch α)} {write : α → Json}

theorem orderless_choice (h : ∀ branch ∈ branches, Orderless branch.ofJson)
    (hnodup : (branches.map Branch.name).Nodup) : Orderless (choice branches write).ofJson := by
  intro v
  cases v with
  | object members =>
      have hfields := Json.fields_sortedMembers members
      rw [Json.sorted]
      unfold choice
      dsimp only
      rw [hfields]
      match Json.fields members with
      | [] => rfl
      | [(name, v)] =>
          cases hfind : Branch.find branches name with
          | error m =>
              simp only [List.map_cons, List.map_nil, Json.onValue, hfind]
              rfl
          | ok branch =>
              simp only [List.map_cons, List.map_nil, Json.onValue, hfind]
              exact h branch ((Branch.find_eq_ok_iff hnodup).mp hfind).1 v
      | _ :: _ :: _ => rfl
  | array items => exact congrArg Except.error (unexpected_sorted _ (.array items))
  | _ => rfl

end Format
end Dependence
