import Dependence.Format.Choice
import Dependence.Proofs.Format.Members
import Mathlib.Data.List.Forall2

/-! # Trees that are read

When the reader of trees of an option, a list, a record or a choice yields a value, in terms of the readers of
its parts.  A choice is read from the name of a variant alone, or from an object whose only member has this
name (`Json.Tags`). -/

namespace Dependence

/-- A list of computations succeeds if all of them do. -/
theorem mapM_eq_ok_iff {ε α β : Type} {f : α → Except ε β} :
    ∀ {xs : List α} {ys : List β}, xs.mapM f = .ok ys ↔ List.Forall₂ (fun x y => f x = .ok y) xs ys
  | [], ys => by
      rw [List.forall₂_nil_left_iff]
      exact (Except.ok.injEq _ _).to_iff.trans eq_comm
  | x :: xs, ys => by
      rw [List.mapM_cons, bind_eq_ok_iff, List.forall₂_cons_left_iff]
      constructor
      · rintro ⟨y, hy, h⟩
        obtain ⟨more, hmore, h⟩ := bind_eq_ok_iff.mp h
        exact ⟨y, more, hy, mapM_eq_ok_iff.mp hmore, (Except.ok.inj h).symm⟩
      · rintro ⟨y, more, hy, hmore, rfl⟩
        exact ⟨y, hy, bind_eq_ok_iff.mpr ⟨more, mapM_eq_ok_iff.mpr hmore, rfl⟩⟩

theorem map_eq_ok_iff {ε α β : Type} {x : Except ε α} {f : α → β} {y : β} :
    x.map f = .ok y ↔ ∃ a, x = .ok a ∧ f a = y := by
  cases x <;> simp [Except.map]

theorem map_eq_error_iff {ε α β : Type} {x : Except ε α} {f : α → β} {e : ε} :
    x.map f = .error e ↔ x = .error e := by
  cases x <;> simp [Except.map]

namespace Json

variable {members : List (String × Json)} {name : String} {v : Json}

/-- An object whose members all have the same name. -/
def Tags (v : Json) (name : String) (content : Json) : Prop :=
  ∃ members, v = .object members ∧ field? members name = some content ∧ ∀ member ∈ members, member.1 = name

/-- A reader sees one member if all members have its name. -/
theorem fields_eq_singleton_iff :
    fields members = [(name, v)] ↔ field? members name = some v ∧ ∀ member ∈ members, member.1 = name := by
  constructor
  · intro h
    refine ⟨mem_fields.mp (h ▸ List.mem_singleton_self _), ?_⟩
    intro member hmem
    obtain ⟨w, hw⟩ := exists_field?_of_mem hmem
    have hseen := mem_fields.mpr hw
    rw [h, List.mem_singleton] at hseen
    exact (Prod.mk.inj hseen).1
  · rintro ⟨hseen, hall⟩
    have hnodup := (ascending_fields members).nodup
    have honly : ∀ member ∈ fields members, member = (name, v) := by
      rintro ⟨other, w⟩ hmem
      have hw := mem_fields.mp hmem
      obtain rfl : other = name := hall _ (mem_of_field? hw)
      rw [hseen] at hw
      rw [Option.some.inj hw]
    match hfields : fields members with
    | [] =>
        have hmem := mem_fields.mpr hseen
        rw [hfields] at hmem
        cases hmem
    | [member] => rw [honly member (hfields ▸ List.mem_singleton_self _)]
    | first :: second :: rest =>
        rw [hfields] at hnodup honly
        rw [honly first (by simp), honly second (by simp)] at hnodup
        simp at hnodup

end Json

/-! ### Branches -/

theorem Branch.find_eq_ok_iff {α : Type} {branches : List (Branch α)} {name : String} {branch : Branch α}
    (hnodup : (branches.map Branch.name).Nodup) :
    Branch.find branches name = .ok branch ↔ branch ∈ branches ∧ branch.name = name := by
  unfold Branch.find
  constructor
  · intro h
    split at h
    · rename_i found hfound
      obtain rfl : found = branch := Except.ok.inj h
      exact ⟨List.mem_of_find?_eq_some hfound, by simpa using List.find?_some hfound⟩
    · cases h
  · rintro ⟨hmem, rfl⟩
    cases hfound : branches.find? (fun other => other.name = branch.name) with
    | none => exact absurd (decide_eq_true rfl) (List.find?_eq_none.mp hfound branch hmem)
    | some found =>
        have hname : found.name = branch.name := by simpa using List.find?_some hfound
        have hfoundMem := List.mem_of_find?_eq_some hfound
        rw [List.inj_on_of_nodup_map hnodup hfoundMem hmem hname]

namespace Format

variable {α β : Type} {f : Format α} {v : Json}

/-! ### Formats -/

theorem optional_ofJson_eq_ok_iff {x : Option α} :
    f.optional.ofJson v = .ok x ↔
      v = .null ∧ x = none ∨ v ≠ .null ∧ ∃ y, f.ofJson v = .ok y ∧ x = some y := by
  by_cases hv : v = .null
  · subst hv
    simp [optional, eq_comm]
  · have hread : f.optional.ofJson v = (f.ofJson v).map some := by
      unfold optional
      cases v with
      | null => exact absurd rfl hv
      | boolean b => rfl
      | number n => rfl
      | string s => rfl
      | array items => rfl
      | object members => rfl
    rw [hread, map_eq_ok_iff]
    simp [hv, eq_comm]

theorem list_ofJson_eq_ok_iff {xs : List α} :
    f.list.ofJson v = .ok xs ↔
      ∃ items, v = .array items ∧ List.Forall₂ (fun item x => f.ofJson item = .ok x) items xs := by
  unfold list
  cases v with
  | array items =>
      show items.mapM f.ofJson = .ok xs ↔ _
      rw [mapM_eq_ok_iff]
      simp
  | null => simp
  | boolean b => simp
  | number n => simp
  | string s => simp
  | object members => simp

variable {ρ π : Type} {row : Row ρ π} {xs : ρ} {title : String}

theorem record_ofJson_eq_ok_iff (hnodup : row.names.Nodup) :
    (record title row).ofJson v = .ok xs ↔
      (∃ members, v = .object members ∧ row.Spells (Json.field? members) xs) ∨
        ∃ items, v = .array items ∧ row.Enumerates items xs [] := by
  unfold record
  cases v with
  | object members =>
      show row.ofMembers members = .ok xs ↔ _
      rw [Row.ofMembers_eq_ok_iff_spells hnodup]
      simp
  | array items =>
      show row.ofItems _ items = .ok xs ↔ _
      rw [Row.ofItems_eq_ok_iff]
      simp
  | null => simp
  | boolean b => simp
  | number n => simp
  | string s => simp

/-! ### Choices -/

variable {branches : List (Branch α)} {write : α → Json} {x : α}

/-- The content of the only member is read by the branch of its name. -/
theorem choice_ofJson_of_tags {name : String} {content : Json} (h : v.Tags name content) :
    (choice branches write).ofJson v = Branch.find branches name >>= fun branch => branch.ofJson content := by
  obtain ⟨members, rfl, hseen, hall⟩ := h
  have hfields := Json.fields_eq_singleton_iff.mpr ⟨hseen, hall⟩
  simp only [choice, hfields]

theorem choice_ofJson_eq_ok_iff :
    (choice branches write).ofJson v = .ok x ↔
      (∃ name branch, v = .string name ∧ Branch.find branches name = .ok branch ∧ branch.alone = .ok x) ∨
        ∃ name content branch, v.Tags name content ∧ Branch.find branches name = .ok branch ∧
          branch.ofJson content = .ok x := by
  constructor
  · intro h
    cases v with
    | string name =>
        obtain ⟨branch, hfind, halone⟩ := bind_eq_ok_iff.mp h
        exact .inl ⟨name, branch, rfl, hfind, halone⟩
    | object members =>
        match hfields : Json.fields members with
        | [(name, content)] =>
            have htags : (Json.object members).Tags name content :=
              ⟨members, rfl, Json.fields_eq_singleton_iff.mp hfields⟩
            rw [choice_ofJson_of_tags htags] at h
            obtain ⟨branch, hfind, hread⟩ := bind_eq_ok_iff.mp h
            exact .inr ⟨name, content, branch, htags, hfind, hread⟩
        | [] => simp [choice, hfields] at h
        | _ :: _ :: _ => simp [choice, hfields] at h
    | null => simp [choice] at h
    | boolean b => simp [choice] at h
    | number n => simp [choice] at h
    | array items => simp [choice] at h
  · rintro (⟨name, branch, rfl, hfind, halone⟩ | ⟨name, content, branch, htags, hfind, hread⟩)
    · exact bind_eq_ok_iff.mpr ⟨branch, hfind, halone⟩
    · rw [choice_ofJson_of_tags htags]
      exact bind_eq_ok_iff.mpr ⟨branch, hfind, hread⟩

end Format
end Dependence
