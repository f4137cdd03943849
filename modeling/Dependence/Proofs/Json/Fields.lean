import Dependence.Json
import Mathlib.Data.List.Induction
import Mathlib.Data.List.Nodup

/-! # The members of an object that a reader sees

`Json.fields` puts the members of an object in ascending order of their names (`ascending_fields`), and of
several members of one name it keeps the last (`mem_fields`).  So what is seen under a name is what
`Json.field?` finds there (`field?_fields`), and of members with different names all are seen
(`perm_fields`). -/

namespace Dependence
namespace Json

/-! ### In ascending order -/

/-- Members in ascending order of their names. -/
def Ascending (members : List (String × Json)) : Prop := members.Pairwise fun a b => a.1 < b.1

theorem Ascending.ne_of_mem {first : String × Json} {rest : List (String × Json)}
    (h : Ascending (first :: rest)) {member : String × Json} (hmem : member ∈ rest) : member.1 ≠ first.1 := by
  intro heq
  have hlt := (List.pairwise_cons.mp h).1 member hmem
  rw [heq] at hlt
  exact String.lt_irrefl _ hlt

/-- A member takes the place of the one of its name. -/
theorem mem_insertField {name other : String} {v w : Json} :
    ∀ {members : List (String × Json)}, Ascending members →
      ((other, w) ∈ insertField name v members ↔ if other = name then w = v else (other, w) ∈ members)
  | [], _ => by by_cases h : other = name <;> simp [insertField, h]
  | (first, old) :: rest, hasc => by
      have hrest := (List.pairwise_cons.mp hasc).2
      have hfirst : ∀ w', (first, w') ∉ rest := fun w' hmem => hasc.ne_of_mem hmem rfl
      rw [insertField]
      split
      · rename_i heq
        subst heq
        by_cases h : other = name
        · subst h
          simp [hfirst]
        · simp [h]
      · split
        · rename_i hne hlt
          by_cases h : other = name
          · subst h
            have hnot : (other, w) ∉ rest := by
              intro hmem
              have hlt' := (List.pairwise_cons.mp hasc).1 _ hmem
              exact String.lt_irrefl _ (String.lt_trans hlt hlt')
            simp [hne, hnot]
          · simp [h]
        · rename_i hne _
          rw [List.mem_cons, mem_insertField hrest]
          by_cases h : other = name
          · subst h
            simp [hne]
          · simp [h]

theorem Ascending.insertField {name : String} {v : Json} :
    ∀ {members : List (String × Json)}, Ascending members → Ascending (insertField name v members)
  | [], _ => List.pairwise_singleton _ _
  | (first, old) :: rest, hasc => by
      obtain ⟨hfirst, hrest⟩ := List.pairwise_cons.mp hasc
      rw [Json.insertField]
      split
      · rename_i heq
        subst heq
        exact List.pairwise_cons.mpr ⟨hfirst, hrest⟩
      · split
        · rename_i hlt
          refine List.pairwise_cons.mpr ⟨?_, hasc⟩
          intro member hmem
          rcases List.mem_cons.mp hmem with rfl | hmem
          · exact hlt
          · exact String.lt_trans hlt (hfirst member hmem)
        · rename_i hne hnlt
          have hlt : first < name := by
            by_contra hle
            exact hne (String.le_antisymm (String.not_lt.mp hle) (String.not_lt.mp hnlt))
          refine List.pairwise_cons.mpr ⟨?_, Ascending.insertField hrest⟩
          rintro ⟨other, w⟩ hmem
          have hmem' := (mem_insertField hrest).mp hmem
          split at hmem'
          · rename_i heq
            subst heq
            exact hlt
          · exact hfirst _ hmem'

theorem fields_append (members : List (String × Json)) (name : String) (v : Json) :
    fields (members ++ [(name, v)]) = insertField name v (fields members) := by
  simp [fields, List.foldl_append]

theorem field?_append (members : List (String × Json)) (name other : String) (v : Json) :
    field? (members ++ [(name, v)]) other = if other = name then some v else field? members other := by
  by_cases h : name = other
  · simp [field?, h]
  · simp [field?, h, Ne.symm h]

theorem ascending_fields (members : List (String × Json)) : Ascending (fields members) := by
  induction members using List.reverseRecOn with
  | nil => exact .nil
  | append_singleton members member ih =>
      obtain ⟨name, v⟩ := member
      rw [fields_append]
      exact ih.insertField

/-- The last member of a name is what a reader sees of it. -/
theorem mem_fields {members : List (String × Json)} {name : String} {v : Json} :
    (name, v) ∈ fields members ↔ field? members name = some v := by
  induction members using List.reverseRecOn with
  | nil => simp [fields, field?]
  | append_singleton members member ih =>
      obtain ⟨other, w⟩ := member
      rw [fields_append, mem_insertField (ascending_fields members), field?_append, ih]
      split
      · rw [Option.some.injEq]
        exact eq_comm
      · rfl

theorem Ascending.nodup {members : List (String × Json)} (h : Ascending members) :
    (members.map Prod.fst).Nodup := by
  rw [List.Nodup, List.pairwise_map]
  refine h.imp ?_
  intro a b hlt heq
  rw [heq] at hlt
  exact String.lt_irrefl _ hlt

/-! ### Under one name -/

/-- The values of the members of a given name. -/
def valuesOf (members : List (String × Json)) (name : String) : List Json :=
  (members.filter fun member => member.1 = name).map Prod.snd

/-- One more value of a name. -/
def withValue (name : String) (v : Json) (values : String → List Json) (other : String) : List Json :=
  if other = name then v :: values other else values other

theorem valuesOf_cons (name : String) (v : Json) (members : List (String × Json)) :
    valuesOf ((name, v) :: members) = withValue name v (valuesOf members) := by
  funext other
  unfold valuesOf withValue
  by_cases h : name = other
  · simp [h]
  · simp [h, Ne.symm h]

theorem mem_valuesOf {members : List (String × Json)} {name : String} {v : Json} :
    v ∈ valuesOf members name ↔ (name, v) ∈ members := by
  simp [valuesOf]

theorem length_valuesOf (members : List (String × Json)) (name : String) :
    (valuesOf members name).length = (members.map Prod.fst).count name := by
  induction members with
  | nil => rfl
  | cons member members ih =>
      obtain ⟨other, v⟩ := member
      rw [valuesOf_cons, withValue, List.map_cons, List.count_cons, ← ih]
      by_cases h : name = other
      · simp [h]
      · simp [h, Ne.symm h]

theorem mem_of_field? {members : List (String × Json)} {name : String} {v : Json}
    (h : field? members name = some v) : (name, v) ∈ members := by
  obtain ⟨member, hmember, rfl⟩ := Option.map_eq_some_iff.mp h
  have hname : member.1 = name := by simpa using List.find?_some hmember
  rw [← hname]
  exact List.mem_reverse.mp (List.mem_of_find?_eq_some hmember)

theorem exists_field?_of_mem {members : List (String × Json)} {member : String × Json} (h : member ∈ members) :
    ∃ w, field? members member.1 = some w := by
  cases hseen : members.reverse.find? (fun other => other.1 = member.1) with
  | none =>
      have hnot := List.find?_eq_none.mp hseen member (List.mem_reverse.mpr h)
      exact absurd (decide_eq_true rfl) hnot
  | some other => exact ⟨other.2, congrArg (Option.map Prod.snd) hseen⟩

/-- If a name comes at most once, a reader sees all there is under it. -/
theorem valuesOf_eq_toList {members : List (String × Json)} {name : String}
    (hlength : (valuesOf members name).length ≤ 1) : valuesOf members name = (field? members name).toList := by
  have hmem : ∀ v, field? members name = some v → v ∈ valuesOf members name :=
    fun v hv => mem_valuesOf.mpr (mem_of_field? hv)
  match hvalues : valuesOf members name with
  | [] =>
      cases hseen : field? members name with
      | none => rfl
      | some v =>
          have hv := hmem v hseen
          rw [hvalues] at hv
          cases hv
  | [v] =>
      obtain ⟨w, hw⟩ := exists_field?_of_mem (mem_valuesOf.mp (hvalues ▸ List.mem_singleton_self v))
      have heq := hmem w hw
      rw [hvalues, List.mem_singleton] at heq
      rw [hw, heq]
      rfl
  | v :: w :: more =>
      rw [hvalues] at hlength
      simp at hlength

theorem valuesOf_of_nodup {members : List (String × Json)} (hnodup : (members.map Prod.fst).Nodup)
    (name : String) : valuesOf members name = (field? members name).toList := by
  refine valuesOf_eq_toList ?_
  rw [length_valuesOf]
  exact List.nodup_iff_count_le_one.mp hnodup name

/-- What a reader sees under a name does not change when it is put in order. -/
theorem field?_fields (members : List (String × Json)) (name : String) :
    field? (fields members) name = field? members name := by
  cases hsorted : field? (fields members) name with
  | some v => exact (mem_fields.mp (mem_of_field? hsorted)).symm
  | none =>
      cases hseen : field? members name with
      | none => rfl
      | some v =>
          obtain ⟨w, hw⟩ := exists_field?_of_mem (mem_fields.mpr hseen)
          rw [hsorted] at hw
          cases hw

theorem valuesOf_fields (members : List (String × Json)) (name : String) :
    valuesOf (fields members) name = (field? members name).toList := by
  rw [valuesOf_of_nodup (ascending_fields members).nodup, field?_fields]

theorem mem_names_fields_iff {members : List (String × Json)} {name : String} :
    name ∈ (fields members).map Prod.fst ↔ (field? members name).isSome := by
  rw [Option.isSome_iff_exists, List.mem_map]
  constructor
  · rintro ⟨⟨other, v⟩, hmem, rfl⟩
    exact ⟨v, mem_fields.mp hmem⟩
  · rintro ⟨v, hseen⟩
    exact ⟨(name, v), mem_fields.mpr hseen, rfl⟩

/-- Of members with different names a reader sees all. -/
theorem perm_fields {members : List (String × Json)} (h : (members.map Prod.fst).Nodup) :
    (fields members).Perm members := by
  have hsorted : (fields members).Nodup := (ascending_fields members).nodup.of_map
  refine (List.perm_ext_iff_of_nodup hsorted h.of_map).mpr ?_
  rintro ⟨name, v⟩
  rw [mem_fields, ← mem_valuesOf, valuesOf_of_nodup h, Option.mem_toList]

end Json
end Dependence
