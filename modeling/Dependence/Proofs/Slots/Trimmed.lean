import Dependence.Proofs.Slots.Vacancies
import Mathlib.Data.List.DropRight
import Mathlib.Data.List.MinMax
import Mathlib.Order.Nat

/-! # Vacant slots at the end

Slots and what is left of them when the vacant ones at the end are cut off look the same: `exists_trimmed`
says that only vacant cells are cut off, and every view of the slots ignores these, but for their vacancies.
What is left ends with an occupied cell (`trimmed_eq_nil_or`), so its length is the `bound` of the slots, one
more than the number of the last occupied cell. -/

namespace Dependence
namespace Slots

variable {α : Type}

/-- One more than the highest number of an occupied cell; zero, if there is none. -/
def bound (s : Slots α) : Nat := (s.entries.map fun entry => entry.1 + 1).foldr max 0

/-! ### What is cut off -/

/-- Only vacant cells are cut off. -/
theorem exists_trimmed (s : Slots α) : ∃ k, s.cells = s.trimmed.cells ++ List.replicate k none := by
  refine ⟨(s.cells.rtakeWhile Option.isNone).length, ?_⟩
  have hnone : s.cells.rtakeWhile Option.isNone =
      List.replicate (s.cells.rtakeWhile Option.isNone).length none := by
    refine List.eq_replicate_of_mem fun cell hmem => ?_
    exact Option.isNone_iff_eq_none.mp (List.mem_rtakeWhile_imp hmem)
  calc
    s.cells = s.cells.rdropWhile Option.isNone ++ s.cells.rtakeWhile Option.isNone :=
      (List.rdropWhile_append_rtakeWhile ..).symm
    _ = s.trimmed.cells ++ List.replicate (s.cells.rtakeWhile Option.isNone).length none := by
      rw [← hnone]
      rfl

/-- What is left ends with an occupied cell, if it is not empty. -/
theorem trimmed_eq_nil_or (s : Slots α) :
    s.trimmed.cells = [] ∨ ∃ cells a, s.trimmed.cells = cells ++ [some a] := by
  by_cases hnil : s.trimmed.cells = []
  · exact .inl hnil
  · have hlast : ¬ (s.trimmed.cells.getLast hnil).isNone := List.rdropWhile_last_not Option.isNone s.cells hnil
    obtain ⟨a, ha⟩ := Option.ne_none_iff_exists'.mp (mt Option.isNone_iff_eq_none.mpr hlast)
    refine .inr ⟨s.trimmed.cells.dropLast, a, ?_⟩
    rw [← ha, List.dropLast_append_getLast]

theorem trimmed_trimmed (s : Slots α) : s.trimmed.trimmed = s.trimmed :=
  congrArg Slots.mk (List.rdropWhile_idempotent Option.isNone s.cells)

theorem present_trimmed (s : Slots α) : s.trimmed.present = s.present := by
  obtain ⟨k, hk⟩ := s.exists_trimmed
  unfold present
  rw [hk, List.filterMap_append]
  simp

theorem count_trimmed (s : Slots α) : s.trimmed.count = s.count := by
  unfold count
  rw [present_trimmed]

theorem entries_trimmed (s : Slots α) : s.trimmed.entries = s.entries := by
  obtain ⟨k, hk⟩ := s.exists_trimmed
  unfold entries
  rw [hk, List.zipIdx_append, List.filterMap_append, Eq.comm, List.append_right_eq_self,
    List.filterMap_eq_nil_iff]
  rintro ⟨cell, i⟩ hmem
  obtain rfl : cell = none := List.eq_of_mem_replicate (List.fst_mem_of_mem_zipIdx hmem)
  rfl

theorem get?_trimmed (s : Slots α) (i : Nat) : s.trimmed.get? i = s.get? i := by
  refine Option.ext fun a => ?_
  rw [← mem_entries, entries_trimmed, mem_entries]

theorem vacancies_trimmed (s : Slots α) :
    s.trimmed.vacancies = s.vacancies.filter fun i => i < s.trimmed.cells.length := by
  obtain ⟨k, hk⟩ := s.exists_trimmed
  have hsplit : s.vacancies = s.trimmed.vacancies ++
      vacantFrom s.trimmed.cells.length (List.replicate k (none : Option α)) := by
    have h := vacantFrom_append 0 s.trimmed.cells (List.replicate k (none : Option α))
    rw [Nat.zero_add, ← hk] at h
    exact h
  have hleft : ∀ i ∈ s.trimmed.vacancies, i < s.trimmed.cells.length := by
    intro i hi
    have h : i < 0 + s.trimmed.cells.length := (mem_vacantFrom hi).2
    omega
  have hright : ∀ i ∈ vacantFrom s.trimmed.cells.length (List.replicate k (none : Option α)),
      ¬ i < s.trimmed.cells.length := by
    intro i hi
    exact Nat.not_lt.mpr (mem_vacantFrom hi).1
  rw [hsplit, List.filter_append, List.filter_eq_self.mpr (by simpa using hleft),
    List.filter_eq_nil_iff.mpr (by simpa using hright), List.append_nil]

/-- An occupied cell lies below the bound. -/
theorem lt_bound {s : Slots α} {i : Nat} {a : α} (h : s.get? i = some a) : i < s.bound := by
  have hmem : i + 1 ∈ s.entries.map fun entry => entry.1 + 1 :=
    List.mem_map.mpr ⟨(i, a), mem_entries.mpr h, rfl⟩
  exact List.le_max_of_le hmem (Nat.le_refl _)

/-- The bound of slots is the length of what is left. -/
theorem length_trimmed (s : Slots α) : s.trimmed.cells.length = s.bound := by
  apply Nat.le_antisymm
  · rcases s.trimmed_eq_nil_or with hnil | ⟨cells, a, hlast⟩
    · rw [hnil]
      exact Nat.zero_le _
    · have hget : s.trimmed.get? cells.length = some a := by
        unfold get?
        rw [hlast, List.getElem?_concat_length]
        rfl
      rw [get?_trimmed] at hget
      have hlength : s.trimmed.cells.length = cells.length + 1 := by
        rw [hlast, List.length_append, List.length_singleton]
      rw [hlength]
      exact lt_bound hget
  · refine List.max_le_of_forall_le _ _ ?_
    intro n hn
    obtain ⟨⟨i, a⟩, hmem, rfl⟩ := List.mem_map.mp hn
    rw [mem_entries, ← get?_trimmed] at hmem
    have hlt : i < s.trimmed.cells.length := by
      by_contra hge
      unfold get? at hmem
      rw [List.getElem?_eq_none (Nat.not_lt.mp hge)] at hmem
      cases hmem
    exact hlt

end Slots
end Dependence
