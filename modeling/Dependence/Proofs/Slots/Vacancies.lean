import Dependence.Slots
import Mathlib.Data.List.Basic

/-! # Vacant cells

The numbers of the vacant cells ascend (`pairwise_vacantFrom`), and together with the things placed they
determine the cells (`eq_of_vacantFrom_eq`).

Placing a thing takes the last vacancy, or a new cell at the end when there is none (`vacancies_insert`,
`length_insert`).  So it is known beforehand which cell each further thing will get: `Slots.upcoming` counts
the vacancies down and then goes on from the number of cells, and placing a thing only shifts it
(`upcoming_insert`). -/

namespace Dependence
namespace Slots

variable {α : Type}

/-- The numbers of the vacant cells among some, when these are numbered from `start` on. -/
def vacantFrom (start : Nat) (cells : List (Option α)) : List Nat :=
  (cells.zipIdx start).filterMap fun (cell, i) => if cell.isNone then some i else none

/-- The cell that each further thing will get, the next one having number zero. -/
def upcoming (s : Slots α) (k : Nat) : Nat :=
  s.vacancies.reverse[k]?.getD (s.cells.length + (k - s.vacancies.length))

/-! ### Vacant cells in a row of cells -/

theorem vacantFrom_cons_some (start : Nat) (a : α) (cells : List (Option α)) :
    vacantFrom start (some a :: cells) = vacantFrom (start + 1) cells := rfl

theorem vacantFrom_cons_none (start : Nat) (cells : List (Option α)) :
    vacantFrom start (none :: cells) = start :: vacantFrom (start + 1) cells := rfl

theorem vacantFrom_append (start : Nat) (cells more : List (Option α)) :
    vacantFrom start (cells ++ more) = vacantFrom start cells ++ vacantFrom (start + cells.length) more := by
  unfold vacantFrom
  rw [List.zipIdx_append, List.filterMap_append]

theorem vacantFrom_map_some (start : Nat) (xs : List α) : vacantFrom start (xs.map some) = [] := by
  induction xs generalizing start with
  | nil => rfl
  | cons x xs ih => exact ih (start + 1)

theorem mem_vacantFrom {start i : Nat} {cells : List (Option α)} (h : i ∈ vacantFrom start cells) :
    start ≤ i ∧ i < start + cells.length := by
  obtain ⟨⟨cell, j⟩, hmem, hi⟩ := List.mem_filterMap.mp h
  have hj := List.mem_zipIdx hmem
  cases cell with
  | some a => cases hi
  | none =>
      obtain rfl := Option.some.inj hi
      exact ⟨hj.1, hj.2.1⟩

theorem length_vacantFrom (start : Nat) (cells : List (Option α)) :
    (cells.filterMap id).length + (vacantFrom start cells).length = cells.length := by
  induction cells generalizing start with
  | nil => rfl
  | cons cell cells ih =>
      have hrest := ih (start + 1)
      cases cell with
      | some a =>
          rw [vacantFrom_cons_some, List.filterMap_cons_some (f := id) rfl, List.length_cons, List.length_cons]
          omega
      | none =>
          rw [vacantFrom_cons_none, List.filterMap_cons_none (f := id) rfl, List.length_cons, List.length_cons]
          omega

theorem pairwise_vacantFrom (start : Nat) (cells : List (Option α)) :
    (vacantFrom start cells).Pairwise (· < ·) := by
  induction cells generalizing start with
  | nil => exact .nil
  | cons cell cells ih =>
      cases cell with
      | some a => exact ih (start + 1)
      | none =>
          rw [vacantFrom_cons_none, List.pairwise_cons]
          refine ⟨?_, ih (start + 1)⟩
          intro i hi
          have hle := (mem_vacantFrom hi).1
          omega

/-- Cells are known from what lies in them and which of them are vacant. -/
theorem eq_of_vacantFrom_eq {start : Nat} {cells more : List (Option α)}
    (hpresent : cells.filterMap id = more.filterMap id)
    (hvacant : vacantFrom start cells = vacantFrom start more) : cells = more := by
  induction cells generalizing start more with
  | nil =>
      have hlength := length_vacantFrom start more
      rw [← hpresent, ← hvacant] at hlength
      exact (List.eq_nil_of_length_eq_zero hlength.symm).symm
  | cons cell cells ih =>
      -- A row that begins with a thing has no vacancy at its start.
      have hclash : ∀ (a : α) (xs ys : List (Option α)),
          vacantFrom start (some a :: xs) ≠ vacantFrom start (none :: ys) := by
        intro a xs ys he
        rw [vacantFrom_cons_some, vacantFrom_cons_none] at he
        have hle : start + 1 ≤ start := (mem_vacantFrom (he ▸ List.mem_cons_self)).1
        omega
      cases more with
      | nil =>
          have hlength := length_vacantFrom start (cell :: cells)
          rw [hpresent, hvacant] at hlength
          cases hlength
      | cons other more =>
          cases cell with
          | some a =>
              cases other with
              | none => exact absurd hvacant (hclash a cells more)
              | some b =>
                  obtain ⟨rfl, hrest⟩ := List.cons.inj hpresent
                  exact congrArg (some a :: ·) (ih hrest hvacant)
          | none =>
              cases other with
              | some b => exact absurd hvacant.symm (hclash b more cells)
              | none => exact congrArg (none :: ·) (ih hpresent (List.cons.inj hvacant).2)

/-- The occupied cells are those that are not vacant. -/
theorem entries_map_fst (s : Slots α) :
    s.entries.map Prod.fst = (List.range s.cells.length).filter fun i => i ∉ s.vacancies := by
  have hfst : s.entries.map Prod.fst = (s.cells.zipIdx.filter (·.1.isSome)).map Prod.snd := by
    rw [entries, List.map_filterMap, ← List.filterMap_eq_filter, List.map_filterMap]
    congr 1
    funext entry
    obtain ⟨cell, i⟩ := entry
    cases cell <;> rfl
  have hrange : List.range s.cells.length = s.cells.zipIdx.map Prod.snd := by
    rw [List.zipIdx_map_snd, List.range_eq_range']
  rw [hfst, hrange, List.filter_map]
  congr 1
  refine List.filter_congr ?_
  rintro ⟨cell, i⟩ hmem
  have hcell : s.cells[i]? = some cell := List.mem_zipIdx_iff_getElem?.mp hmem
  have hvacant : i ∈ s.vacancies ↔ cell = none := by
    rw [mem_vacancies, hcell, Option.some.injEq]
  cases cell <;> simp [hvacant]

/-- Every cell stands at most once among the entries. -/
theorem nodup_entries_map_fst (s : Slots α) : (s.entries.map Prod.fst).Nodup := by
  rw [entries_map_fst]
  exact List.nodup_range.filter _

/-- Placing a thing takes the last vacancy. -/
theorem vacancies_insert (s : Slots α) (a : α) : (s.insert a).vacancies = s.vacancies.dropLast := by
  cases h : s.vacancy? with
  | none =>
      have hnil : s.vacancies = [] := List.getLast?_eq_none_iff.mp h
      have happend := vacantFrom_append 0 s.cells [some a]
      rw [show vacantFrom 0 s.cells = [] from hnil] at happend
      rw [hnil, insert, h]
      exact happend
  | some i =>
      obtain ⟨hlt, hi⟩ := List.getElem?_eq_some_iff.mp (getElem?_of_vacancy? h)
      obtain ⟨before, after, hcells, rfl, hset⟩ := List.exists_of_set hlt
      have hvacant : s.vacancies =
          vacantFrom 0 before ++ before.length :: vacantFrom (before.length + 1) after := by
        have happend := vacantFrom_append 0 before (none :: after)
        rw [← hi, ← hcells, hi, vacantFrom_cons_none, Nat.zero_add] at happend
        exact happend
      -- The cell is the last vacant one, so nothing after it is vacant.
      have hlast : vacantFrom (before.length + 1) after = [] := by
        by_contra hne
        have hget : (vacantFrom (before.length + 1) after).getLast? = some before.length := by
          rw [vacancy?, hvacant, List.getLast?_append_of_ne_nil _ (List.cons_ne_nil _ _),
            List.getLast?_cons_of_ne_nil hne] at h
          exact h
        have hle := (mem_vacantFrom (List.mem_of_getLast? hget)).1
        omega
      have hinsert : (s.insert a).vacancies = vacantFrom 0 before ++ vacantFrom (before.length + 1) after := by
        have happend := vacantFrom_append 0 before (some a :: after)
        rw [← hset, vacantFrom_cons_some, Nat.zero_add] at happend
        rw [insert, h]
        exact happend
      rw [hinsert, hvacant, hlast, List.append_nil, List.dropLast_concat]

theorem length_insert (s : Slots α) (a : α) :
    (s.insert a).cells.length = s.cells.length + if s.vacancies = [] then 1 else 0 := by
  cases h : s.vacancy? with
  | none =>
      have hnil : s.vacancies = [] := List.getLast?_eq_none_iff.mp h
      simp [insert, h, hnil]
  | some i =>
      have hne : s.vacancies ≠ [] := by
        intro hnil
        rw [vacancy?, hnil] at h
        cases h
      simp [insert, h, hne]

/-- Either a vacancy less is left to be taken, or there is a cell more. -/
theorem length_insert_add (s : Slots α) (a : α) (k : Nat) :
    (s.insert a).cells.length + (k - (s.insert a).vacancies.length) =
      s.cells.length + (k + 1 - s.vacancies.length) := by
  rw [length_insert, vacancies_insert, List.length_dropLast]
  by_cases hnil : s.vacancies = []
  · rw [if_pos hnil, hnil, List.length_nil]
    omega
  · have hpos : 0 < s.vacancies.length := List.length_pos_iff.mpr hnil
    rw [if_neg hnil]
    omega

theorem upcoming_zero (s : Slots α) : s.upcoming 0 = s.next := by
  unfold upcoming next vacancy?
  rw [← List.head?_eq_getElem?, List.head?_reverse, Nat.zero_sub, Nat.add_zero]

/-- Once a thing is placed, the others move up. -/
theorem upcoming_insert (s : Slots α) (a : α) (k : Nat) : (s.insert a).upcoming k = s.upcoming (k + 1) := by
  have hget : s.vacancies.dropLast.reverse[k]? = s.vacancies.reverse[k + 1]? := by
    rw [← List.tail_reverse, List.getElem?_tail]
  rw [upcoming, length_insert_add, vacancies_insert, hget]
  rfl

/-! ### Placing several things -/

/-- Places things one after the other. -/
def insertAll (s : Slots α) (things : List α) : Slots α := things.foldl insert s

theorem insertAll_append (s : Slots α) (things more : List α) :
    s.insertAll (things ++ more) = (s.insertAll things).insertAll more :=
  List.foldl_append

/-- Once several things are placed, the others move up by as many cells. -/
theorem upcoming_insertAll (s : Slots α) (things : List α) (k : Nat) :
    (s.insertAll things).upcoming k = s.upcoming (things.length + k) := by
  induction things generalizing s with
  | nil => rw [List.length_nil, Nat.zero_add]; rfl
  | cons thing things ih =>
      have hstep : (s.insertAll (thing :: things)).upcoming k = (s.insert thing).upcoming (things.length + k) :=
        ih (s.insert thing)
      rw [hstep, upcoming_insert, List.length_cons, Nat.add_right_comm]

theorem vacancy?_insertAll (s : Slots α) (things : List α) :
    (s.insertAll things).vacancy? = s.vacancies.reverse[things.length]? := by
  induction things generalizing s with
  | nil => rw [List.length_nil, ← List.head?_eq_getElem?, List.head?_reverse]; rfl
  | cons thing things ih =>
      have hstep : (s.insertAll (thing :: things)).vacancy? = (s.insert thing).vacancies.reverse[things.length]? :=
        ih (s.insert thing)
      rw [hstep, vacancies_insert, ← List.tail_reverse, List.getElem?_tail, List.length_cons]

theorem count_insertAll (s : Slots α) (things : List α) :
    (s.insertAll things).count = s.count + things.length := by
  induction things generalizing s with
  | nil => rfl
  | cons thing things ih =>
      have hstep : (s.insertAll (thing :: things)).count = (s.insert thing).count + things.length := ih _
      rw [hstep, count_insert, List.length_cons, Nat.add_right_comm, Nat.add_assoc]

theorem length_insertAll (s : Slots α) (things : List α) :
    (s.insertAll things).cells.length = s.cells.length + (things.length - s.vacancies.length) := by
  induction things generalizing s with
  | nil => simp [insertAll]
  | cons thing things ih =>
      have hstep : (s.insertAll (thing :: things)).cells.length =
          (s.insert thing).cells.length + (things.length - (s.insert thing).vacancies.length) := ih _
      rw [hstep, length_insert_add, List.length_cons]

/-- Things keep their cells. -/
theorem get?_insertAll {s : Slots α} {i : Nat} {a : α} (h : s.get? i = some a) (things : List α) :
    (s.insertAll things).get? i = some a := by
  induction things generalizing s with
  | nil => exact h
  | cons thing things ih =>
      refine ih ?_
      have hne : i ≠ s.next := by
        intro he
        rw [he, get?_next] at h
        cases h
      rw [get?_insert, if_neg hne, h]

/-- Each thing is found in the cell that was to be taken by it. -/
theorem get?_insertAll_upcoming (s : Slots α) {things : List α} {k : Nat} {a : α}
    (h : things[k]? = some a) : (s.insertAll things).get? (s.upcoming k) = some a := by
  induction things generalizing s k with
  | nil => cases h
  | cons thing things ih =>
      cases k with
      | zero =>
          obtain rfl := Option.some.inj h
          rw [upcoming_zero]
          refine get?_insertAll ?_ things
          rw [get?_insert, if_pos rfl]
      | succ k =>
          rw [← upcoming_insert s thing]
          exact ih (s.insert thing) h

end Slots
end Dependence
