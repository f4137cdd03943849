/-!
# Slots

A row of numbered cells in which things are placed and never moved. A cell may be vacant. A new
thing takes the vacant cell with the highest number, and a new cell at the end when none is vacant;
so vacancies only ever disappear, and those there were at the start are used last first.

`get?` is the view through which slots are seen. `get?_insert` says what placing a thing does to it:
the cell `next` now holds the thing, and every other cell holds what it held.
-/

namespace Dependence

/-- Numbered cells, some of them vacant. -/
structure Slots (α : Type) where
  cells : List (Option α) := []
  deriving DecidableEq

namespace Slots

variable {α : Type}

/-- The content of a cell; nothing, if it is vacant or does not exist. -/
def get? (s : Slots α) (i : Nat) : Option α := s.cells[i]?.join

/-- The occupied cells with their numbers, in ascending order. -/
def entries (s : Slots α) : List (Nat × α) :=
  s.cells.zipIdx.filterMap fun (cell, i) => cell.map (i, ·)

/-- The things placed, in the order of their cells. -/
def present (s : Slots α) : List α := s.cells.filterMap id

/-- How many cells are occupied. -/
def count (s : Slots α) : Nat := s.present.length

/-- The numbers of the vacant cells, in ascending order. -/
def vacancies (s : Slots α) : List Nat :=
  s.cells.zipIdx.filterMap fun (cell, i) => if cell.isNone then some i else none

/-- The vacant cell that is filled next, if one is left. -/
def vacancy? (s : Slots α) : Option Nat := s.vacancies.getLast?

/-- The number of the cell that the next thing is placed in. -/
def next (s : Slots α) : Nat := s.vacancy?.getD s.cells.length

/-- Places a thing in the cell `next`. -/
def insert (s : Slots α) (a : α) : Slots α :=
  match s.vacancy? with
  | some i => ⟨s.cells.set i (some a)⟩
  | none => ⟨s.cells ++ [some a]⟩

/-- Sets the content of a cell, after as many new vacant cells as it takes for the cell to exist. -/
def assign (s : Slots α) (i : Nat) (content : Option α) : Slots α :=
  ⟨(s.cells ++ List.replicate (i + 1 - s.cells.length) none).set i content⟩

/-- The cells up to the last occupied one. -/
def trimmed (s : Slots α) : Slots α :=
  ⟨(s.cells.reverse.dropWhile Option.isNone).reverse⟩

/-! ### What placing a thing changes -/

theorem mem_vacancies {s : Slots α} {i : Nat} : i ∈ s.vacancies ↔ s.cells[i]? = some none := by
  simp only [vacancies, List.mem_filterMap, Prod.exists, List.mem_zipIdx_iff_getElem?]
  constructor
  · rintro ⟨cell, j, h, hc⟩
    cases cell with
    | none => simp at hc; rw [← hc, h]
    | some a => simp at hc
  · intro h
    exact ⟨none, i, h, rfl⟩

theorem getElem?_of_vacancy? {s : Slots α} {i : Nat} (h : s.vacancy? = some i) :
    s.cells[i]? = some none :=
  mem_vacancies.mp (List.mem_of_getLast? h)

/-- The cell that is filled next holds nothing. -/
theorem get?_next (s : Slots α) : s.get? s.next = none := by
  cases h : s.vacancy? with
  | none => simp [get?, next, h]
  | some i => simp [get?, next, h, getElem?_of_vacancy? h]

/-- Placing a thing fills the cell `next` and leaves the others as they were. -/
theorem get?_insert (s : Slots α) (a : α) (i : Nat) :
    (s.insert a).get? i = if i = s.next then some a else s.get? i := by
  cases h : s.vacancy? with
  | none =>
    simp only [insert, next, h, get?, Option.getD_none]
    by_cases hi : i = s.cells.length
    · simp [hi]
    · by_cases hlt : i < s.cells.length
      · simp [hi, List.getElem?_append_left hlt]
      · have hlong : (s.cells ++ [some a])[i]? = none :=
          List.getElem?_eq_none (by rw [List.length_append, List.length_singleton]; omega)
        have hshort : s.cells[i]? = none := List.getElem?_eq_none (by omega)
        simp [hi, hlong, hshort]
  | some j =>
    have hj := getElem?_of_vacancy? h
    have hlt : j < s.cells.length := (List.getElem?_eq_some_iff.mp hj).1
    simp only [insert, next, h, get?, Option.getD_some]
    by_cases hi : i = j
    · subst hi; simp [hlt]
    · simp [hi, List.getElem?_set_ne (Ne.symm hi)]

/-- Slots never become fewer. -/
theorem length_le_length_insert (s : Slots α) (a : α) :
    s.cells.length ≤ (s.insert a).cells.length := by
  cases h : s.vacancy? with
  | none => simp [insert, h]
  | some i => simp [insert, h]

/-- The cell that a thing is placed in exists afterwards. -/
theorem next_lt_length_insert (s : Slots α) (a : α) : s.next < (s.insert a).cells.length := by
  cases h : s.vacancy? with
  | none => simp [insert, next, h]
  | some i =>
    have hlt : i < s.cells.length := (List.getElem?_eq_some_iff.mp (getElem?_of_vacancy? h)).1
    simpa [insert, next, h] using hlt

/-- Setting a cell leaves the others as they were. -/
theorem get?_assign (s : Slots α) (i : Nat) (content : Option α) (j : Nat) :
    (s.assign i content).get? j = if j = i then content else s.get? j := by
  simp only [get?, assign]
  by_cases hj : j = i
  · subst hj
    have hlt : j < (s.cells ++ List.replicate (j + 1 - s.cells.length) none).length := by
      simp; omega
    simp [List.getElem?_set_self hlt]
  · rw [List.getElem?_set_ne (Ne.symm hj), if_neg hj, List.getElem?_append]
    split
    · rfl
    · rename_i hlt
      rw [List.getElem?_eq_none (Nat.le_of_not_lt hlt), List.getElem?_replicate]
      split <;> rfl

theorem lt_length_assign (s : Slots α) (i : Nat) (content : Option α) :
    i < (s.assign i content).cells.length := by
  simp only [assign, List.length_set, List.length_append, List.length_replicate]
  omega

theorem length_le_length_assign (s : Slots α) (i : Nat) (content : Option α) :
    s.cells.length ≤ (s.assign i content).cells.length := by
  simp [assign]

/-! ### Counting and listing -/

/-- Placing a thing occupies one cell more. -/
theorem count_insert (s : Slots α) (a : α) : (s.insert a).count = s.count + 1 := by
  cases h : s.vacancy? with
  | none => simp [insert, h, count, present]
  | some i =>
    obtain ⟨hlt, hi⟩ := List.getElem?_eq_some_iff.mp (getElem?_of_vacancy? h)
    simp [insert, h, count, present, List.length_filterMap_eq_countP, List.countP_set hlt, hi]

theorem mem_entries {s : Slots α} {i : Nat} {a : α} : (i, a) ∈ s.entries ↔ s.get? i = some a := by
  simp only [entries, get?, List.mem_filterMap, Prod.exists, List.mem_zipIdx_iff_getElem?,
    Option.map_eq_some_iff, Prod.mk.injEq]
  constructor
  · rintro ⟨cell, j, h, x, rfl, rfl, rfl⟩
    simp [h]
  · intro h
    refine ⟨some a, i, ?_, a, rfl, rfl, rfl⟩
    cases hc : s.cells[i]? with
    | none => simp [hc] at h
    | some cell => simpa [hc] using h

theorem entries_map_snd (s : Slots α) : s.entries.map Prod.snd = s.present := by
  have hcells : s.cells = s.cells.zipIdx.map Prod.fst := (List.zipIdx_map_fst 0 s.cells).symm
  rw [present, hcells, List.filterMap_map, entries, List.map_filterMap]
  congr 1
  funext ⟨cell, i⟩
  cases cell <;> rfl

end Slots

end Dependence
