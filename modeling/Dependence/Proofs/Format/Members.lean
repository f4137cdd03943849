import Dependence.Proofs.Format.Record
import Dependence.Proofs.Json.Rounds

/-! # What records are read from

A reader of trees visits the members of an object in ascending order of their names, and of several members
of one name it sees the last (`Json.mem_fields`).  Each visit adds a value to what is read so far, and at the
end the values that are lacking are made up for or missed.

`row.Completes good cells values xs` says the same without an order: every field has its value from what is
read so far, from the one value under its name, or from its default.  `good` says which value a field has from
a tree, so that the readers of trees and of texts can both be described by it.  An object is read as the
values that its members complete the row to (`Row.ofMembers_eq_ok_iff`).

`row.Blames look m` says which mismatch is reported: that of the first field in order of names whose value
does not fit, and if all of them fit the first field in order of the row that is missing
(`Row.ofMembers_eq_error_iff`). -/

namespace Dependence

namespace Row

variable {ρ π : Type}

/-! ### Completing a row -/

/-- What the reader of trees makes of a tree. -/
def fromTree {α : Type} (f : Format α) (v : Json) (x : α) : Prop := f.ofJson v = .ok x

/-- A field has its value from what is read so far, from the one value that there is, or from its default. -/
def Fills (good : ∀ {α : Type}, Format α → Json → α → Prop) {α : Type} (format : Format α)
    (ifAbsent : Option α) (x : α) : Option α → List Json → Prop
  | some y, [] => x = y
  | none, [v] => good format v x
  | none, [] => ifAbsent = some x
  | _, _ => False

/-- What is read so far and one value at most under each name make up the values of a row. -/
def Completes (good : ∀ {α : Type}, Format α → Json → α → Prop) {ρ π : Type} :
    Row ρ π → π → (String → List Json) → ρ → Prop
  | .nil, (), _, () => True
  | .cons name format ifAbsent _ rest, (cell, cells), values, (x, xs) =>
      Fills good format ifAbsent x cell (values name) ∧ rest.Completes good cells values xs

/-- A member adds its value to what is read so far, if it is a field. -/
def Takes (good : ∀ {α : Type}, Format α → Json → α → Prop) (name : String) (v : Json) {ρ π : Type} :
    Row ρ π → π → π → Prop
  | .nil, (), () => True
  | .cons other format _ _ rest, (cell, cells), (cell', cells') =>
      if name = other then cell = none ∧ (∃ x, cell' = some x ∧ good format v x) ∧ cells' = cells
      else cell' = cell ∧ rest.Takes good name v cells cells'

variable {good : ∀ {α : Type}, Format α → Json → α → Prop} {name : String} {v : Json}

theorem completes_congr {values values' : String → List Json} {ρ π : Type} :
    ∀ (row : Row ρ π) (cells : π) (xs : ρ), (∀ name ∈ row.names, values name = values' name) →
      (row.Completes good cells values xs ↔ row.Completes good cells values' xs)
  | .nil, (), (), _ => Iff.rfl
  | .cons name _ _ _ rest, (cell, cells), (x, xs), h => by
      have hrest := completes_congr rest cells xs
        fun other hmem => h other (List.mem_cons_of_mem _ hmem)
      rw [Completes, Completes, h name List.mem_cons_self, hrest]

theorem Fills.length_le {α : Type} {format : Format α} {ifAbsent : Option α} {x : α} :
    ∀ {cell : Option α} {values : List Json},
      Fills good format ifAbsent x cell values → values.length ≤ 1
  | some _, [], _ => Nat.zero_le _
  | none, [], _ => Nat.zero_le _
  | none, [_], _ => Nat.le_refl _
  | some _, _ :: _, h => h.elim
  | none, _ :: _ :: _, h => h.elim

/-- A row that is complete has one value at most for a field. -/
theorem Completes.length_le {values : String → List Json} {ρ π : Type} :
    ∀ {row : Row ρ π} {cells : π} {xs : ρ}, row.Completes good cells values xs →
      ∀ name ∈ row.names, (values name).length ≤ 1
  | .nil, (), (), _, _, hmem => by cases hmem
  | .cons _ _ _ _ rest, (_, _), (_, _), h, name, hmem => by
      rcases List.mem_cons.mp hmem with rfl | hmem
      · exact Fills.length_le h.1
      · exact Completes.length_le h.2 name hmem

theorem finish_cons {α : Type} (name : String) (format : Format α) (ifAbsent ifShort : Option α)
    (rest : Row ρ π) (cell : Option α) (cells : π) :
    (cons name format ifAbsent ifShort rest).finish (cell, cells) =
      match cell.or ifAbsent with
      | none => .error (.missingField name)
      | some x => rest.finish cells >>= fun xs => .ok (x, xs) :=
  rfl

theorem finish_eq_ok_iff {ρ π : Type} : ∀ {row : Row ρ π} {cells : π} {xs : ρ},
    row.finish cells = .ok xs ↔ row.Completes good cells (fun _ => []) xs
  | .nil, (), () => iff_of_true rfl trivial
  | .cons name format ifAbsent _ rest, (cell, cells), (x, xs) => by
      have hcell : Fills good format ifAbsent x cell [] ↔ cell.or ifAbsent = some x := by
        cases cell with
        | some y => exact eq_comm.trans (Option.some.injEq y x).symm.to_iff
        | none => exact Iff.rfl
      rw [Completes, ← finish_eq_ok_iff, hcell, finish_cons]
      cases cell.or ifAbsent with
      | none => simp
      | some y =>
          show (rest.finish cells >>= fun xs => .ok (y, xs)) = .ok (x, xs) ↔ _
          rw [bind_eq_ok_iff]
          simp [and_comm]

/-- With one value more a field has its value just if nothing was read so far and it comes from this value. -/
theorem fills_cons_iff {α : Type} {format : Format α} {ifAbsent : Option α} {x : α} :
    ∀ {cell : Option α} {values : List Json},
      Fills good format ifAbsent x cell (v :: values) ↔
        cell = none ∧ ∃ y, good format v y ∧ Fills good format ifAbsent x (some y) values
  | some y, values => iff_of_false id fun h => by cases h.1
  | none, w :: more => iff_of_false id fun ⟨_, _, _, h⟩ => h
  | none, [] => ⟨fun h => ⟨rfl, x, h, rfl⟩, fun ⟨_, _, hy, h⟩ => (show x = _ from h) ▸ hy⟩

/-- A value is complete with what is taken from a member just if it is with the member. -/
theorem exists_takes_iff {values : String → List Json} {ρ π : Type} :
    ∀ {row : Row ρ π} {cells : π} {xs : ρ}, row.names.Nodup →
      ((∃ cells', row.Takes good name v cells cells' ∧ row.Completes good cells' values xs) ↔
        row.Completes good cells (Json.withValue name v values) xs)
  | .nil, (), (), _ => ⟨fun _ => trivial, fun _ => ⟨(), trivial, trivial⟩⟩
  | .cons other format ifAbsent _ rest, (cell, cells), (x, xs), hnodup => by
      obtain ⟨hother, hrest⟩ := List.nodup_cons.mp hnodup
      by_cases hname : name = other
      · subst hname
        have hsame : rest.Completes good cells (Json.withValue name v values) xs ↔
            rest.Completes good cells values xs := by
          refine completes_congr _ _ _ fun field hmem => ?_
          exact if_neg fun heq : field = name => hother (heq ▸ hmem)
        have hhere : Json.withValue name v values name = v :: values name := if_pos rfl
        rw [Completes, hsame, hhere, fills_cons_iff]
        constructor
        · rintro ⟨⟨cell', cells'⟩, htakes, hcell, hcells⟩
          rw [Takes, if_pos rfl] at htakes
          obtain ⟨hnone, ⟨y, rfl, hy⟩, rfl⟩ := htakes
          exact ⟨⟨hnone, y, hy, hcell⟩, hcells⟩
        · rintro ⟨⟨hnone, y, hy, hcell⟩, hcells⟩
          refine ⟨(some y, cells), ?_, hcell, hcells⟩
          rw [Takes, if_pos rfl]
          exact ⟨hnone, ⟨y, rfl, hy⟩, rfl⟩
      · have helsewhere : Json.withValue name v values other = values other := if_neg (Ne.symm hname)
        rw [Completes, helsewhere, ← exists_takes_iff hrest]
        constructor
        · rintro ⟨⟨cell', cells'⟩, htakes, hcell, hcells⟩
          rw [Takes, if_neg hname] at htakes
          obtain ⟨rfl, htakes⟩ := htakes
          exact ⟨hcell, cells', htakes, hcells⟩
        · rintro ⟨hcell, cells', htakes, hcells⟩
          refine ⟨(cell, cells'), ?_, hcell, hcells⟩
          rw [Takes, if_neg hname]
          exact ⟨rfl, htakes⟩

/-! ### Objects that are read -/

theorem visit_cons {α : Type} (other : String) (format : Format α) (ifAbsent ifShort : Option α)
    (rest : Row ρ π) (cell : Option α) (cells : π) :
    (cons other format ifAbsent ifShort rest).visit name v (cell, cells) =
      if name = other then
        match cell with
        | some _ => .error (.duplicateField name)
        | none => format.ofJson v >>= fun x => .ok (some x, cells)
      else rest.visit name v cells >>= fun cells => .ok (cell, cells) :=
  rfl

theorem visit_eq_ok_iff {ρ π : Type} : ∀ {row : Row ρ π} {cells cells' : π},
    row.visit name v cells = .ok cells' ↔ row.Takes fromTree name v cells cells'
  | .nil, (), () => iff_of_true rfl trivial
  | .cons other format _ _ rest, (cell, cells), (cell', cells') => by
      rw [Takes, visit_cons]
      split
      · cases cell with
        | some y => simp
        | none =>
            show (format.ofJson v >>= fun x => .ok (some x, cells)) = .ok (cell', cells') ↔ _
            rw [bind_eq_ok_iff]
            constructor
            · rintro ⟨x, hx, hcells⟩
              obtain ⟨rfl, rfl⟩ := Prod.mk.inj (Except.ok.inj hcells)
              exact ⟨rfl, ⟨x, rfl, hx⟩, rfl⟩
            · rintro ⟨-, ⟨x, rfl, hx⟩, rfl⟩
              exact ⟨x, hx, rfl⟩
      · rw [← visit_eq_ok_iff, bind_eq_ok_iff]
        constructor
        · rintro ⟨mid, hmid, hcells⟩
          obtain ⟨rfl, rfl⟩ := Prod.mk.inj (Except.ok.inj hcells)
          exact ⟨rfl, hmid⟩
        · rintro ⟨rfl, hmid⟩
          exact ⟨cells', hmid, rfl⟩

/-- Members complete a row in whatever order they are visited. -/
theorem exists_foldlM_visit_iff {row : Row ρ π} (hnodup : row.names.Nodup) {xs : ρ} :
    ∀ {members : List (String × Json)} {cells : π},
      ((∃ cells', members.foldlM (fun cells (name, v) => row.visit name v cells) cells = .ok cells' ∧
        row.finish cells' = .ok xs) ↔ row.Completes fromTree cells (Json.valuesOf members) xs)
  | [], cells => by
      rw [show Json.valuesOf [] = fun _ => [] from rfl, ← finish_eq_ok_iff]
      constructor
      · rintro ⟨cells', hcells, hfinish⟩
        obtain rfl : cells = cells' := Except.ok.inj hcells
        exact hfinish
      · intro hfinish
        exact ⟨cells, rfl, hfinish⟩
  | (name, v) :: members, cells => by
      rw [Json.valuesOf_cons, ← exists_takes_iff hnodup]
      constructor
      · rintro ⟨cells', hfold, hfinish⟩
        rw [List.foldlM_cons] at hfold
        obtain ⟨mid, hmid, hrest⟩ := bind_eq_ok_iff.mp hfold
        exact ⟨mid, visit_eq_ok_iff.mp hmid, (exists_foldlM_visit_iff hnodup).mp ⟨cells', hrest, hfinish⟩⟩
      · rintro ⟨mid, hmid, hcompletes⟩
        obtain ⟨cells', hrest, hfinish⟩ := (exists_foldlM_visit_iff hnodup).mpr hcompletes
        refine ⟨cells', ?_, hfinish⟩
        rw [List.foldlM_cons]
        exact bind_eq_ok_iff.mpr ⟨mid, visit_eq_ok_iff.mpr hmid, hrest⟩

/-- An object is read as the values that its members complete the row to. -/
theorem ofMembers_eq_ok_iff {row : Row ρ π} (hnodup : row.names.Nodup) {members : List (String × Json)}
    {xs : ρ} : row.ofMembers members = .ok xs ↔
      row.Completes fromTree row.blank (fun name => (Json.field? members name).toList) xs := by
  rw [← funext (Json.valuesOf_fields members), ← exists_foldlM_visit_iff hnodup]
  exact bind_eq_ok_iff

/-- Every field has the value under its name, or the one that stands in for it. -/
def Spells (look : String → Option Json) {ρ π : Type} : Row ρ π → ρ → Prop
  | .nil, () => True
  | .cons name format ifAbsent _ rest, (x, xs) =>
      (match look name with
        | some v => format.ofJson v = .ok x
        | none => ifAbsent = some x) ∧ rest.Spells look xs

/-- A field that has to be there. -/
theorem spells_field_iff {look : String → Option Json} {α : Type} {name : String} {format : Format α}
    {rest : Row ρ π} {x : α} {xs : ρ} :
    (field name format rest).Spells look (x, xs) ↔
      (∃ v, look name = some v ∧ format.ofJson v = .ok x) ∧ rest.Spells look xs := by
  rw [field, Spells]
  cases look name <;> simp

theorem completes_blank_iff {look : String → Option Json} {ρ π : Type} : ∀ {row : Row ρ π} {xs : ρ},
    row.Completes fromTree row.blank (fun name => (look name).toList) xs ↔ row.Spells look xs
  | .nil, () => Iff.rfl
  | .cons name _ _ _ rest, (x, xs) => by
      rw [blank, Completes, Spells, completes_blank_iff]
      cases look name with
      | none => exact Iff.rfl
      | some v => exact Iff.rfl

theorem ofMembers_eq_ok_iff_spells {row : Row ρ π} (hnodup : row.names.Nodup)
    {members : List (String × Json)} {xs : ρ} :
    row.ofMembers members = .ok xs ↔ row.Spells (Json.field? members) xs :=
  (ofMembers_eq_ok_iff hnodup).trans completes_blank_iff

/-! ### Arrays that are read -/

/-- The items of an array are the values of a row in its order. -/
def Enumerates {ρ π : Type} : Row ρ π → List Json → ρ → List Json → Prop
  | .nil, items, (), left => left = items
  | .cons _ format _ _ rest, item :: items, (x, xs), left => format.ofJson item = .ok x ∧ rest.Enumerates items xs left
  | .cons _ _ _ ifShort rest, [], (x, xs), left => ifShort = some x ∧ rest.Enumerates [] xs left

/-- A field that an array has to have. -/
theorem enumerates_cons_iff {α : Type} {name : String} {format : Format α} {ifAbsent : Option α}
    {rest : Row ρ π} {items left : List Json} {x : α} {xs : ρ} :
    (cons name format ifAbsent none rest).Enumerates items (x, xs) left ↔
      ∃ item others, items = item :: others ∧ format.ofJson item = .ok x ∧ rest.Enumerates others xs left := by
  cases items <;> simp [Enumerates]

theorem ofFront_eq_ok_iff (expected : String) {ρ π : Type} :
    ∀ {row : Row ρ π} (read : Nat) {items left : List Json} {xs : ρ},
      row.ofFront expected read items = .ok (xs, left) ↔ row.Enumerates items xs left
  | .nil, _, items, left, () => by simp [ofFront, Enumerates, eq_comm]
  | .cons _ format _ _ rest, read, item :: items, left, (x, xs) => by
      rw [ofFront, Enumerates, ← ofFront_eq_ok_iff expected (read + 1), bind_eq_ok_iff]
      constructor
      · rintro ⟨y, hy, h⟩
        obtain ⟨⟨ys, left'⟩, hys, he⟩ := bind_eq_ok_iff.mp h
        simp only [Except.ok.injEq, Prod.mk.injEq] at he
        obtain ⟨⟨rfl, rfl⟩, rfl⟩ := he
        exact ⟨hy, hys⟩
      · rintro ⟨hx, hxs⟩
        exact ⟨x, hx, bind_eq_ok_iff.mpr ⟨_, hxs, rfl⟩⟩
  | .cons _ _ _ (some y) rest, read, [], left, (x, xs) => by
      rw [ofFront, Enumerates, ← ofFront_eq_ok_iff expected (read + 1), bind_eq_ok_iff, Option.some.injEq]
      constructor
      · rintro ⟨⟨ys, left'⟩, hys, he⟩
        simp only [Except.ok.injEq, Prod.mk.injEq] at he
        obtain ⟨⟨rfl, rfl⟩, rfl⟩ := he
        exact ⟨rfl, hys⟩
      · rintro ⟨rfl, hxs⟩
        exact ⟨_, hxs, rfl⟩
  | .cons _ _ _ none rest, read, [], left, (x, xs) => by simp [ofFront, Enumerates]

/-- An array is read as the values of a row if it has all of them and no more. -/
theorem ofItems_eq_ok_iff {row : Row ρ π} {expected : String} {items : List Json} {xs : ρ} :
    row.ofItems expected items = .ok xs ↔ row.Enumerates items xs [] := by
  rw [← ofFront_eq_ok_iff expected 0]
  unfold ofItems
  rw [bind_eq_ok_iff]
  constructor
  · rintro ⟨⟨ys, left⟩, hfront, h⟩
    dsimp only at h
    split at h
    · rename_i hleft
      rw [hfront, Except.ok.inj h, List.isEmpty_iff.mp hleft]
    · cases h
  · intro hfront
    exact ⟨(xs, []), hfront, rfl⟩

/-! ### What is reported -/

/-- What is wrong with the value of a field. -/
def flaw (name : String) (v : Json) {ρ π : Type} : Row ρ π → Option Mismatch
  | .nil => none
  | .cons other format _ _ rest =>
    if name = other then
      match format.ofJson v with
      | .ok _ => none
      | .error m => some m
    else rest.flaw name v

/-- The first field of the row that is not there and has nothing to stand in for it. -/
def lacking (isThere : String → Bool) {ρ π : Type} : Row ρ π → Option String
  | .nil => none
  | .cons name _ ifAbsent _ rest =>
    if isThere name || ifAbsent.isSome then rest.lacking isThere else some name

/-- The mismatch that is reported of an object. -/
inductive Blames (row : Row ρ π) (look : String → Option Json) : Mismatch → Prop
  /-- A value does not fit its field, and the values under all lesser names do. -/
  | value {name : String} {v : Json} {m : Mismatch} : look name = some v → row.flaw name v = some m →
      (∀ other w, look other = some w → other < name → row.flaw other w = none) → Blames row look m
  /-- All values fit their fields, but a field is missing. -/
  | missing {name : String} : (∀ other w, look other = some w → row.flaw other w = none) →
      row.lacking (fun other => (look other).isSome) = some name → Blames row look (.missingField name)

/-- Just the fields that are there are read so far. -/
def Knows (isThere : String → Bool) {ρ π : Type} : Row ρ π → π → Prop
  | .nil, () => True
  | .cons name _ _ _ rest, (cell, cells) => cell.isSome = isThere name ∧ rest.Knows isThere cells

variable {isThere : String → Bool}

theorem knows_blank {ρ π : Type} : ∀ row : Row ρ π, row.Knows (fun _ => false) row.blank
  | .nil => trivial
  | .cons _ _ _ _ rest => ⟨rfl, knows_blank rest⟩

theorem knows_congr {isThere' : String → Bool} {ρ π : Type} : ∀ {row : Row ρ π} {cells : π},
    (∀ name ∈ row.names, isThere name = isThere' name) → row.Knows isThere cells → row.Knows isThere' cells
  | .nil, (), _, _ => trivial
  | .cons name _ _ _ _, (_, _), hsame, h =>
      ⟨h.1.trans (hsame name List.mem_cons_self),
        knows_congr (fun other hmem => hsame other (List.mem_cons_of_mem _ hmem)) h.2⟩

theorem finish_eq_error_iff {m : Mismatch} {ρ π : Type} : ∀ {row : Row ρ π} {cells : π},
    row.Knows isThere cells →
      (row.finish cells = .error m ↔ ∃ name, row.lacking isThere = some name ∧ m = .missingField name)
  | .nil, (), _ => by simp [finish, lacking]
  | .cons name _ ifAbsent _ rest, (cell, cells), h => by
      have hor : (isThere name || ifAbsent.isSome) = (cell.or ifAbsent).isSome := by
        rw [← h.1, Option.isSome_or]
      rw [lacking, finish_cons, hor]
      cases cell.or ifAbsent with
      | none => simp [eq_comm]
      | some x =>
          show (rest.finish cells >>= fun xs => .ok (x, xs)) = .error m ↔ _
          rw [bind_ok_eq_error_iff]
          exact finish_eq_error_iff h.2

/-- A visit fails just if the value does not fit. -/
theorem visit_eq_error_iff {m : Mismatch} {ρ π : Type} : ∀ {row : Row ρ π} {cells : π},
    row.Knows isThere cells → isThere name = false →
      (row.visit name v cells = .error m ↔ row.flaw name v = some m)
  | .nil, (), _, _ => by simp [visit, flaw]
  | .cons other format _ _ rest, (cell, cells), h, hnew => by
      rw [visit_cons, flaw]
      split
      · rename_i heq
        subst heq
        have hcell := h.1
        rw [hnew] at hcell
        cases cell with
        | some y => cases hcell
        | none => cases format.ofJson v <;> simp [bind, Except.bind]
      · rw [bind_ok_eq_error_iff]
        exact visit_eq_error_iff h.2 hnew

/-- A member that is visited is known from then on. -/
theorem Knows.visit {ρ π : Type} : ∀ {row : Row ρ π} {cells cells' : π}, row.names.Nodup →
    row.Knows isThere cells → row.visit name v cells = .ok cells' →
      row.Knows (fun other => decide (other = name) || isThere other) cells'
  | .nil, (), (), _, _, _ => trivial
  | .cons other format _ _ rest, (cell, cells), (cell', cells'), hnodup, h, hvisit => by
      obtain ⟨hother, hrest⟩ := List.nodup_cons.mp hnodup
      have htakes := visit_eq_ok_iff.mp hvisit
      rw [Takes] at htakes
      split at htakes
      · rename_i heq
        subst heq
        obtain ⟨-, ⟨x, rfl, -⟩, rfl⟩ := htakes
        refine ⟨by simp, knows_congr (fun field hmem => ?_) h.2⟩
        have hne : field ≠ name := fun heq => hother (heq ▸ hmem)
        simp [hne]
      · rename_i hne
        obtain ⟨rfl, htakes⟩ := htakes
        refine ⟨?_, h.2.visit hrest (visit_eq_ok_iff.mpr htakes)⟩
        simpa [Ne.symm hne] using h.1

/-- All members are known after they have been visited. -/
theorem Knows.foldlM_visit {row : Row ρ π} (hnodup : row.names.Nodup) :
    ∀ {members : List (String × Json)} {cells cells' : π} {isThere : String → Bool}, row.Knows isThere cells →
      members.foldlM (fun cells (name, v) => row.visit name v cells) cells = .ok cells' →
      row.Knows (fun name => decide (name ∈ members.map Prod.fst) || isThere name) cells'
  | [], cells, cells', isThere, h, hfold => by
      obtain rfl : cells = cells' := Except.ok.inj hfold
      simpa using h
  | (name, v) :: members, cells, cells', isThere, h, hfold => by
      rw [List.foldlM_cons] at hfold
      obtain ⟨mid, hmid, hrest⟩ := bind_eq_ok_iff.mp hfold
      refine knows_congr (fun other _ => ?_) ((h.visit hnodup hmid).foldlM_visit hnodup hrest)
      by_cases hname : other = name
      · simp [hname]
      · simp only [List.map_cons, List.mem_cons, hname, decide_false, Bool.false_or, false_or]

/-- Visits fail at the first value that does not fit. -/
theorem foldlM_visit_eq_error_iff {row : Row ρ π} (hnodup : row.names.Nodup) :
    ∀ {members : List (String × Json)} {cells : π} {isThere : String → Bool}, row.Knows isThere cells →
      (members.map Prod.fst).Nodup → (∀ name ∈ members.map Prod.fst, isThere name = false) →
      (members.foldlM (fun cells (name, v) => row.visit name v cells) cells = .error m ↔
        members.findSome? (fun member => row.flaw member.1 member.2) = some m)
  | [], cells, isThere, _, _, _ => by simp [pure, Except.pure]
  | (name, v) :: members, cells, isThere, h, hnames, hnew => by
      rw [List.map_cons] at hnames hnew
      obtain ⟨hname, hnames⟩ := List.nodup_cons.mp hnames
      have hunread := hnew name List.mem_cons_self
      have hflaw : ∀ m', row.visit name v cells = .error m' ↔ row.flaw name v = some m' :=
        fun m' => visit_eq_error_iff h hunread
      rw [List.foldlM_cons, List.findSome?_cons]
      show (row.visit name v cells >>= _) = _ ↔ _
      cases hvisit : row.visit name v cells with
      | error m' =>
          rw [(hflaw m').mp hvisit]
          exact (Except.error.injEq m' m).to_iff.trans (Option.some.injEq m' m).symm.to_iff
      | ok mid =>
          have hnone : row.flaw name v = none := by
            cases hfound : row.flaw name v with
            | none => rfl
            | some m' => rw [(hflaw m').mpr hfound] at hvisit; cases hvisit
          rw [hnone]
          refine foldlM_visit_eq_error_iff hnodup (h.visit hnodup hvisit) hnames ?_
          intro other hmem
          have hne : other ≠ name := fun heq => hname (heq ▸ hmem)
          simpa [hne] using hnew other (List.mem_cons_of_mem _ hmem)

/-- Of the members in ascending order the first whose value does not fit is the least one. -/
theorem findSome?_flaw_eq_some_iff {row : Row ρ π} {members : List (String × Json)} :
    (Json.fields members).findSome? (fun member => row.flaw member.1 member.2) = some m ↔
      ∃ name v, Json.field? members name = some v ∧ row.flaw name v = some m ∧
        ∀ other w, Json.field? members other = some w → other < name → row.flaw other w = none := by
  have hasc := Json.ascending_fields members
  rw [List.findSome?_eq_some_iff]
  constructor
  · rintro ⟨before, ⟨name, v⟩, after, hsplit, hflaw, hbefore⟩
    rw [hsplit, Json.Ascending, List.pairwise_append, List.pairwise_cons] at hasc
    refine ⟨name, v, Json.mem_fields.mp (hsplit ▸ by simp), hflaw, ?_⟩
    intro other w hseen hlt
    have hmem := Json.mem_fields.mpr hseen
    rw [hsplit, List.mem_append, List.mem_cons] at hmem
    rcases hmem with hmem | heq | hmem
    · exact hbefore _ hmem
    · obtain ⟨rfl, -⟩ := Prod.mk.inj heq
      exact absurd hlt (String.lt_irrefl _)
    · exact absurd hlt (String.lt_asymm (hasc.2.1.1 _ hmem))
  · rintro ⟨name, v, hseen, hflaw, hleast⟩
    obtain ⟨before, after, hsplit⟩ := List.append_of_mem (Json.mem_fields.mpr hseen)
    rw [hsplit, Json.Ascending, List.pairwise_append] at hasc
    refine ⟨before, (name, v), after, hsplit, hflaw, ?_⟩
    rintro ⟨other, w⟩ hmem
    refine hleast other w (Json.mem_fields.mp (hsplit ▸ List.mem_append_left _ hmem)) ?_
    exact hasc.2.2 _ hmem _ List.mem_cons_self

/-- The visits to an object fail at the value under the least name whose value does not fit. -/
theorem foldlM_fields_eq_error_iff {row : Row ρ π} (hnodup : row.names.Nodup) {members : List (String × Json)} :
    (Json.fields members).foldlM (fun cells (name, v) => row.visit name v cells) row.blank = .error m ↔
      ∃ name v, Json.field? members name = some v ∧ row.flaw name v = some m ∧
        ∀ other w, Json.field? members other = some w → other < name → row.flaw other w = none :=
  (foldlM_visit_eq_error_iff hnodup (knows_blank row) (Json.ascending_fields members).nodup fun _ _ => rfl).trans
    findSome?_flaw_eq_some_iff

/-- If the visits do not fail, all values fit. -/
theorem flaw_eq_none_of_foldlM {row : Row ρ π} (hnodup : row.names.Nodup) {members : List (String × Json)} {cells : π}
    (hfold : (Json.fields members).foldlM (fun cells (name, v) => row.visit name v cells) row.blank = .ok cells)
    {other : String} {w : Json} (hseen : Json.field? members other = some w) : row.flaw other w = none := by
  have hnone : (Json.fields members).findSome? (fun member => row.flaw member.1 member.2) = none := by
    cases hfound : (Json.fields members).findSome? (fun member => row.flaw member.1 member.2) with
    | none => rfl
    | some m =>
        have herror := (foldlM_fields_eq_error_iff hnodup).mpr (findSome?_flaw_eq_some_iff.mp hfound)
        rw [hfold] at herror
        cases herror
  exact List.findSome?_eq_none_iff.mp hnone (other, w) (Json.mem_fields.mpr hseen)

/-- After all visits the fields are known that the object has. -/
theorem knows_of_foldlM {row : Row ρ π} (hnodup : row.names.Nodup) {members : List (String × Json)} {cells : π}
    (hfold : (Json.fields members).foldlM (fun cells (name, v) => row.visit name v cells) row.blank = .ok cells) :
    row.Knows (fun name => (Json.field? members name).isSome) cells := by
  refine knows_congr (fun name _ => ?_) ((knows_blank row).foldlM_visit hnodup hfold)
  rw [Bool.or_false, Bool.eq_iff_iff, decide_eq_true_iff]
  exact Json.mem_names_fields_iff

/-- The mismatch reported of an object is that of its least bad value, or a missing field. -/
theorem ofMembers_eq_error_iff {row : Row ρ π} (hnodup : row.names.Nodup) {members : List (String × Json)} :
    row.ofMembers members = .error m ↔ row.Blames (Json.field? members) m := by
  unfold ofMembers
  cases hfold : (Json.fields members).foldlM (fun cells (name, v) => row.visit name v cells) row.blank with
  | error m' =>
      refine (Except.error.injEq m' m).to_iff.trans ?_
      obtain ⟨name, v, hseen, hflaw, hleast⟩ := (foldlM_fields_eq_error_iff hnodup).mp hfold
      constructor
      · rintro rfl
        exact .value hseen hflaw hleast
      · intro h
        cases h with
        | value hseen' hflaw' hleast' =>
            have hfold' := (foldlM_fields_eq_error_iff hnodup).mpr ⟨_, _, hseen', hflaw', hleast'⟩
            exact Except.error.inj (hfold.symm.trans hfold')
        | missing hall _ =>
            rw [hall _ _ hseen] at hflaw
            cases hflaw
  | ok cells =>
      refine (finish_eq_error_iff (knows_of_foldlM hnodup hfold)).trans ?_
      constructor
      · rintro ⟨name, hlacking, rfl⟩
        exact .missing (fun _ _ => flaw_eq_none_of_foldlM hnodup hfold) hlacking
      · intro h
        cases h with
        | value hseen hflaw _ =>
            rw [flaw_eq_none_of_foldlM hnodup hfold hseen] at hflaw
            cases hflaw
        | missing _ hlacking => exact ⟨_, hlacking, rfl⟩

end Row
end Dependence
