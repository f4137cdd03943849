import Dependence.Format.Choice
import Dependence.Proofs.Json.Rounds

/-! # What readers can yield

`f.Reads x` says that one of the two readers of a format yields `x` somewhere.  Whatever a record
reader yields was read field by field (`reads_record`), and a value that had to pass a check passed it
(`reads_refine`).  So a property that a check ensures holds of every value that is ever read. -/

namespace Dependence

namespace Format

variable {α β : Type}

/-- A value that the reader of trees or the reader of texts yields. -/
def Reads (f : Format α) (x : α) : Prop :=
  (∃ v, f.ofJson v = .ok x) ∨ ∃ s rest, f.scan s = .ok (x, rest)

theorem reads_of_parse {f : Format α} {x : α} {s : String} (h : f.parse s = .ok x) : f.Reads x := by
  obtain ⟨⟨y, rest⟩, hscan, hx⟩ := bind_eq_ok_iff.mp h
  refine .inr ⟨s.toList, rest, ?_⟩
  dsimp only at hx
  split at hx
  · simp only [Except.ok.injEq] at hx
    rw [hscan, hx]
  · simp at hx

theorem reads_map {f : Format α} {make : α → β} {parts : β → α} {y : β}
    (h : (f.map make parts).Reads y) : ∃ x, f.Reads x ∧ make x = y := by
  rcases h with ⟨v, h⟩ | ⟨s, rest, h⟩
  · cases hx : f.ofJson v with
    | error m => simp [map, hx, Except.map] at h
    | ok x => exact ⟨x, .inl ⟨v, hx⟩, by simpa [map, hx, Except.map] using h⟩
  · obtain ⟨⟨x, s'⟩, hx, he⟩ := bind_eq_ok_iff.mp h
    simp only [Except.ok.injEq, Prod.mk.injEq] at he
    exact ⟨x, .inr ⟨s, s', hx⟩, he.1⟩

/-- A value that is read under a check passed it. -/
theorem reads_refine {f : Format α} {check : α → Except String β} {parts : β → α} {y : β}
    (h : (f.refine check parts).Reads y) : ∃ x, f.Reads x ∧ check x = .ok y := by
  rcases h with ⟨v, h⟩ | ⟨s, rest, h⟩
  · obtain ⟨x, hx, hy⟩ := bind_eq_ok_iff.mp h
    exact ⟨x, .inl ⟨v, hx⟩, mapError_eq_ok_iff.mp hy⟩
  · obtain ⟨⟨x, s'⟩, hx, hy⟩ := bind_eq_ok_iff.mp h
    refine ⟨x, .inr ⟨s, s', hx⟩, ?_⟩
    dsimp only at hy
    split at hy
    · rename_i z hz
      simp only [Except.ok.injEq, Prod.mk.injEq] at hy
      rw [← hy.1]
      exact mapError_eq_ok_iff.mp hz
    · cases hy

end Format

namespace Row

variable {ρ π : Type}

/-- Every value of a row was read by the format of its field, or stands in for one that was not
there. -/
def Reads {ρ π : Type} : Row ρ π → ρ → Prop
  | .nil, () => True
  | .cons _ format ifAbsent ifShort rest, (x, xs) =>
      (format.Reads x ∨ ifAbsent = some x ∨ ifShort = some x) ∧ rest.Reads xs

/-- Every value read so far was read by the format of its field. -/
def ReadSoFar {ρ π : Type} : Row ρ π → π → Prop
  | .nil, () => True
  | .cons _ format _ _ rest, (cell, cells) =>
      (∀ x, cell = some x → format.Reads x) ∧ rest.ReadSoFar cells

theorem readSoFar_blank {ρ π : Type} : ∀ row : Row ρ π, row.ReadSoFar row.blank
  | .nil => trivial
  | .cons _ _ _ _ rest => ⟨by simp, readSoFar_blank rest⟩

/-- Once everything is read, the values of the row were read. -/
theorem reads_of_finish {ρ π : Type} : ∀ {row : Row ρ π} {cells : π} {xs : ρ},
    row.ReadSoFar cells → row.finish cells = .ok xs → row.Reads xs
  | .nil, (), (), _, _ => trivial
  | .cons _ format ifAbsent _ rest, (cell, cells), (x, xs), hread, h => by
      obtain ⟨hcell, hcells⟩ := hread
      cases cell with
      | some y =>
          obtain ⟨ys, hys, he⟩ := bind_eq_ok_iff.mp (by simpa [finish] using h)
          simp only [Except.ok.injEq, Prod.mk.injEq] at he
          obtain ⟨rfl, rfl⟩ := he
          exact ⟨.inl (hcell _ rfl), reads_of_finish hcells hys⟩
      | none =>
          cases ifAbsent with
          | none => simp [finish] at h
          | some y =>
              obtain ⟨ys, hys, he⟩ := bind_eq_ok_iff.mp (by simpa [finish] using h)
              simp only [Except.ok.injEq, Prod.mk.injEq] at he
              obtain ⟨rfl, rfl⟩ := he
              exact ⟨.inr (.inl rfl), reads_of_finish hcells hys⟩

/-! ### From trees -/

theorem ReadSoFar.visit {ρ π : Type} {name : String} {v : Json} :
    ∀ {row : Row ρ π} {cells cells' : π}, row.ReadSoFar cells →
      row.visit name v cells = .ok cells' → row.ReadSoFar cells'
  | .nil, (), (), _, _ => trivial
  | .cons other format _ _ rest, (cell, cells), cells', hread, h => by
      obtain ⟨hcell, hcells⟩ := hread
      simp only [Row.visit] at h
      split at h
      · cases cell with
        | some y => simp at h
        | none =>
            obtain ⟨x, hx, he⟩ := bind_eq_ok_iff.mp h
            simp only [Except.ok.injEq] at he
            subst he
            refine ⟨?_, hcells⟩
            intro y hy
            obtain rfl : x = y := Option.some.inj hy
            exact .inl ⟨v, hx⟩
      · obtain ⟨mid, hmid, he⟩ := bind_eq_ok_iff.mp h
        simp only [Except.ok.injEq] at he
        subst he
        exact ⟨hcell, hcells.visit hmid⟩

theorem ReadSoFar.foldlM_visit {row : Row ρ π} :
    ∀ {members : List (String × Json)} {cells cells' : π}, row.ReadSoFar cells →
      members.foldlM (fun cells (name, v) => row.visit name v cells) cells = .ok cells' →
        row.ReadSoFar cells'
  | [], cells, cells', hcells, h => by
      simp only [List.foldlM_nil, pure, Except.pure, Except.ok.injEq] at h
      exact h ▸ hcells
  | _ :: members, _, _, hcells, h => by
      rw [List.foldlM_cons] at h
      obtain ⟨mid, hmid, hrest⟩ := bind_eq_ok_iff.mp h
      exact (hcells.visit hmid).foldlM_visit hrest

theorem reads_of_ofMembers {row : Row ρ π} {members : List (String × Json)} {xs : ρ}
    (h : row.ofMembers members = .ok xs) : row.Reads xs := by
  obtain ⟨cells, hcells, hxs⟩ := bind_eq_ok_iff.mp h
  exact reads_of_finish ((readSoFar_blank row).foldlM_visit hcells) hxs

theorem reads_of_ofFront {ρ π : Type} {expected : String} :
    ∀ {row : Row ρ π} {read : Nat} {items rest : List Json} {xs : ρ},
      row.ofFront expected read items = .ok (xs, rest) → row.Reads xs
  | .nil, _, _, _, (), _ => trivial
  | .cons _ format _ _ more, read, item :: items, rest, (x, xs), h => by
      obtain ⟨y, hy, h⟩ := bind_eq_ok_iff.mp h
      obtain ⟨⟨ys, items'⟩, hys, he⟩ := bind_eq_ok_iff.mp h
      simp only [Except.ok.injEq, Prod.mk.injEq] at he
      obtain ⟨⟨rfl, rfl⟩, rfl⟩ := he
      exact ⟨.inl (.inl ⟨item, hy⟩), reads_of_ofFront hys⟩
  | .cons _ format _ (some y) more, read, [], rest, (x, xs), h => by
      obtain ⟨⟨ys, items'⟩, hys, he⟩ := bind_eq_ok_iff.mp h
      simp only [Except.ok.injEq, Prod.mk.injEq] at he
      obtain ⟨⟨rfl, rfl⟩, rfl⟩ := he
      exact ⟨.inr (.inr rfl), reads_of_ofFront hys⟩
  | .cons _ format _ none more, read, [], rest, (x, xs), h => by
      simp [ofFront] at h

theorem reads_of_ofItems {row : Row ρ π} {expected : String} {items : List Json} {xs : ρ}
    (h : row.ofItems expected items = .ok xs) : row.Reads xs := by
  obtain ⟨⟨ys, rest⟩, hys, he⟩ := bind_eq_ok_iff.mp h
  dsimp only at he
  split at he
  · simp only [Except.ok.injEq] at he
    exact he ▸ reads_of_ofFront hys
  · simp at he

/-! ### From texts -/

theorem ReadSoFar.scanValue {ρ π : Type} {name : String} {s rest : List Char} :
    ∀ {row : Row ρ π} {cells cells' : π}, row.ReadSoFar cells →
      row.scanValue name cells s = .ok (cells', rest) → row.ReadSoFar cells'
  | .nil, (), (), _, _ => trivial
  | .cons other format _ _ more, (cell, cells), cells', hread, h => by
      obtain ⟨hcell, hcells⟩ := hread
      rw [Row.scanValue] at h
      split at h
      · cases cell with
        | some y => simp at h
        | none =>
            obtain ⟨⟨_, s₁⟩, _, h⟩ := bind_eq_ok_iff.mp h
            obtain ⟨⟨x, s₂⟩, hx, he⟩ := bind_eq_ok_iff.mp h
            simp only [Except.ok.injEq, Prod.mk.injEq] at he
            obtain ⟨rfl, rfl⟩ := he
            refine ⟨?_, hcells⟩
            intro y hy
            obtain rfl : x = y := Option.some.inj hy
            exact .inr ⟨s₁, s₂, hx⟩
      · obtain ⟨⟨mid, s₁⟩, hmid, he⟩ := bind_eq_ok_iff.mp h
        simp only [Except.ok.injEq, Prod.mk.injEq] at he
        obtain ⟨rfl, rfl⟩ := he
        exact ⟨hcell, hcells.scanValue hmid⟩

theorem reads_of_checked_finish {row : Row ρ π} {cells : π} {s rest : List Char} {xs : ρ}
    (hcells : row.ReadSoFar cells)
    (h : Scan.checked (fun s => .ok (cells, s)) row.finish s = .ok (xs, rest)) : row.Reads xs := by
  obtain ⟨⟨cells', s'⟩, hc, h⟩ := bind_eq_ok_iff.mp h
  simp only [Except.ok.injEq, Prod.mk.injEq] at hc
  obtain ⟨rfl, rfl⟩ := hc
  dsimp only at h
  split at h
  · rename_i ys hys
    simp only [Except.ok.injEq, Prod.mk.injEq] at h
    exact h.1 ▸ reads_of_finish hcells hys
  · simp at h

theorem reads_of_scanMembers {row : Row ρ π} {s rest : List Char} {xs : ρ}
    (h : row.scanMembers s = .ok (xs, rest)) : row.Reads xs := by
  refine Scan.of_repeated_eq_ok (fun state => row.ReadSoFar state.2) row.Reads ?_ ?_
    (readSoFar_blank row) h
  · rintro ⟨isFirst, cells⟩ s state' s' hinv h
    obtain ⟨⟨goesOn, s₁⟩, _, h⟩ := bind_eq_ok_iff.mp h
    cases goesOn with
    | true =>
        obtain ⟨⟨name, s₂⟩, _, h⟩ := bind_eq_ok_iff.mp h
        obtain ⟨⟨cells', s₃⟩, hcells, h⟩ := bind_eq_ok_iff.mp h
        simp only [Except.ok.injEq, Prod.mk.injEq, Scan.Round.again.injEq] at h
        exact h.1 ▸ hinv.scanValue hcells
    | false =>
        obtain ⟨⟨ys, s₂⟩, _, h⟩ := bind_eq_ok_iff.mp h
        obtain ⟨⟨_, s₃⟩, _, h⟩ := bind_eq_ok_iff.mp h
        simp at h
  · rintro ⟨isFirst, cells⟩ s xs s' hinv h
    obtain ⟨⟨goesOn, s₁⟩, _, h⟩ := bind_eq_ok_iff.mp h
    cases goesOn with
    | true =>
        obtain ⟨⟨name, s₂⟩, _, h⟩ := bind_eq_ok_iff.mp h
        obtain ⟨⟨cells', s₃⟩, _, h⟩ := bind_eq_ok_iff.mp h
        simp at h
    | false =>
        obtain ⟨⟨ys, s₂⟩, hys, h⟩ := bind_eq_ok_iff.mp h
        obtain ⟨⟨_, s₃⟩, _, h⟩ := bind_eq_ok_iff.mp h
        simp only [Except.ok.injEq, Prod.mk.injEq, Scan.Round.last.injEq] at h
        exact h.1 ▸ reads_of_checked_finish hinv hys

theorem reads_of_scanFront {ρ π : Type} {expected : String} :
    ∀ {row : Row ρ π} {read : Nat} {s rest : List Char} {xs : ρ},
      row.scanFront expected read s = .ok (xs, rest) → row.Reads xs
  | .nil, _, _, _, (), _ => trivial
  | .cons _ format _ ifShort more, read, s, rest, (x, xs), h => by
      obtain ⟨⟨goesOn, s₁⟩, _, h⟩ := bind_eq_ok_iff.mp h
      cases goesOn with
      | true =>
          obtain ⟨⟨y, s₂⟩, hy, h⟩ := bind_eq_ok_iff.mp h
          obtain ⟨⟨ys, s₃⟩, hys, he⟩ := bind_eq_ok_iff.mp h
          simp only [Except.ok.injEq, Prod.mk.injEq] at he
          obtain ⟨⟨rfl, rfl⟩, rfl⟩ := he
          exact ⟨.inl (.inr ⟨s₁, s₂, hy⟩), reads_of_scanFront hys⟩
      | false =>
          cases ifShort with
          | none => simp at h
          | some y =>
              obtain ⟨⟨ys, s₃⟩, hys, he⟩ := bind_eq_ok_iff.mp h
              simp only [Except.ok.injEq, Prod.mk.injEq] at he
              obtain ⟨⟨rfl, rfl⟩, rfl⟩ := he
              exact ⟨.inr (.inr rfl), reads_of_scanFront hys⟩

theorem reads_of_scanItems {row : Row ρ π} {expected : String} {s rest : List Char} {xs : ρ}
    (h : row.scanItems expected s = .ok (xs, rest)) : row.Reads xs := by
  obtain ⟨⟨ys, s₁⟩, hys, h⟩ := bind_eq_ok_iff.mp h
  obtain ⟨⟨_, s₂⟩, _, he⟩ := bind_eq_ok_iff.mp h
  simp only [Except.ok.injEq, Prod.mk.injEq] at he
  exact he.1 ▸ reads_of_scanFront hys

theorem reads_of_scanEither {row : Row ρ π} {expected : String} {s rest : List Char} {xs : ρ}
    (h : row.scanEither expected s = .ok (xs, rest)) : row.Reads xs := by
  unfold scanEither at h
  split at h
  · simp at h
  · split at h
    · exact reads_of_scanMembers h
    · split at h
      · exact reads_of_scanItems h
      · simp at h

/-- Whatever a record reader yields was read field by field. -/
theorem reads_record {name : String} {row : Row ρ π} {xs : ρ}
    (h : (Format.record name row).Reads xs) : row.Reads xs := by
  rcases h with ⟨v, h⟩ | ⟨s, rest, h⟩
  · cases v with
    | object members => exact reads_of_ofMembers h
    | array items => exact reads_of_ofItems h
    | null => simp [Format.record] at h
    | boolean b => simp [Format.record] at h
    | number n => simp [Format.record] at h
    | string s => simp [Format.record] at h
  · exact reads_of_scanEither h

end Row
end Dependence
