import Dependence.Format.Choice
import Dependence.Proofs.Json.Lists

/-! # Texts that are read

When the reader of texts of an option, a member of an object, an object or a choice yields a value, in terms of the
readers of its parts. -/

namespace Dependence
namespace Row

variable {ρ π : Type} {name : String} {s left : List Char}

/-! ### Members in texts -/

theorem scanValue_nil_eq_ok_iff :
    nil.scanValue name () s = .ok ((), left) ↔
      ∃ s₁, Scan.symbol ':' s = .ok ((), s₁) ∧ Json.skip s₁ = .ok ((), left) := by
  refine bind_eq_ok_iff.trans ?_
  constructor
  · rintro ⟨⟨_, s₁⟩, hcolon, hskip⟩
    exact ⟨s₁, hcolon, hskip⟩
  · rintro ⟨s₁, hcolon, hskip⟩
    exact ⟨((), s₁), hcolon, hskip⟩

/-- A field is read if it has not been read before. -/
theorem scanValue_cons_eq_ok_iff {α : Type} {other : String} {format : Format α} {ifAbsent ifShort : Option α}
    {rest : Row ρ π} {cell cell' : Option α} {cells cells' : π} :
    (cons other format ifAbsent ifShort rest).scanValue name (cell, cells) s = .ok ((cell', cells'), left) ↔
      if name = other then
        cell = none ∧ cells' = cells ∧
          ∃ s₁ x, Scan.symbol ':' s = .ok ((), s₁) ∧ format.scan s₁ = .ok (x, left) ∧ cell' = some x
      else cell' = cell ∧ rest.scanValue name cells s = .ok (cells', left) := by
  rw [scanValue]
  split
  · cases cell with
    | some y => simp
    | none =>
        refine bind_eq_ok_iff.trans ?_
        constructor
        · rintro ⟨⟨_, s₁⟩, hcolon, h⟩
          obtain ⟨⟨x, s₂⟩, hx, h⟩ := bind_eq_ok_iff.mp h
          cases h
          exact ⟨rfl, rfl, s₁, x, hcolon, hx, rfl⟩
        · rintro ⟨-, rfl, s₁, x, hcolon, hx, rfl⟩
          exact ⟨((), s₁), hcolon, bind_eq_ok_iff.mpr ⟨(x, left), hx, rfl⟩⟩
  · refine bind_eq_ok_iff.trans ?_
    constructor
    · rintro ⟨⟨mid, s₁⟩, hmid, h⟩
      cases h
      exact ⟨rfl, hmid⟩
    · rintro ⟨rfl, h⟩
      exact ⟨(cells', left), h, rfl⟩

variable {row : Row ρ π} {isFirst : Bool} {cells : π}

theorem memberRound_eq_again_iff {state : Bool × π} :
    row.memberRound (isFirst, cells) s = .ok (.again state, left) ↔
      ∃ s₁ name s₂ cells', Scan.more '\x7d' isFirst s = .ok (true, s₁) ∧ Scan.quoted Quoted.scan s₁ = .ok (name, s₂) ∧
        row.scanValue name cells s₂ = .ok (cells', left) ∧ state = (false, cells') := by
  refine bind_eq_ok_iff.trans ?_
  constructor
  · rintro ⟨⟨goesOn, s₁⟩, hmore, h⟩
    cases goesOn with
    | true =>
        obtain ⟨⟨name, s₂⟩, hname, h⟩ := bind_eq_ok_iff.mp h
        obtain ⟨⟨cells', s₃⟩, hvalue, h⟩ := bind_eq_ok_iff.mp h
        cases h
        exact ⟨s₁, name, s₂, cells', hmore, hname, hvalue, rfl⟩
    | false =>
        obtain ⟨_, -, h⟩ := bind_eq_ok_iff.mp h
        obtain ⟨_, -, h⟩ := bind_eq_ok_iff.mp h
        cases h
  · rintro ⟨s₁, name, s₂, cells', hmore, hname, hvalue, rfl⟩
    exact ⟨(true, s₁), hmore, bind_eq_ok_iff.mpr ⟨(name, s₂), hname, bind_eq_ok_iff.mpr ⟨(cells', left), hvalue, rfl⟩⟩⟩

theorem memberRound_eq_last_iff {xs : ρ} :
    row.memberRound (isFirst, cells) s = .ok (.last xs, left) ↔
      Scan.skipBlanks s = '\x7d' :: left ∧ row.finish cells = .ok xs := by
  refine bind_eq_ok_iff.trans ?_
  constructor
  · rintro ⟨⟨goesOn, s₁⟩, hmore, h⟩
    cases goesOn with
    | true =>
        obtain ⟨_, -, h⟩ := bind_eq_ok_iff.mp h
        obtain ⟨_, -, h⟩ := bind_eq_ok_iff.mp h
        cases h
    | false =>
        obtain ⟨⟨ys, s₂⟩, hfinish, h⟩ := bind_eq_ok_iff.mp h
        obtain ⟨⟨_, s₃⟩, hsymbol, h⟩ := bind_eq_ok_iff.mp h
        cases h
        obtain ⟨cells', hcells, hvalues⟩ := Scan.checked_eq_ok_iff.mp hfinish
        cases hcells
        obtain ⟨t, hs, rfl⟩ := Scan.more_eq_false_iff.mp hmore
        rw [Scan.symbol_cons rfl] at hsymbol
        cases hsymbol
        exact ⟨hs, hvalues⟩
  · rintro ⟨hs, hfinish⟩
    refine ⟨(false, '\x7d' :: left), Scan.more_eq_false_iff.mpr ⟨left, hs, rfl⟩, ?_⟩
    refine bind_eq_ok_iff.mpr ⟨(xs, '\x7d' :: left), Scan.checked_eq_ok_iff.mpr ⟨cells, rfl, hfinish⟩, ?_⟩
    exact bind_eq_ok_iff.mpr ⟨((), left), Scan.symbol_cons rfl left, rfl⟩

end Row

namespace Format

variable {α : Type} {s rest : List Char}

/-! ### Options and choices -/

/-- What does not begin like null is read as something that is there. -/
theorem optional_scan_eq_ok_iff {f : Format α} {x : Option α} :
    f.optional.scan s = .ok (x, rest) ↔
      Scan.skipBlanks s = 'n' :: ("ull".toList ++ rest) ∧ x = none ∨
        (∀ s', Scan.skipBlanks s ≠ 'n' :: s') ∧ ∃ y, f.scan (Scan.skipBlanks s) = .ok (y, rest) ∧ x = some y := by
  unfold optional
  dsimp only
  split
  · rename_i s' hs
    rw [Scan.keyword_eq_ok_iff, hs]
    simp
  · rename_i hnot
    have hnull : ∀ s', Scan.skipBlanks s ≠ 'n' :: s' := hnot
    rw [bind_eq_ok_iff]
    simp [hnull, eq_comm]

/-- A choice is read from the name of a variant, or from an object with one member of this name. -/
theorem choice_scan_eq_ok_iff {branches : List (Branch α)} {write : α → Json} {x : α} :
    (choice branches write).scan s = .ok (x, rest) ↔
      (∃ s' name, Scan.skipBlanks s = '"' :: s' ∧ Quoted.scan s' = .ok (name, rest) ∧
          (Branch.find branches name >>= Branch.alone) = .ok x) ∨
        ∃ s₁ s₂ s₃ s₄ name branch, Scan.skipBlanks s = '\x7b' :: s₁ ∧ Scan.quoted Quoted.scan s₁ = .ok (name, s₂) ∧
          Branch.find branches name = .ok branch ∧ Scan.symbol ':' s₂ = .ok ((), s₃) ∧
            branch.scan s₃ = .ok (x, s₄) ∧ Scan.skipBlanks s₄ = '\x7d' :: rest := by
  constructor
  · intro hread
    obtain ⟨c, s', hs, hread⟩ := Scan.atHead_eq_ok_iff.mp (show Scan.atHead _ s = _ from hread)
    split at hread
    · rename_i hc
      obtain ⟨name, hname, hx⟩ := Scan.checked_eq_ok_iff.mp hread
      exact .inl ⟨s', name, hc ▸ hs, hname, hx⟩
    · split at hread
      · rename_i hc
        obtain ⟨d, s₁, hs₁, hread⟩ := Scan.atHead_eq_ok_iff.mp (show Scan.atHead _ s' = _ from hread)
        split at hread
        · rename_i hd
          obtain ⟨⟨branch, s₂⟩, hbranch, hread⟩ := bind_eq_ok_iff.mp hread
          obtain ⟨⟨_, s₃⟩, hcolon, hread⟩ := bind_eq_ok_iff.mp hread
          obtain ⟨⟨y, s₄⟩, hy, hread⟩ := bind_eq_ok_iff.mp hread
          obtain ⟨⟨_, s₅⟩, hbrace, hread⟩ := bind_eq_ok_iff.mp hread
          cases hread
          obtain ⟨name, hname, hfind⟩ := Scan.checked_eq_ok_iff.mp hbranch
          exact .inr ⟨s', s₂, s₃, s₄, name, branch, hc ▸ hs, Scan.quoted_eq_ok_iff.mpr ⟨s₁, hd ▸ hs₁, hname⟩, hfind,
            hcolon, hy, Scan.symbol_eq_ok_iff.mp hbrace⟩
        · cases hread
      · cases hread
  · rintro (⟨s', name, hs, hname, hx⟩ | ⟨s₁, s₂, s₃, s₄, name, branch, hs, hname, hfind, hcolon, hx, hbrace⟩)
    · refine Scan.atHead_eq_ok_iff.mpr ⟨'"', s', hs, ?_⟩
      show Scan.checked Quoted.scan (fun name => Branch.find branches name >>= Branch.alone) s' = _
      exact Scan.checked_eq_ok_iff.mpr ⟨name, hname, hx⟩
    · obtain ⟨s', hs', hname⟩ := Scan.quoted_eq_ok_iff.mp hname
      refine Scan.atHead_eq_ok_iff.mpr ⟨'\x7b', s₁, hs, Scan.atHead_eq_ok_iff.mpr ⟨'"', s', hs', ?_⟩⟩
      refine bind_eq_ok_iff.mpr ⟨(branch, s₂), Scan.checked_eq_ok_iff.mpr ⟨name, hname, hfind⟩, ?_⟩
      refine bind_eq_ok_iff.mpr ⟨((), s₃), hcolon, bind_eq_ok_iff.mpr ⟨(x, s₄), hx, ?_⟩⟩
      exact bind_eq_ok_iff.mpr ⟨((), rest), Scan.symbol_eq_ok_iff.mpr hbrace, rfl⟩

end Format
end Dependence
