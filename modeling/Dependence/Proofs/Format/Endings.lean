import Dependence.Format.Choice
import Dependence.Proofs.Json.Grammar
import Mathlib.Data.List.TakeWhile

/-! # Where values end

The readers of texts that formats have do not depend on what follows: a word is read by a local reader, everything
that is written with quotes, brackets or braces by a closed one, and this carries over to the formats that are made
from others (`closed_record`, `closed_choice`).

So if the reader of a format is closed, a text that is read can be followed by blanks and by nothing else
(`Format.parse_append_iff`). -/

namespace Dependence
namespace Format

variable {α β : Type}

/-- What follows a text that is read can only be blanks, and these change nothing. -/
theorem parse_append_iff {f : Format α} (hf : Scan.Closed f.scan) {t : String} {x : α} (ht : f.parse t = .ok x)
    (s : String) (y : α) : f.parse (t ++ s) = .ok y ↔ (∀ c ∈ s.toList, Scan.isBlank c = true) ∧ y = x := by
  obtain ⟨rest, hscan, hrest⟩ := Scan.whole_eq_ok_iff.mp ht
  have hblanks : Scan.skipBlanks (rest ++ s.toList) = [] ↔ ∀ c ∈ s.toList, Scan.isBlank c = true := by
    unfold Scan.skipBlanks at hrest ⊢
    rw [List.dropWhile_append, hrest]
    exact List.dropWhile_eq_nil_iff
  have happend : f.parse (t ++ s) =
      if Scan.skipBlanks (rest ++ s.toList) = [] then .ok x else .error .malformed := by
    unfold parse Scan.whole
    rw [String.toList_append, hf.append hscan]
    rfl
  rw [happend, ← hblanks]
  split
  · rename_i h
    simp [h, eq_comm]
  · rename_i h
    simp [h]

/-! ### Plain values -/

theorem local_word : Scan.Local word.scan := by
  have hnumber := Number.local_scan.checked wordOf
  have hprogress := Number.progress_scan.checked wordOf
  exact .atHead fun c => .ite (p := Builder.startsNumeral c = true) (hnumber.cons hprogress c)
    (Scan.local_error fun s => unexpectedText "u32" (c :: s))

theorem closed_boolean : Scan.Closed boolean.scan :=
  .atHead fun c => .ite (p := c = 't') (Scan.fixed_keyword true _) <|
    .ite (p := c = 'f') (Scan.fixed_keyword false _) <|
    Scan.fixed_error fun s => unexpectedText "a boolean" (c :: s)

theorem closed_string : Scan.Closed string.scan :=
  .atHead fun c => .ite (p := c = '"') Quoted.closed_scan.toFixed <|
    Scan.fixed_error fun s => unexpectedText "a string" (c :: s)

theorem closed_unit : Scan.Closed unit.scan :=
  .atHead fun c => .ite (p := c = 'n') (Scan.fixed_keyword () _) <|
    Scan.fixed_error fun s => unexpectedText "unit" (c :: s)

/-! ### Formats from formats -/

theorem local_map {f : Format α} (hf : Scan.Local f.scan) (make : α → β) (parts : β → α) :
    Scan.Local (f.map make parts).scan :=
  hf.map make

theorem closed_map {f : Format α} (hf : Scan.Closed f.scan) (make : α → β) (parts : β → α) :
    Scan.Closed (f.map make parts).scan :=
  hf.map make

theorem closed_refine {f : Format α} (hf : Scan.Closed f.scan) (check : α → Except String β) (parts : β → α) :
    Scan.Closed (f.refine check parts).scan :=
  hf.checked fun x => (check x).mapError .refused

/-- A letter in front may say that nothing is there. -/
theorem local_orNull {a b : Scan α} (ha : Scan.Local a) (hb : Scan.Local b) :
    Scan.Local fun s => match s with
      | 'n' :: s => a s
      | s => b s := by
  constructor
  · intro s rest x h
    split at h
    · exact Nat.le_trans (ha.length_le h) (Nat.le_succ _)
    · exact hb.length_le h
  · intro s rest x h hne t
    split at h
    · exact ha.append h hne t
    · rename_i hnull
      have happend := hb.append h hne t
      obtain ⟨c, s, rfl⟩ := List.exists_cons_of_ne_nil (Scan.ne_nil_of_length_le (hb.length_le h) hne)
      rw [List.cons_append] at happend ⊢
      split
      · rename_i hc
        obtain ⟨rfl, -⟩ := List.cons.inj hc
        exact absurd rfl (hnull s)
      · exact happend

theorem local_optional {f : Format α} (hf : Scan.Local f.scan) : Scan.Local f.optional.scan :=
  (local_orNull (Scan.fixed_keyword none "ull".toList).local (hf.map some)).skipBlanks

theorem closed_list {f : Format α} (hf : Scan.Local f.scan) : Scan.Closed f.list.scan :=
  .atHead fun c => .ite (p := c = '[') (Scan.closed_items hf).toFixed <|
    Scan.fixed_error fun s => unexpectedText "a sequence" (c :: s)

end Format

/-! ### Records -/

namespace Row

variable {ρ π : Type}

/-- The formats of the fields do not depend on what follows. -/
def Local {ρ π : Type} : Row ρ π → Prop
  | .nil => True
  | .cons _ format _ _ rest => Scan.Local format.scan ∧ rest.Local

theorem Local.scanValue {ρ π : Type} (name : String) :
    ∀ {row : Row ρ π} (cells : π), row.Local → Scan.Local (row.scanValue name cells)
  | .nil, (), _ => (Scan.closed_symbol ':').local.bind fun _ => Json.local_skip
  | .cons other format _ _ rest, (cell, cells), h => by
      have hrest := (Local.scanValue name cells h.2).map fun cells => (cell, cells)
      have hvalue := (Scan.closed_symbol ':').local.bind fun _ => h.1.map fun x => (some x, cells)
      cases cell with
      | some x => exact .ite (p := name = other) (Scan.local_error fun _ => .mismatch (.duplicateField name)) hrest
      | none => exact .ite (p := name = other) hvalue hrest

/-- An object that is closed is complete. -/
theorem closed_finish (row : Row ρ π) (cells : π) :
    Scan.Closed fun s => Scan.checked (fun s => .ok (cells, s)) row.finish s >>= fun (xs, s) =>
      Scan.symbol '\x7d' s >>= fun (_, s) =>
        (.ok (.last xs, s) : Except Fault (Scan.Round (Bool × π) ρ × List Char)) :=
  ((Scan.fixed_ok cells).local.checked row.finish).bind_closed fun xs =>
    (Scan.closed_symbol '\x7d').map fun _ => Scan.Round.last xs

theorem Local.memberRound {row : Row ρ π} (h : row.Local) : Scan.ClosedRound row.memberRound := by
  refine ⟨?_, ?_, ?_⟩
  · rintro ⟨isFirst, cells⟩
    have hvalue := fun name => (h.scanValue name cells).map fun cells =>
      (Scan.Round.again (false, cells) : Scan.Round (Bool × π) ρ)
    have hmember := (Scan.closed_quoted Quoted.closed_scan.toFixed).local.bind hvalue
    exact (Scan.closed_more '\x7d' isFirst).local.bind fun goesOn =>
      .ite (p := goesOn = true) hmember (closed_finish row cells).local
  · rintro ⟨isFirst, cells⟩ s xs rest hread t
    obtain ⟨⟨goesOn, s₁⟩, hmore, hread⟩ := bind_eq_ok_iff.mp hread
    refine bind_eq_ok_iff.mpr ⟨(goesOn, s₁ ++ t), (Scan.closed_more '\x7d' isFirst).append hmore t, ?_⟩
    cases goesOn with
    | true =>
        obtain ⟨_, -, hread⟩ := bind_eq_ok_iff.mp hread
        obtain ⟨_, -, hagain⟩ := bind_eq_ok_iff.mp hread
        cases hagain
    | false => exact (closed_finish row cells).append hread t
  · rintro ⟨isFirst, cells⟩ r hread
    cases hread

theorem Local.scanMembers {row : Row ρ π} (h : row.Local) : Scan.Closed row.scanMembers :=
  h.memberRound.repeated (true, row.blank)

theorem Local.scanFront (expected : String) {ρ π : Type} :
    ∀ {row : Row ρ π} (read : Nat), row.Local → Scan.Local (row.scanFront expected read)
  | .nil, _, _ => (Scan.fixed_ok ()).local
  | .cons _ format _ ifShort rest, read, h => by
      have hrest := Local.scanFront expected (read + 1) h.2
      have hitem := h.1.bind fun x => hrest.map fun xs => (x, xs)
      have hgoesOn := (Scan.closed_more ']' (read = 0)).local
      cases ifShort with
      | some x =>
          exact hgoesOn.bind fun goesOn => .ite (p := goesOn = true) hitem (hrest.map fun xs => (x, xs))
      | none =>
          exact hgoesOn.bind fun goesOn => .ite (p := goesOn = true) hitem <|
            Scan.local_error fun _ => .mismatch (.wrongLength read expected)

theorem Local.scanItems {row : Row ρ π} (h : row.Local) (expected : String) :
    Scan.Closed (row.scanItems expected) :=
  (h.scanFront expected 0).bind_closed fun xs => (Scan.closed_symbol ']').map fun _ => xs

theorem Local.scanEither {row : Row ρ π} (h : row.Local) (expected : String) :
    Scan.Closed (row.scanEither expected) :=
  .atHead fun c => .ite (p := c = '\x7b') h.scanMembers.toFixed <|
    .ite (p := c = '[') (h.scanItems (row.withSize expected)).toFixed <|
    Scan.fixed_error fun s => Format.unexpectedText expected (c :: s)

end Row

namespace Format

variable {α ρ π : Type}

theorem closed_record (name : String) {row : Row ρ π} (h : row.Local) : Scan.Closed (record name row).scan :=
  h.scanEither ("struct " ++ name)

theorem closed_tuple {row : Row ρ π} (h : row.Local) : Scan.Closed (tuple row).scan :=
  .atHead fun c => .ite (p := c = '[') (h.scanItems _).toFixed <|
    Scan.fixed_error fun s => unexpectedText _ (c :: s)

/-! ### Choices -/

/-- The content of a variant and the brace behind it. -/
def afterName (branch : Branch α) : Scan α := fun s => do
  let (_, s) ← Scan.symbol ':' s
  let (x, s) ← branch.scan s
  let (_, s) ← Scan.symbol '\x7d' s
  .ok (x, s)

theorem closed_afterName {branch : Branch α} (h : Scan.Local branch.scan) : Scan.Closed (afterName branch) :=
  (Scan.closed_symbol ':').local.bind_closed fun _ => h.bind_closed fun x =>
    (Scan.closed_symbol '\x7d').map fun _ => x

theorem mem_of_find {branches : List (Branch α)} {name : String} {branch : Branch α}
    (h : Branch.find branches name = .ok branch) : branch ∈ branches := by
  unfold Branch.find at h
  split at h
  · rename_i hfind
    exact Except.ok.inj h ▸ List.mem_of_find?_eq_some hfind
  · cases h

/-- The name of a variant and what follows it. -/
theorem closed_tagged {branches : List (Branch α)} (h : ∀ branch ∈ branches, Scan.Local branch.scan) :
    Scan.Closed fun s => Scan.checked Quoted.scan (Branch.find branches) s >>= fun (branch, s) =>
      afterName branch s := by
  refine (Quoted.closed_scan.checked (Branch.find branches)).bind_of ?_
  intro s rest branch hread
  obtain ⟨name, -, hfind⟩ := Scan.checked_eq_ok_iff.mp hread
  exact (closed_afterName (h branch (mem_of_find hfind))).toFixed

theorem closed_choice {branches : List (Branch α)} {write : α → Json}
    (h : ∀ branch ∈ branches, Scan.Local branch.scan) : Scan.Closed (choice branches write).scan := by
  have halone := Quoted.closed_scan.checked fun name => Branch.find branches name >>= Branch.alone
  have hobject : Scan.Closed (Scan.atHead fun c s => if c = '"' then
      Scan.checked Quoted.scan (Branch.find branches) s >>= fun (branch, s) => afterName branch s
    else .error (unexpectedText "variant identifier" (c :: s))) :=
    .atHead fun c => .ite (p := c = '"') (closed_tagged h).toFixed <|
      Scan.fixed_error fun s => unexpectedText "variant identifier" (c :: s)
  exact .atHead fun c => .ite (p := c = '"') halone.toFixed <| .ite (p := c = '\x7b') hobject.toFixed <|
    Scan.fixed_error fun _ => .malformed

end Format

namespace Branch

variable {α ρ π : Type}

theorem local_constant (name : String) (x : α) : Scan.Local (constant name x).scan :=
  (Format.closed_unit.map fun _ => x).local

theorem local_record (type name : String) {row : Row ρ π} (make : ρ → α) (h : row.Local) :
    Scan.Local (record type name row make).scan :=
  ((h.scanEither _).map make).local

end Branch
end Dependence
