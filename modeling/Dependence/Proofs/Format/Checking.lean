import Dependence.Persistence
import Dependence.Proofs.Json.Rounds

/-! # A checked field is a checked record

A record whose first field is checked refuses a bad value as soon as it has read it.  The same record
without the check reads on, and may yet find something else amiss.  `Refines check plain strict` compares two
such computations: what the plain one yields is checked by the strict one, and where the plain one fails the
strict one fails too.

Reading in steps, a state that the plain reader has reached is checked before the strict reader goes on
from it, so that `Refines.bind` composes the steps and a refusal lasts to the end.  For arenas this gives
`Arena.refines_ofJson` and `Arena.refines_parse`: an arena is read by checking the blueprint that
`Blueprint.recorded` reads. -/

namespace Dependence

variable {ε δ α β γ σ τ : Type}

/-! ### Refinement -/

/-- The strict computation checks what the plain one yields, and fails where the plain one fails. -/
structure Refines (check : α → Except ε β) (plain : Except ε α) (strict : Except ε β) : Prop where
  of_ok : ∀ {a}, plain = .ok a → strict = check a
  of_error : ∀ {e}, plain = .error e → ∃ e', strict = .error e'

namespace Refines

variable {check : α → Except ε β} {plain : Except ε α} {strict : Except ε β}

theorem ok (check : α → Except ε β) (a : α) : Refines check (.ok a) (check a) := by
  constructor
  · intro a' h
    cases h
    rfl
  · intro e h
    cases h

theorem error (e e' : ε) : Refines check (.error e) (.error e') := by
  constructor
  · intro a h
    cases h
  · intro _ _
    exact ⟨e', rfl⟩

/-- A value is checked at the latest before the next step. -/
theorem bind {check' : γ → Except ε δ} {f : α → Except ε γ} {g : β → Except ε δ}
    (h : Refines check plain strict) (hf : ∀ a, Refines check' (f a) (check a >>= g)) :
    Refines check' (plain >>= f) (strict >>= g) := by
  cases hp : plain with
  | ok a =>
      rw [h.of_ok hp]
      exact hf a
  | error e =>
      obtain ⟨e', he⟩ := h.of_error hp
      rw [he]
      exact error e e'

/-- The same where the strict computation goes on from a check of its own. -/
theorem bind_after {check' : γ → Except ε δ} {checked : Except ε σ} {next : σ → Except ε β}
    {f : α → Except ε γ} {g : β → Except ε δ} (h : Refines check plain (checked >>= next))
    (hf : ∀ a, Refines check' (f a) (check a >>= g)) :
    Refines check' (plain >>= f) (checked >>= fun b => next b >>= g) := by
  rw [← bind_assoc]
  exact h.bind hf

/-- A step that both computations share may be taken before an earlier check. -/
theorem shared {check' : γ → Except ε δ} (checked : Except ε σ) (x : Except ε α) {f : α → Except ε γ}
    {g : σ → α → Except ε δ} (hf : ∀ a, Refines check' (f a) (checked >>= fun b => g b a)) :
    Refines check' (x >>= f) (checked >>= fun b => x >>= g b) := by
  cases x with
  | ok a => exact hf a
  | error e =>
      cases checked with
      | ok b => exact error e e
      | error e' => exact error e e'

theorem same {check' : γ → Except ε δ} (x : Except ε α) {f : α → Except ε γ} {g : α → Except ε δ}
    (hf : ∀ a, Refines check' (f a) (g a)) : Refines check' (x >>= f) (x >>= g) :=
  shared (.ok ()) x (g := fun _ => g) hf

theorem map {check' : γ → Except ε δ} {f : α → γ} {g : β → δ} (h : Refines check plain strict)
    (hf : ∀ a, check' (f a) = (check a).map g) : Refines check' (plain.map f) (strict.map g) := by
  cases hp : plain with
  | ok a =>
      rw [h.of_ok hp, ← hf]
      exact ok check' (f a)
  | error e =>
      obtain ⟨e', he⟩ := h.of_error hp
      rw [he]
      exact error e e'

end Refines

/-- A check of the first of two things. -/
def besides (check : α → Except ε β) : α × σ → Except ε (β × σ)
  | (x, other) => do
    let y ← check x
    .ok (y, other)

/-- What a reader of trees says of a check. -/
def refusing (check : α → Except String β) (x : α) : Except Mismatch β := (check x).mapError .refused

/-- What a reader of texts says of a check. -/
def refusingText (check : α → Except String β) (x : α) : Except Fault β :=
  (refusing check x).mapError .mismatch

namespace Scan

/-- A check of the outcome of a round. -/
def checkRound (checkState : σ → Except ε τ) (check : α → Except ε β) : Round σ α → Except ε (Round τ β)
  | .again state => do
    let state ← checkState state
    .ok (.again state)
  | .last x => do
    let y ← check x
    .ok (.last y)

/-- What follows a round. -/
def afterRound (round : σ → Scan (Round σ α)) (fuel : Nat) : Round σ α × List Char → Except Fault (α × List Char)
  | (.again state, s) => rounds round fuel state s
  | (.last result, s) => .ok (result, s)

theorem rounds_succ (round : σ → Scan (Round σ α)) (fuel : Nat) (state : σ) (s : List Char) :
    rounds round (fuel + 1) state s = round state s >>= afterRound round fuel := by
  rw [rounds]
  rcases round state s with fault | ⟨_ | _, s'⟩ <;> rfl

/-- If each round is refined, so is their repetition. -/
theorem refines_rounds {plain : σ → Scan (Round σ α)} {strict : τ → Scan (Round τ β)}
    {checkState : σ → Except Fault τ} {check : α → Except Fault β}
    (hround : ∀ state s, Refines (besides (checkRound checkState check)) (plain state s)
      (checkState state >>= fun state => strict state s)) (fuel : Nat) :
    ∀ state s, Refines (besides check) (rounds plain fuel state s)
      (checkState state >>= fun state => rounds strict fuel state s) := by
  induction fuel with
  | zero =>
      intro state s
      cases checkState state with
      | ok _ => exact .error _ _
      | error fault => exact .error _ _
  | succ fuel ih =>
      intro state s
      have hnext : ∀ reached, Refines (besides check) (afterRound plain fuel reached)
          (besides (checkRound checkState check) reached >>= afterRound strict fuel) := by
        rintro ⟨_ | x, s'⟩
        · rename_i state'
          have h := ih state' s'
          cases hc : checkState state' with
          | ok _ => simpa [hc, besides, checkRound, afterRound, bind, Except.bind] using h
          | error _ => simpa [hc, besides, checkRound, afterRound, bind, Except.bind] using h
        · have h := Refines.ok (besides check) (x, s')
          cases hc : check x with
          | ok _ => simpa [hc, besides, checkRound, afterRound, bind, Except.bind] using h
          | error _ => simpa [hc, besides, checkRound, afterRound, bind, Except.bind] using h
      have h := (hround state s).bind hnext
      rw [rounds_succ]
      cases hc : checkState state with
      | error fault => simpa [hc, bind, Except.bind] using h
      | ok reached =>
          rw [hc] at h
          show Refines _ _ (rounds strict (fuel + 1) reached s)
          rw [rounds_succ]
          exact h

end Scan

/-! ### The first field of a record -/

namespace Row

/-- A check of what is read so far, in which the first value may still be lacking. -/
def checkCells (check : α → Except ε β) : Option α × σ → Except ε (Option β × σ)
  | (none, cells) => .ok (none, cells)
  | (some x, cells) => do
    let y ← check x
    .ok (some y, cells)

variable {ρ π : Type} (name : String) (format : Format α) (check : α → Except String β) (parts : β → α)
  (rest : Row ρ π)

theorem refines_visit (member : String) (v : Json) (cells : Option α × π) :
    Refines (checkCells (refusing check)) ((field name format rest).visit member v cells)
      (checkCells (refusing check) cells >>= (field name (format.refine check parts) rest).visit member v) := by
  obtain ⟨cell, cells⟩ := cells
  by_cases hm : member = name
  · cases cell with
    | some x =>
        simp only [field, visit, hm, if_true]
        cases hc : refusing check x with
        | ok y => simpa [checkCells, hc, visit, bind, Except.bind] using Refines.error _ _
        | error m => simpa [checkCells, hc, bind, Except.bind] using Refines.error _ _
    | none =>
        simp only [checkCells, field, visit, hm, if_true, Format.refine]
        cases format.ofJson v with
        | error m => exact .error m m
        | ok x => exact .ok _ (some x, cells)
  · have hplain : (field name format rest).visit member v (cell, cells) =
        rest.visit member v cells >>= fun cells => .ok (cell, cells) := by
      simp only [field, visit, if_neg hm]
    have hstrict : checkCells (refusing check) (cell, cells) >>=
        (field name (format.refine check parts) rest).visit member v =
          checkCells (refusing check) (cell, cells) >>= fun checked =>
            rest.visit member v cells >>= fun cells => .ok (checked.1, cells) := by
      cases cell with
      | none => simp [checkCells, field, visit, hm, bind, Except.bind]
      | some x => cases hc : refusing check x <;> simp [checkCells, field, visit, hm, hc, bind, Except.bind]
    rw [hplain, hstrict]
    refine .shared _ _ ?_
    intro cells'
    have h := Refines.ok (checkCells (refusing check)) (cell, cells')
    cases cell with
    | none => exact h
    | some x => cases hc : refusing check x <;> simpa [checkCells, hc, bind, Except.bind] using h

theorem refines_foldlM_visit (members : List (String × Json)) (cells : Option α × π) :
    Refines (checkCells (refusing check))
      (members.foldlM (fun cells (member, v) => (field name format rest).visit member v cells) cells)
      (checkCells (refusing check) cells >>=
        members.foldlM fun cells (member, v) => (field name (format.refine check parts) rest).visit member v cells) := by
  induction members generalizing cells with
  | nil =>
      have h := Refines.ok (checkCells (refusing check)) cells
      cases hc : checkCells (refusing check) cells <;> simpa [hc, bind, Except.bind, pure, Except.pure] using h
  | cons member members ih =>
      have h := (refines_visit name format check parts rest member.1 member.2 cells).bind ih
      cases hc : checkCells (refusing check) cells with
      | ok checked => simpa [hc, bind, Except.bind] using h
      | error m => simpa [hc, bind, Except.bind] using h

theorem refines_finish (cells : Option α × π) :
    Refines (besides (refusing check)) ((field name format rest).finish cells)
      (checkCells (refusing check) cells >>= (field name (format.refine check parts) rest).finish) := by
  obtain ⟨cell, cells⟩ := cells
  cases cell with
  | none => exact .error _ _
  | some x =>
      cases hr : rest.finish cells with
      | ok xs =>
          have h := Refines.ok (besides (refusing check)) (x, xs)
          cases hc : refusing check x <;>
            simpa [checkCells, besides, field, finish, hr, hc, bind, Except.bind] using h
      | error m =>
          cases hc : refusing check x <;>
            simpa [checkCells, field, finish, hr, hc, bind, Except.bind] using Refines.error _ _

/-- An object is read by checking the first value of what it says without the check. -/
theorem refines_ofMembers (members : List (String × Json)) :
    Refines (besides (refusing check)) ((field name format rest).ofMembers members)
      ((field name (format.refine check parts) rest).ofMembers members) :=
  (refines_foldlM_visit name format check parts rest (Json.fields members) (none, rest.blank)).bind
    (refines_finish name format check parts rest)

theorem refines_ofItems (expected : String) (items : List Json) :
    Refines (besides (refusing check)) ((field name format rest).ofItems expected items)
      ((field name (format.refine check parts) rest).ofItems expected items) := by
  cases items with
  | nil => exact .error _ _
  | cons item items =>
      have hfirst : Refines (refusing check) (format.ofJson item) ((format.refine check parts).ofJson item) := by
        simp only [Format.refine]
        cases format.ofJson item with
        | error m => exact .error m m
        | ok x => exact .ok _ x
      have hfront : Refines (besides (besides (refusing check)))
          ((field name format rest).ofFront expected 0 (item :: items))
          ((field name (format.refine check parts) rest).ofFront expected 0 (item :: items)) := by
        refine hfirst.bind ?_
        intro x
        rcases hr : rest.ofFront expected 1 items with m | ⟨xs, left⟩
        · cases hc : refusing check x <;> simpa [hr, bind, Except.bind] using Refines.error _ _
        · have h := Refines.ok (besides (besides (refusing check))) ((x, xs), left)
          cases hc : refusing check x <;> simpa [besides, hr, hc, bind, Except.bind] using h
      refine hfront.bind ?_
      rintro ⟨⟨x, xs⟩, left⟩
      have h := Refines.ok (besides (refusing check)) (x, xs)
      cases hl : left.isEmpty with
      | true => cases hc : refusing check x <;> simpa [besides, hl, hc, bind, Except.bind] using h
      | false => cases hc : refusing check x <;> simpa [besides, hl, hc, bind, Except.bind] using Refines.error _ _

/-! ### From texts -/

theorem refines_checked (scan : Scan α) (s : List Char) :
    Refines (besides (refusingText check)) (scan s) (Scan.checked scan (refusing check) s) := by
  unfold Scan.checked
  rcases scan s with fault | ⟨x, s'⟩
  · exact .error fault fault
  · have h := Refines.ok (besides (refusingText check)) (x, s')
    cases hc : refusing check x with
    | error m =>
        have hr : refusingText check x = .error (.mismatch m) := congrArg (Except.mapError Fault.mismatch) hc
        simpa [besides, hc, hr, bind, Except.bind] using h
    | ok y =>
        have hr : refusingText check x = .ok y := congrArg (Except.mapError Fault.mismatch) hc
        simpa [besides, hc, hr, bind, Except.bind] using h

theorem refines_scanValue (member : String) (cells : Option α × π) (s : List Char) :
    Refines (besides (checkCells (refusingText check))) ((field name format rest).scanValue member cells s)
      (checkCells (refusingText check) cells >>= fun cells =>
        (field name (format.refine check parts) rest).scanValue member cells s) := by
  obtain ⟨cell, cells⟩ := cells
  by_cases hm : member = name
  · cases cell with
    | some x =>
        simp only [field, scanValue, hm, if_true]
        cases hc : refusingText check x with
        | ok y => simpa [checkCells, hc, scanValue, bind, Except.bind] using Refines.error _ _
        | error m => simpa [checkCells, hc, bind, Except.bind] using Refines.error _ _
    | none =>
        simp only [checkCells, field, scanValue, hm, if_true]
        refine .same (Scan.symbol ':' s) ?_
        rintro ⟨_, s'⟩
        refine (refines_checked check format.scan s').bind ?_
        rintro ⟨x, s''⟩
        have h := Refines.ok (besides (checkCells (refusingText check))) ((some x, cells), s'')
        cases hc : refusingText check x <;> simpa [besides, checkCells, hc, bind, Except.bind] using h
  · have hplain : (field name format rest).scanValue member (cell, cells) s =
        rest.scanValue member cells s >>= fun reached => .ok ((cell, reached.1), reached.2) := by
      simp only [field, scanValue, if_neg hm]
    have hstrict : (checkCells (refusingText check) (cell, cells) >>= fun cells =>
        (field name (format.refine check parts) rest).scanValue member cells s) =
          checkCells (refusingText check) (cell, cells) >>= fun checked =>
            rest.scanValue member cells s >>= fun reached => .ok ((checked.1, reached.1), reached.2) := by
      cases cell with
      | none => simp [checkCells, field, scanValue, hm, bind, Except.bind]
      | some x =>
          cases hc : refusingText check x <;> simp [checkCells, field, scanValue, hm, hc, bind, Except.bind]
    rw [hplain, hstrict]
    refine .shared _ _ ?_
    rintro ⟨cells', s'⟩
    have h := Refines.ok (besides (checkCells (refusingText check))) ((cell, cells'), s')
    cases cell with
    | none => exact h
    | some x => cases hc : refusingText check x <;> simpa [besides, checkCells, hc, bind, Except.bind] using h

theorem refines_checked_finish (cells : Option α × π) (s : List Char) :
    Refines (besides (besides (refusingText check)))
      (Scan.checked (fun s => .ok (cells, s)) (field name format rest).finish s)
      (checkCells (refusingText check) cells >>= fun cells =>
        Scan.checked (fun s => .ok (cells, s)) (field name (format.refine check parts) rest).finish s) := by
  obtain ⟨cell, cells⟩ := cells
  cases cell with
  | none => exact .error _ _
  | some x =>
      cases hr : rest.finish cells with
      | ok xs =>
          have h := Refines.ok (besides (besides (refusingText check))) ((x, xs), s)
          cases hc : refusingText check x <;>
            simpa [checkCells, besides, Scan.checked, field, finish, hr, hc, bind, Except.bind] using h
      | error m =>
          cases hc : refusingText check x <;>
            simpa [checkCells, Scan.checked, field, finish, hr, hc, bind, Except.bind] using Refines.error _ _

/-- A check of what is read so far of an object. -/
def checkProgress (check : α → Except ε β) : Bool × (Option α × π) → Except ε (Bool × (Option β × π))
  | (isFirst, cells) => do
    let cells ← checkCells check cells
    .ok (isFirst, cells)

theorem refines_memberRound (state : Bool × (Option α × π)) (s : List Char) :
    Refines (besides (Scan.checkRound (checkProgress (refusingText check)) (besides (refusingText check))))
      ((field name format rest).memberRound state s)
      (checkProgress (refusingText check) state >>= fun state =>
        (field name (format.refine check parts) rest).memberRound state s) := by
  obtain ⟨isFirst, cells⟩ := state
  have hstrict : (checkProgress (refusingText check) (isFirst, cells) >>= fun state =>
      (field name (format.refine check parts) rest).memberRound state s) =
        checkCells (refusingText check) cells >>= fun cells =>
          (field name (format.refine check parts) rest).memberRound (isFirst, cells) s := by
    cases hc : checkCells (refusingText check) cells <;> simp [checkProgress, hc, bind, Except.bind]
  rw [hstrict]
  refine .shared _ (Scan.more '\x7d' isFirst s) ?_
  rintro ⟨goesOn, s₁⟩
  cases goesOn with
  | true =>
      refine .shared _ (Scan.quoted Quoted.scan s₁) ?_
      rintro ⟨member, s₂⟩
      refine (refines_scanValue name format check parts rest member cells s₂).bind_after ?_
      rintro ⟨cells', s₃⟩
      have h := Refines.ok (besides (Scan.checkRound (checkProgress (refusingText check))
        (besides (refusingText check)))) ((.again (false, cells'), s₃) : Scan.Round (Bool × _) (α × ρ) × _)
      cases hc : checkCells (refusingText check) cells' <;>
        simpa [besides, Scan.checkRound, checkProgress, hc, bind, Except.bind] using h
  | false =>
      refine (refines_checked_finish name format check parts rest cells s₁).bind_after ?_
      rintro ⟨⟨x, xs⟩, s₂⟩
      rw [besides, bind_assoc]
      refine .shared _ (Scan.symbol '\x7d' s₂) ?_
      rintro ⟨_, s₃⟩
      have h := Refines.ok (besides (Scan.checkRound (checkProgress (refusingText check))
        (besides (refusingText check)))) ((.last (x, xs), s₃) : Scan.Round (Bool × (_ × π)) (α × ρ) × _)
      cases hc : refusingText check x <;>
        simpa [besides, Scan.checkRound, checkProgress, hc, bind, Except.bind] using h

theorem refines_scanMembers (s : List Char) :
    Refines (besides (besides (refusingText check))) ((field name format rest).scanMembers s)
      ((field name (format.refine check parts) rest).scanMembers s) :=
  Scan.refines_rounds (refines_memberRound name format check parts rest) s.length (true, none, rest.blank) s

theorem refines_scanItems (expected : String) (s : List Char) :
    Refines (besides (besides (refusingText check))) ((field name format rest).scanItems expected s)
      ((field name (format.refine check parts) rest).scanItems expected s) := by
  have hfront : Refines (besides (besides (refusingText check)))
      ((field name format rest).scanFront expected 0 s)
      ((field name (format.refine check parts) rest).scanFront expected 0 s) := by
    refine .same (Scan.more ']' true s) ?_
    rintro ⟨goesOn, s₁⟩
    cases goesOn with
    | false => exact .error _ _
    | true =>
        refine (refines_checked check format.scan s₁).bind ?_
        rintro ⟨x, s₂⟩
        rw [besides, bind_assoc]
        refine .shared _ (rest.scanFront expected 1 s₂) ?_
        rintro ⟨xs, s₃⟩
        have h := Refines.ok (besides (besides (refusingText check))) ((x, xs), s₃)
        cases hc : refusingText check x <;> simpa [besides, hc, bind, Except.bind] using h
  refine hfront.bind ?_
  rintro ⟨⟨x, xs⟩, s₁⟩
  rw [besides, bind_assoc]
  refine .shared _ (Scan.symbol ']' s₁) ?_
  rintro ⟨_, s₂⟩
  have h := Refines.ok (besides (besides (refusingText check))) ((x, xs), s₂)
  cases hc : refusingText check x <;> simpa [besides, hc, bind, Except.bind] using h

/-! ### The record -/

/-- A record is read from a tree by checking its first value. -/
theorem refines_record_ofJson (title : String) (v : Json) :
    Refines (besides (refusing check)) ((Format.record title (field name format rest)).ofJson v)
      ((Format.record title (field name (format.refine check parts) rest)).ofJson v) := by
  cases v with
  | object members => exact refines_ofMembers name format check parts rest members
  | array items => exact refines_ofItems name format check parts rest _ items
  | null => exact .error _ _
  | boolean b => exact .error _ _
  | number n => exact .error _ _
  | string s => exact .error _ _

/-- A record is read from a text by checking its first value. -/
theorem refines_record_scan (title : String) (s : List Char) :
    Refines (besides (besides (refusingText check)))
      ((Format.record title (field name format rest)).scan s)
      ((Format.record title (field name (format.refine check parts) rest)).scan s) := by
  simp only [Format.record, scanEither]
  split
  · exact .error _ _
  · split
    · exact refines_scanMembers name format check parts rest _
    · split
      · exact refines_scanItems name format check parts rest _ _
      · exact .error _ _

end Row

/-! ### Arenas -/

/-- A blueprint in the record that holds an arena, which says nothing of what it describes. -/
def Blueprint.recorded : Format Blueprint :=
  (Format.record "DependenceGraph" (Row.field "graph" Blueprint.format .nil)).map
    (fun (b, ()) => b)
    (fun b => (b, ()))

namespace Arena

/-- An arena is read from a tree by checking the blueprint that stands there. -/
theorem refines_ofJson (v : Json) :
    Refines (refusing ofBlueprint) (Blueprint.recorded.ofJson v) (format.ofJson v) := by
  refine (Row.refines_record_ofJson "graph" Blueprint.format ofBlueprint blueprint .nil "DependenceGraph" v).map ?_
  rintro ⟨b, _⟩
  cases hc : refusing ofBlueprint b <;> simp [besides, hc, bind, Except.bind, Except.map]

/-- An arena is read from a text by checking the blueprint that stands there. -/
theorem refines_parse (s : String) :
    Refines (refusingText ofBlueprint) (Blueprint.recorded.parse s) (format.parse s) := by
  have hscan : Refines (besides (refusingText ofBlueprint)) (Blueprint.recorded.scan s.toList)
      (format.scan s.toList) := by
    refine (Row.refines_record_scan "graph" Blueprint.format ofBlueprint blueprint .nil "DependenceGraph" _).bind ?_
    rintro ⟨⟨b, _⟩, left⟩
    have h := Refines.ok (besides (refusingText ofBlueprint)) (b, left)
    cases hc : refusingText ofBlueprint b <;> simpa [besides, hc, bind, Except.bind] using h
  refine hscan.bind ?_
  rintro ⟨b, left⟩
  have h := Refines.ok (refusingText ofBlueprint) b
  by_cases hl : Scan.skipBlanks left = []
  · cases hc : refusingText ofBlueprint b <;> simpa [besides, hl, hc, bind, Except.bind] using h
  · cases hc : refusingText ofBlueprint b <;> simpa [besides, hl, hc, bind, Except.bind] using Refines.error _ _

end Arena

end Dependence
