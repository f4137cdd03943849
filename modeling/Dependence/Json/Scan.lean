import Dependence.Json.Mismatch

/-!
# Scanning

Reading from the front of a text. A `Scan` takes what is left of the text and yields what it has
read together with what is left then, or the first fault that it meets from left to right.

`repeated` carries out rounds until one of them is the last. Every round reads at least one
character, so there are at most as many rounds as characters, and a text that is used up is
truncated.
-/

namespace Dependence

/-- Why a text cannot be read. -/
inductive Fault
  /-- The text ends too early. -/
  | truncated
  /-- The text breaks the rules of JSON. -/
  | malformed
  /-- The text obeys the rules so far, but does not say what is expected. -/
  | mismatch (m : Mismatch)
  deriving DecidableEq

/-- A reader of the front of a text. -/
abbrev Scan (α : Type) := List Char → Except Fault (α × List Char)

namespace Scan

variable {α σ : Type}

/-- What stands between the parts of a text without meaning anything. -/
def isBlank (c : Char) : Bool := c = ' ' || c = '\n' || c = '\t' || c = '\r'

/-- The text after its leading blanks. -/
def skipBlanks (s : List Char) : List Char := s.dropWhile isBlank

/-- Reads the given characters and yields the given value. -/
def keyword (value : α) : List Char → Scan α
  | [], s => .ok (value, s)
  | _ :: _, [] => .error .truncated
  | c :: cs, d :: s => if c = d then keyword value cs s else .error .malformed

/-- Reads blanks and one given character. -/
def symbol (c : Char) : Scan Unit := fun s =>
  match skipBlanks s with
  | [] => .error .truncated
  | d :: s => if c = d then .ok ((), s) else .error .malformed

/-- Whether a list that ends with the given character goes on. The comma before a part that is not
the first is read; the closing character is not. -/
def more (close : Char) (isFirst : Bool) : Scan Bool := fun s =>
  match skipBlanks s with
  | [] => .error .truncated
  | c :: s =>
    if c = close then .ok (false, c :: s)
    else if isFirst then .ok (true, c :: s)
    else if c = ',' then .ok (true, s)
    else .error .malformed

/-- One round of a repetition: there is more to do, or this was the last. -/
inductive Round (σ α : Type)
  | again (state : σ)
  | last (result : α)

/-- Carries out at most the given number of rounds. -/
def rounds (round : σ → Scan (Round σ α)) : Nat → σ → Scan α
  | 0, _, _ => .error .truncated
  | fuel + 1, state, s =>
    match round state s with
    | .error fault => .error fault
    | .ok (.again state, s) => rounds round fuel state s
    | .ok (.last result, s) => .ok (result, s)

/-- Carries out rounds, of which each reads something, until one is the last. -/
def repeated (round : σ → Scan (Round σ α)) (start : σ) : Scan α := fun s =>
  rounds round s.length start s

/-- Accepts the value that is read only if it passes a check. -/
def checked {β : Type} (scan : Scan α) (check : α → Except Mismatch β) : Scan β := fun s => do
  let (x, s) ← scan s
  match check x with
  | .ok y => .ok (y, s)
  | .error m => .error (.mismatch m)

/-- Reads something, after which only blanks may follow. -/
def whole (scan : Scan α) (s : List Char) : Except Fault α := do
  let (x, s) ← scan s
  if skipBlanks s = [] then .ok x else .error .malformed

end Scan

end Dependence
