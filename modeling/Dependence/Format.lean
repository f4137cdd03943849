import Dependence.Json.Compact
import Dependence.Json.Reader

/-!
# Formats

A `Format α` says how values of a type are written as JSON, and how they are read: from a tree, and
straight from a text. The two readers accept the same things but for a few liberties of text, and
both report the first thing that does not fit.

* A tree is read as it stands. The members of an object are visited in ascending order of names.
* A text is read once, from left to right, so a mismatch can hide that the text breaks off later.

This module has the formats of plain values and of lists.
-/

namespace Dependence

/-- How values of a type are written and read. -/
structure Format (α : Type) where
  write : α → Json
  ofJson : Json → Except Mismatch α
  scan : Scan α

namespace Format

variable {α β : Type}

/-- Reads a value from a whole text. -/
def parse (f : Format α) (s : String) : Except Fault α := Scan.whole f.scan s.toList

/-- The compact text of a value. -/
def text (f : Format α) (x : α) : String := (f.write x).text

/-- The mismatch of a tree that is of another type. -/
def unexpected (expected : String) (v : Json) : Mismatch := .wrongType v.found expected

/-- Reads a text as far as it takes to say what it is. -/
def scanFound : Scan Found := fun s =>
  match s with
  | [] => .error .truncated
  | c :: s =>
    if c = 'n' then Scan.keyword .null "ull".toList s
    else if c = 't' then Scan.keyword (.boolean true) "rue".toList s
    else if c = 'f' then Scan.keyword (.boolean false) "alse".toList s
    else if c = '"' then do
      let (t, s) ← Quoted.scan s
      .ok (.string t, s)
    else if c = '[' then .ok (.sequence, s)
    else if c = '\x7b' then .ok (.map, s)
    else if Builder.startsNumeral c then do
      let (n, s) ← Number.scan (c :: s)
      .ok ((Json.number n).found, s)
    else .error .malformed

/-- The fault of a text that is of another type. -/
def unexpectedText (expected : String) (s : List Char) : Fault :=
  match scanFound s with
  | .ok (found, _) => .mismatch (.wrongType found expected)
  | .error fault => fault

/-! ### Plain values -/

/-- The word that a number means, if it is an integer in range. -/
def wordOf : Number → Except Mismatch UInt32
  | .integer i =>
    if 0 ≤ i ∧ i < UInt32.size then .ok (UInt32.ofNat i.toNat)
    else .error (.wrongValue (.integer i) "u32")
  | .real x => .error (.wrongType (.real x) "u32")

/-- A word is written as an integer. -/
def word : Format UInt32 where
  write w := .number (.integer w.toNat)
  ofJson
    | .number n => wordOf n
    | v => .error (unexpected "u32" v)
  scan s :=
    match Scan.skipBlanks s with
    | [] => .error .truncated
    | c :: s =>
      if Builder.startsNumeral c then Scan.checked Number.scan wordOf (c :: s)
      else .error (unexpectedText "u32" (c :: s))

/-- A truth value is written as a boolean. -/
def boolean : Format Bool where
  write := .boolean
  ofJson
    | .boolean b => .ok b
    | v => .error (unexpected "a boolean" v)
  scan s :=
    match Scan.skipBlanks s with
    | [] => .error .truncated
    | c :: s =>
      if c = 't' then Scan.keyword true "rue".toList s
      else if c = 'f' then Scan.keyword false "alse".toList s
      else .error (unexpectedText "a boolean" (c :: s))

/-- A text is written as a string. -/
def string : Format String where
  write := .string
  ofJson
    | .string s => .ok s
    | v => .error (unexpected "a string" v)
  scan s :=
    match Scan.skipBlanks s with
    | [] => .error .truncated
    | c :: s =>
      if c = '"' then Quoted.scan s
      else .error (unexpectedText "a string" (c :: s))

/-- The one value of the unit type is written as null. -/
def unit : Format Unit where
  write _ := .null
  ofJson
    | .null => .ok ()
    | v => .error (unexpected "unit" v)
  scan s :=
    match Scan.skipBlanks s with
    | [] => .error .truncated
    | c :: s =>
      if c = 'n' then Scan.keyword () "ull".toList s
      else .error (unexpectedText "unit" (c :: s))

/-! ### Formats from formats -/

/-- Values in another representation: how they are made, and what they are made of. -/
def map (f : Format α) (make : α → β) (parts : β → α) : Format β where
  write y := f.write (parts y)
  ofJson v := (f.ofJson v).map make
  scan s := do
    let (x, s) ← f.scan s
    .ok (make x, s)

/-- Values that are read only if they pass a check, which may give a reason against them. -/
def refine (f : Format α) (check : α → Except String β) (parts : β → α) : Format β where
  write y := f.write (parts y)
  ofJson v := do (check (← f.ofJson v)).mapError .refused
  scan := Scan.checked f.scan fun x => (check x).mapError .refused

/-- Values that may be absent: null stands for absence. -/
def optional (f : Format α) : Format (Option α) where
  write
    | none => .null
    | some x => f.write x
  ofJson
    | .null => .ok none
    | v => (f.ofJson v).map some
  scan s :=
    match Scan.skipBlanks s with
    | 'n' :: s => Scan.keyword none "ull".toList s
    | s => do
      let (x, s) ← f.scan s
      .ok (some x, s)

/-- Lists are written as arrays. -/
def list (f : Format α) : Format (List α) where
  write xs := .array (xs.map f.write)
  ofJson
    | .array items => items.mapM f.ofJson
    | v => .error (unexpected "a sequence" v)
  scan s :=
    match Scan.skipBlanks s with
    | [] => .error .truncated
    | c :: s =>
      if c = '[' then Scan.items f.scan s
      else .error (unexpectedText "a sequence" (c :: s))

end Format

end Dependence
