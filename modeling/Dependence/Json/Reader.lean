import Dependence.Json.Numeral
import Dependence.Json.Quoted

/-!
# Reading JSON text

The grammar of JSON, once for all readers that take any JSON: a `Builder` says how strings and
numbers are read and what is made of the parts, and `Builder.scan` reads a text by it.

* `Json.scan` builds the tree of a text, and refuses one that is nested too deeply.
* `Json.skip` builds nothing. It reads over a text to find its end, and asks neither for the value
  of a number nor for the meaning of an escape.
-/

namespace Dependence

namespace Scan

variable {α κ : Type}

/-- Reads one more item of an array, or its closing bracket. -/
def itemRound (item : Scan α) (seen : List α) : Scan (Round (List α) (List α)) := fun s => do
  let (goesOn, s) ← more ']' seen.isEmpty s
  if goesOn then
    let (x, s) ← item s
    .ok (.again (x :: seen), s)
  else
    let (_, s) ← symbol ']' s
    .ok (.last seen.reverse, s)

/-- Reads items after an opening bracket, up to the closing one. -/
def items (item : Scan α) : Scan (List α) := repeated (itemRound item) []

/-- Reads a string in quotes by a reader for what follows the opening quote. -/
def quoted (string : Scan κ) : Scan κ := fun s =>
  match skipBlanks s with
  | [] => .error .truncated
  | c :: s => if c = '"' then string s else .error .malformed

/-- Reads one more member of an object, or its closing brace. -/
def memberRound (key : Scan κ) (value : Scan α) (seen : List (κ × α)) :
    Scan (Round (List (κ × α)) (List (κ × α))) := fun s => do
  let (goesOn, s) ← more '\x7d' seen.isEmpty s
  if goesOn then
    let (k, s) ← quoted key s
    let (_, s) ← symbol ':' s
    let (x, s) ← value s
    .ok (.again ((k, x) :: seen), s)
  else
    let (_, s) ← symbol '\x7d' s
    .ok (.last seen.reverse, s)

/-- Reads members after an opening brace, up to the closing one. -/
def members (key : Scan κ) (value : Scan α) : Scan (List (κ × α)) :=
  repeated (memberRound key value) []

end Scan

/-- How the parts of a JSON text are read and what is made of them. -/
structure Builder (α κ : Type) where
  null : α
  boolean : Bool → α
  number : Scan α
  string : Scan α
  key : Scan κ
  array : List α → α
  object : List (κ × α) → α

namespace Builder

variable {α κ : Type}

/-- Whether a numeral begins with a character. -/
def startsNumeral (c : Char) : Bool := c = '-' || c.isDigit

/-- Reads a JSON text whose brackets and braces are nested at most to the given depth. -/
def scan (b : Builder α κ) (depth : Nat) : Scan α := fun s =>
  match Scan.skipBlanks s with
  | [] => .error .truncated
  | c :: s =>
    if c = 'n' then Scan.keyword b.null "ull".toList s
    else if c = 't' then Scan.keyword (b.boolean true) "rue".toList s
    else if c = 'f' then Scan.keyword (b.boolean false) "alse".toList s
    else if c = '"' then b.string s
    else if startsNumeral c then b.number (c :: s)
    else
      match depth with
      | 0 => .error .malformed
      | depth + 1 =>
        if c = '[' then do
          let (xs, s) ← Scan.items (b.scan depth) s
          .ok (b.array xs, s)
        else if c = '\x7b' then do
          let (xs, s) ← Scan.members b.key (b.scan depth) s
          .ok (b.object xs, s)
        else .error .malformed

end Builder

namespace Json

/-- How a tree is built. -/
def tree : Builder Json String where
  null := .null
  boolean := .boolean
  number := fun s => do
    let (n, s) ← Number.scan s
    .ok (.number n, s)
  string := fun s => do
    let (t, s) ← Quoted.scan s
    .ok (.string t, s)
  key := Quoted.scan
  array := .array
  object := .object

/-- How nothing is built. -/
def nothing : Builder Unit Unit where
  null := ()
  boolean := fun _ => ()
  number := Numeral.skip
  string := Quoted.skip
  key := Quoted.skip
  array := fun _ => ()
  object := fun _ => ()

/-- How deeply arrays and objects may be nested in a tree. -/
def maxDepth : Nat := 127

/-- Reads a tree from the front of a text. -/
def scan : Scan Json := tree.scan maxDepth

/-- Reads over one JSON text. It cannot be nested more deeply than it is long. -/
def skip : Scan Unit := fun s => nothing.scan s.length s

/-- The tree of a text. -/
def parse (s : String) : Except Fault Json := Scan.whole scan s.toList

end Json

end Dependence
