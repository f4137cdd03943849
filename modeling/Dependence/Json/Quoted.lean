import Dependence.Json.Scan

/-!
# Strings in JSON text

`Quoted.encode` writes a string: the quote, the backslash and the control characters are escaped,
every other character stands for itself. `Quoted.scan` reads a string after its opening quote, with
every escape that JSON knows. A character beyond the first 65536 can be escaped as the two halves
of its surrogate pair, and a half without the other is against the rules. `Quoted.skip` reads over a
string and does not look at what its escapes mean.
-/

namespace Dependence

namespace Quoted

/-! ### Writing -/

/-- How one character is written in a string. -/
def escape (c : Char) : List Char :=
  match c with
  | '"' => ['\\', '"']
  | '\\' => ['\\', '\\']
  | '\x08' => ['\\', 'b']
  | '\x0c' => ['\\', 'f']
  | '\n' => ['\\', 'n']
  | '\r' => ['\\', 'r']
  | '\t' => ['\\', 't']
  | c =>
    if c.toNat < 0x20 then
      ['\\', 'u', '0', '0', Nat.digitChar (c.toNat / 16), Nat.digitChar (c.toNat % 16)]
    else [c]

/-- A string between its quotes. -/
def encode (s : String) : List Char := '"' :: s.toList.flatMap escape ++ ['"']

/-! ### Reading -/

/-- The value of a hexadecimal digit. -/
def hexValue (c : Char) : Option Nat :=
  if '0' ≤ c ∧ c ≤ '9' then some (c.toNat - '0'.toNat)
  else if 'a' ≤ c ∧ c ≤ 'f' then some (c.toNat - 'a'.toNat + 10)
  else if 'A' ≤ c ∧ c ≤ 'F' then some (c.toNat - 'A'.toNat + 10)
  else none

/-- The number that four hexadecimal digits mean. -/
def hexValue4 (a b c d : Char) : Option Nat := do
  let a ← hexValue a
  let b ← hexValue b
  let c ← hexValue c
  let d ← hexValue d
  some (((a * 16 + b) * 16 + c) * 16 + d)

/-- How many bytes a text takes. -/
def byteCount : List Char → Nat
  | [] => 0
  | c :: s => c.utf8Size + byteCount s

/-- Reads four hexadecimal digits. A text of fewer than four bytes is cut short. -/
def hex4 : Scan Nat := fun s =>
  match s with
  | a :: b :: c :: d :: rest =>
    match hexValue4 a b c d with
    | some n => .ok (n, rest)
    | none => .error .malformed
  | s => if byteCount s < 4 then .error .truncated else .error .malformed

/-- Reads the other half of a surrogate pair, after its first half. -/
def lowHalf (high : Nat) : Scan Char := fun s =>
  match s with
  | [] => .error .truncated
  | ['\\'] => .error .truncated
  | '\\' :: 'u' :: s => do
    let (low, s) ← hex4 s
    if 0xDC00 ≤ low ∧ low ≤ 0xDFFF then
      .ok (Char.ofNat ((high - 0xD800) * 0x400 + (low - 0xDC00) + 0x10000), s)
    else .error .malformed
  | _ => .error .malformed

/-- Reads an escape given by the number of a character, or by the two halves of a pair. -/
def numbered : Scan Char := fun s => do
  let (n, s) ← hex4 s
  if 0xDC00 ≤ n ∧ n ≤ 0xDFFF then .error .malformed
  else if 0xD800 ≤ n ∧ n ≤ 0xDBFF then lowHalf n s
  else .ok (Char.ofNat n, s)

/-- The character that a single letter after a backslash means. -/
def short (c : Char) : Option Char :=
  match c with
  | '"' => some '"'
  | '\\' => some '\\'
  | '/' => some '/'
  | 'b' => some '\x08'
  | 'f' => some '\x0c'
  | 'n' => some '\n'
  | 'r' => some '\r'
  | 't' => some '\t'
  | _ => none

/-- Reads what follows a backslash. Escapes by number are left to the given reader. -/
def escaped {α : Type} (plain : Char → α) (byNumber : Scan α) : Scan α := fun s =>
  match s with
  | [] => .error .truncated
  | c :: s =>
    if c = 'u' then byNumber s
    else
      match short c with
      | some c => .ok (plain c, s)
      | none => .error .malformed

/-- Reads one more character, or the closing quote. -/
def round {α : Type} (plain : Char → α) (byNumber : Scan α) (seen : List α) :
    Scan (Scan.Round (List α) (List α)) := fun s =>
  match s with
  | [] => .error .truncated
  | '"' :: s => .ok (.last seen.reverse, s)
  | '\\' :: s => do
    let (x, s) ← escaped plain byNumber s
    .ok (.again (x :: seen), s)
  | c :: s => if c.toNat < 0x20 then .error .malformed else .ok (.again (plain c :: seen), s)

/-- Reads characters up to the closing quote, the last one read in front. -/
def body {α : Type} (plain : Char → α) (byNumber : Scan α) : Scan (List α) :=
  Scan.repeated (round plain byNumber) []

/-- Reads a string after its opening quote. -/
def scan : Scan String := fun s => do
  let (cs, s) ← body id numbered s
  .ok (String.ofList cs, s)

/-- Reads over a string after its opening quote. -/
def skip : Scan Unit := fun s => do
  let (_, s) ← body (fun _ => ()) (fun s => do let (_, s) ← hex4 s; .ok ((), s)) s
  .ok ((), s)

end Quoted

end Dependence
