import Dependence.Format

/-!
# Records

A `Row` lists the fields of a record. A record is written as an object with the fields in the order
of the row. It is read from an object, in which the fields come in any order and other members are
passed over, or from an array that has the values of all fields in the order of the row.

A row is indexed by two types. The first is that of its values, the second that of its values as far
as they are read.

A field can have a value that stands in for it when an object lacks it, and one for when an array
ends before it.
-/

namespace Dependence

/-- The fields of a record. -/
inductive Row : Type → Type → Type 1
  | nil : Row Unit Unit
  | cons {α ρ π : Type} (name : String) (format : Format α) (ifAbsent ifShort : Option α)
      (rest : Row ρ π) : Row (α × ρ) (Option α × π)

namespace Row

variable {ρ π : Type}

/-- A row with a field that has to be there in front. -/
def field {α : Type} (name : String) (format : Format α) (rest : Row ρ π) :
    Row (α × ρ) (Option α × π) :=
  .cons name format none none rest

/-- How many fields there are. -/
def size {ρ π : Type} : Row ρ π → Nat
  | .nil => 0
  | .cons _ _ _ _ rest => rest.size + 1

/-- The members that the values of a row are written as. -/
def write {ρ π : Type} : Row ρ π → ρ → List (String × Json)
  | .nil, () => []
  | .cons name format _ _ rest, (x, xs) => (name, format.write x) :: rest.write xs

/-- The values of a row as arrays hold them. -/
def writeItems {ρ π : Type} : Row ρ π → ρ → List Json
  | .nil, () => []
  | .cons _ format _ _ rest, (x, xs) => format.write x :: rest.writeItems xs

/-- The state in which nothing is read. -/
def blank {ρ π : Type} : Row ρ π → π
  | .nil => ()
  | .cons _ _ _ _ rest => (none, rest.blank)

/-- The values of a row once everything is read. The first field without a value is missing. -/
def finish {ρ π : Type} : Row ρ π → π → Except Mismatch ρ
  | .nil, () => .ok ()
  | .cons name _ ifAbsent _ rest, (cell, cells) =>
    match cell.or ifAbsent with
    | none => .error (.missingField name)
    | some x => do
      let xs ← rest.finish cells
      .ok (x, xs)

/-! ### From trees -/

/-- Reads one member of an object. A member that is no field is passed over. -/
def visit {ρ π : Type} (name : String) (v : Json) : Row ρ π → π → Except Mismatch π
  | .nil, () => .ok ()
  | .cons other format _ _ rest, (cell, cells) =>
    if name = other then
      match cell with
      | some _ => .error (.duplicateField name)
      | none => do
        let x ← format.ofJson v
        .ok (some x, cells)
    else do
      let cells ← rest.visit name v cells
      .ok (cell, cells)

/-- Reads the values of a row from the members of an object. -/
def ofMembers (row : Row ρ π) (members : List (String × Json)) : Except Mismatch ρ := do
  let cells ← (Json.fields members).foldlM (fun cells (name, v) => row.visit name v cells) row.blank
  row.finish cells

/-- Reads the values of a row from the front of a list, of which so many items are read already. -/
def ofFront {ρ π : Type} (expected : String) (read : Nat) :
    Row ρ π → List Json → Except Mismatch (ρ × List Json)
  | .nil, items => .ok ((), items)
  | .cons _ format _ _ rest, item :: items => do
    let x ← format.ofJson item
    let (xs, items) ← rest.ofFront expected (read + 1) items
    .ok ((x, xs), items)
  | .cons _ _ _ (some x) rest, [] => do
    let (xs, items) ← rest.ofFront expected (read + 1) []
    .ok ((x, xs), items)
  | .cons _ _ _ none _, [] => .error (.wrongLength read expected)

/-- Reads the values of a row from all items of an array. -/
def ofItems (row : Row ρ π) (expected : String) (items : List Json) : Except Mismatch ρ := do
  let (xs, rest) ← row.ofFront expected 0 items
  if rest.isEmpty then .ok xs
  else .error (.wrongLength items.length "fewer elements in array")

/-! ### From texts -/

/-- Reads what follows the name of a member: a colon and the value of the field, or any value if it
is no field. A field that was read before is not read again. -/
def scanValue {ρ π : Type} (name : String) : Row ρ π → π → Scan π
  | .nil, () => fun s => do
    let (_, s) ← Scan.symbol ':' s
    Json.skip s
  | .cons other format _ _ rest, (cell, cells) => fun s =>
    if name = other then
      match cell with
      | some _ => .error (.mismatch (.duplicateField name))
      | none => do
        let (_, s) ← Scan.symbol ':' s
        let (x, s) ← format.scan s
        .ok ((some x, cells), s)
    else do
      let (cells, s) ← rest.scanValue name cells s
      .ok ((cell, cells), s)

/-- Reads one more member of an object, or its closing brace, when everything must be read. -/
def memberRound (row : Row ρ π) (state : Bool × π) : Scan (Scan.Round (Bool × π) ρ) := fun s => do
  let (isFirst, cells) := state
  let (goesOn, s) ← Scan.more '\x7d' isFirst s
  if goesOn then
    let (name, s) ← Scan.quoted Quoted.scan s
    let (cells, s) ← row.scanValue name cells s
    .ok (.again (false, cells), s)
  else
    let (xs, s) ← Scan.checked (fun s => .ok (cells, s)) row.finish s
    let (_, s) ← Scan.symbol '\x7d' s
    .ok (.last xs, s)

/-- Reads an object after its opening brace. -/
def scanMembers (row : Row ρ π) : Scan ρ := Scan.repeated row.memberRound (true, row.blank)

/-- Reads the values of a row from an array of which so many items are read already. The closing
bracket is left. -/
def scanFront {ρ π : Type} (expected : String) (read : Nat) : Row ρ π → Scan ρ
  | .nil => fun s => .ok ((), s)
  | .cons _ format _ ifShort rest => fun s => do
    let (goesOn, s) ← Scan.more ']' (read = 0) s
    if goesOn then
      let (x, s) ← format.scan s
      let (xs, s) ← rest.scanFront expected (read + 1) s
      .ok ((x, xs), s)
    else
      match ifShort with
      | some x => do
        let (xs, s) ← rest.scanFront expected (read + 1) s
        .ok ((x, xs), s)
      | none => .error (.mismatch (.wrongLength read expected))

/-- Reads an array after its opening bracket. -/
def scanItems (row : Row ρ π) (expected : String) : Scan ρ := fun s => do
  let (xs, s) ← row.scanFront expected 0 s
  let (_, s) ← Scan.symbol ']' s
  .ok (xs, s)

/-- What a row of a given name is expected to be, with the number of its elements. -/
def withSize (row : Row ρ π) (expected : String) : String :=
  expected ++ " with " ++ toString row.size ++ (if row.size = 1 then " element" else " elements")

/-- Reads an object or an array. -/
def scanEither (row : Row ρ π) (expected : String) : Scan ρ := fun s =>
  match Scan.skipBlanks s with
  | [] => .error .truncated
  | c :: s =>
    if c = '\x7b' then row.scanMembers s
    else if c = '[' then row.scanItems (row.withSize expected) s
    else .error (Format.unexpectedText expected (c :: s))

end Row

namespace Format

variable {ρ π : Type}

/-- A record of a given name. -/
def record (name : String) (row : Row ρ π) : Format ρ where
  write xs := .object (row.write xs)
  ofJson
    | .object members => row.ofMembers members
    | .array items => row.ofItems (row.withSize ("struct " ++ name)) items
    | v => .error (unexpected ("struct " ++ name) v)
  scan := row.scanEither ("struct " ++ name)

/-- A tuple: an array with the values of a row, whose names are not written. -/
def tuple (row : Row ρ π) : Format ρ where
  write xs := .array (row.writeItems xs)
  ofJson
    | .array items => row.ofItems ("a tuple of size " ++ toString row.size) items
    | v => .error (unexpected ("a tuple of size " ++ toString row.size) v)
  scan s :=
    match Scan.skipBlanks s with
    | [] => .error .truncated
    | c :: s =>
      if c = '[' then row.scanItems ("a tuple of size " ++ toString row.size) s
      else .error (unexpectedText ("a tuple of size " ++ toString row.size) (c :: s))

end Format

end Dependence
