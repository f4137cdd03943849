import Dependence.Format.Record

/-!
# Choices

A value that is one of several variants, each known by its name. A variant is written as its name
alone, or as an object whose only member has the name of the variant and the variant's content.
-/

namespace Dependence

/-- How one variant of a choice is read. -/
structure Branch (α : Type) where
  name : String
  /-- What the name alone means. -/
  alone : Except Mismatch α
  ofJson : Json → Except Mismatch α
  scan : Scan α

namespace Branch

variable {α ρ π : Type}

/-- A variant without content. -/
def constant (name : String) (x : α) : Branch α where
  name := name
  alone := .ok x
  ofJson v := (Format.unit.ofJson v).map fun _ => x
  scan s := do
    let (_, s) ← Format.unit.scan s
    .ok (x, s)

/-- A variant whose content is a record. A text may give the content as an array. -/
def record (choice name : String) (row : Row ρ π) (make : ρ → α) : Branch α where
  name := name
  alone := .error (.wrongType .unitVariant "struct variant")
  ofJson
    | .object members => (row.ofMembers members).map make
    | v => .error (Format.unexpected "struct variant" v)
  scan s := do
    let (xs, s) ← row.scanEither ("struct variant " ++ choice ++ "::" ++ name) s
    .ok (make xs, s)

/-- The branch of a given name. -/
def find (branches : List (Branch α)) (name : String) : Except Mismatch (Branch α) :=
  match branches.find? fun branch => branch.name = name with
  | some branch => .ok branch
  | none => .error (.unknownVariant name (branches.map Branch.name))

end Branch

namespace Format

variable {α : Type}

/-- A choice between variants. -/
def choice (branches : List (Branch α)) (write : α → Json) : Format α where
  write := write
  ofJson
    | .string name => do (← Branch.find branches name).alone
    | .object members =>
      match Json.fields members with
      | [(name, v)] => do (← Branch.find branches name).ofJson v
      | _ => .error (.wrongValue .map "map with a single key")
    | v => .error (unexpected "string or map" v)
  scan s :=
    match Scan.skipBlanks s with
    | [] => .error .truncated
    | c :: s =>
      if c = '"' then
        Scan.checked Quoted.scan (fun name => do (← Branch.find branches name).alone) s
      else if c = '\x7b' then
        match Scan.skipBlanks s with
        | [] => .error .truncated
        | c :: s =>
          if c = '"' then do
            let (branch, s) ← Scan.checked Quoted.scan (Branch.find branches) s
            let (_, s) ← Scan.symbol ':' s
            let (x, s) ← branch.scan s
            let (_, s) ← Scan.symbol '\x7d' s
            .ok (x, s)
          else .error (unexpectedText "variant identifier" (c :: s))
      else .error .malformed

end Format

end Dependence
