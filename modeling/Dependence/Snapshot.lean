import Dependence.Style
import Dependence.Text.Quote
import Dependence.Text.Separated

/-!
# Snapshots

A snapshot is a picture of a value for the eyes of a programmer: its parts with their names. It can
be shown on one line (`compact`) or with every part on a line of its own (`indented`). Either way,
texts are quoted, and only numbers and truth values obey the style.
-/

namespace Dependence

/-- A picture of a value. -/
inductive Snapshot
  /-- A number. -/
  | number (n : Nat)
  /-- A truth value. -/
  | boolean (b : Bool)
  /-- A text, shown in quotes. -/
  | text (s : String)
  /-- A word that is shown as it is. -/
  | verbatim (s : String)
  /-- A named value with parts that have no names. -/
  | tuple (name : String) (items : List Snapshot)
  /-- A named value with parts that have names. -/
  | record (name : String) (fields : List (String × Snapshot))
  /-- A list. -/
  | list (items : List Snapshot)
  /-- A table from keys to values. -/
  | table (entries : List (Snapshot × Snapshot))

namespace Snapshot

/-! ### On one line -/

/-- Parts on one line. -/
def inline (parts : List (List Char)) : List Char := Text.separated [',', ' '] parts

mutual

/-- A snapshot on one line. -/
def compact (style : Style) : Snapshot → List Char
  | .number n => style.number n
  | .boolean b => style.boolean b
  | .text s => Text.quote s
  | .verbatim s => s.toList
  | .tuple name items => name.toList ++ '(' :: inline (compactItems style items) ++ [')']
  | .record name fields =>
    name.toList ++ [' ', '\x7b', ' '] ++ inline (compactFields style fields) ++ [' ', '\x7d']
  | .list items => '[' :: inline (compactItems style items) ++ [']']
  | .table entries => '\x7b' :: inline (compactEntries style entries) ++ ['\x7d']

/-- Items on one line. -/
def compactItems (style : Style) : List Snapshot → List (List Char)
  | [] => []
  | item :: items => item.compact style :: compactItems style items

/-- Named parts on one line. -/
def compactFields (style : Style) : List (String × Snapshot) → List (List Char)
  | [] => []
  | (name, value) :: fields =>
    (name.toList ++ [':', ' '] ++ value.compact style) :: compactFields style fields

/-- Entries of a table on one line. -/
def compactEntries (style : Style) : List (Snapshot × Snapshot) → List (List Char)
  | [] => []
  | (key, value) :: entries =>
    (key.compact style ++ [':', ' '] ++ value.compact style) :: compactEntries style entries

end

/-! ### On many lines -/

/-- The blanks before a part at a depth. -/
def margin (depth : Nat) : List Char := List.replicate (4 * depth) ' '

/-- Parts inside brackets at a depth, each on a line of its own one step further in. Without parts
the brackets stand together. -/
def block (depth : Nat) (first last : Char) (parts : List (List Char)) : List Char :=
  if parts.isEmpty then [first, last]
  else
    [first, '\n'] ++ parts.flatMap (fun part => margin (depth + 1) ++ part ++ [',', '\n']) ++
      margin depth ++ [last]

mutual

/-- A snapshot at a depth on many lines. -/
def indented (style : Style) (depth : Nat) : Snapshot → List Char
  | .number n => style.number n
  | .boolean b => style.boolean b
  | .text s => Text.quote s
  | .verbatim s => s.toList
  | .tuple name items => name.toList ++ block depth '(' ')' (indentedItems style (depth + 1) items)
  | .record name fields =>
    name.toList ++ ' ' :: block depth '\x7b' '\x7d' (indentedFields style (depth + 1) fields)
  | .list items => block depth '[' ']' (indentedItems style (depth + 1) items)
  | .table entries => block depth '\x7b' '\x7d' (indentedEntries style (depth + 1) entries)

/-- Items at a depth. -/
def indentedItems (style : Style) (depth : Nat) : List Snapshot → List (List Char)
  | [] => []
  | item :: items => item.indented style depth :: indentedItems style depth items

/-- Named parts at a depth. -/
def indentedFields (style : Style) (depth : Nat) : List (String × Snapshot) → List (List Char)
  | [] => []
  | (name, value) :: fields =>
    (name.toList ++ [':', ' '] ++ value.indented style depth) :: indentedFields style depth fields

/-- Entries of a table at a depth. -/
def indentedEntries (style : Style) (depth : Nat) :
    List (Snapshot × Snapshot) → List (List Char)
  | [] => []
  | (key, value) :: entries =>
    (key.indented style depth ++ [':', ' '] ++ value.indented style depth) ::
      indentedEntries style depth entries

end

/-- The text of a snapshot: on many lines, if the style asks for the spacious form. -/
def render (style : Style) (x : Snapshot) : String :=
  String.ofList (if style.isAlternate then x.indented style 0 else x.compact style)

/-- A snapshot on one line or on many, without any other demand on its style. -/
def describe (isSpacious : Bool) (x : Snapshot) : String := x.render { isAlternate := isSpacious }

end Snapshot

end Dependence
