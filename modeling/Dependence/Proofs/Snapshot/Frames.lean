import Dependence.Snapshot

/-! # The frames of snapshots

A snapshot is shown in two ways, on one line or on many, and both are of one kind: a word stands first, and
what follows it is nothing, a quoted text, or a frame around the parts (`Snapshot.rest`).  The two ways differ
in their frames only (`Snapshot.inlineFrame`, `Snapshot.blockFrame`), and `shows_compact` and `shows_indented`
say so.  What is proved of `Snapshot.Shows` thus holds of both. -/

namespace Dependence

/-- What stands around parts and between them. -/
structure Frame where
  first : List Char
  /-- What ends a frame without parts. -/
  blank : List Char
  /-- What stands before the first part, before each further one, and after the last one. -/
  start : List Char
  next : List Char
  last : List Char

namespace Frame

/-- Further parts and the end. -/
def further (f : Frame) : List (List Char) → List Char
  | [] => f.last
  | part :: parts => f.next ++ part ++ f.further parts

/-- Parts and the end. -/
def inside (f : Frame) : List (List Char) → List Char
  | [] => f.blank
  | part :: parts => f.start ++ part ++ f.further parts

/-- A frame with parts. -/
def around (f : Frame) (parts : List (List Char)) : List Char := f.first ++ f.inside parts

end Frame

namespace Snapshot

/-- The brackets that parts stand in. -/
inductive Bracket
  | tuple
  | record
  | list
  | table
  deriving DecidableEq

/-- The two characters of a bracket. -/
def Bracket.ends : Bracket → Char × Char
  | .tuple => ('(', ')')
  | .record | .table => ('\x7b', '\x7d')
  | .list => ('[', ']')

/-- The frames on one line. -/
def inlineFrame (b : Bracket) : Frame :=
  let gap := if b = .record then [' '] else []
  { first := gap ++ b.ends.1 :: gap
    blank := gap ++ [b.ends.2]
    start := []
    next := [',', ' ']
    last := gap ++ [b.ends.2] }

/-- The frames on many lines at a depth. -/
def blockFrame (depth : Nat) (b : Bracket) : Frame where
  first := (if b = .record then [' '] else []) ++ [b.ends.1]
  blank := [b.ends.2]
  start := '\n' :: margin (depth + 1)
  next := [',', '\n'] ++ margin (depth + 1)
  last := [',', '\n'] ++ margin depth ++ [b.ends.2]

/-- A part with its name. -/
def labelled (inner : Snapshot → List Char) (field : String × Snapshot) : List Char :=
  field.1.toList ++ [':', ' '] ++ inner field.2

/-- A value with its key. -/
def keyed (inner : Snapshot → List Char) (entry : Snapshot × Snapshot) : List Char :=
  inner entry.1 ++ [':', ' '] ++ inner entry.2

/-- The word that a snapshot begins with. -/
def word : Snapshot → List Char
  | .number n => Nat.toDigits 10 n
  | .boolean b => (toString b).toList
  | .verbatim s => s.toList
  | .tuple name _ | .record name _ => name.toList
  | .text _ | .list _ | .table _ => []

/-- What follows the word. -/
def rest (frame : Bracket → Frame) (inner : Snapshot → List Char) : Snapshot → List Char
  | .number _ | .boolean _ | .verbatim _ => []
  | .text s => Text.quote s
  | .tuple _ items => (frame .tuple).around (items.map inner)
  | .record _ fields => (frame .record).around (fields.map (labelled inner))
  | .list items => (frame .list).around (items.map inner)
  | .table entries => (frame .table).around (entries.map (keyed inner))

/-- A way to show snapshots at any depth, with certain frames. -/
def Shows (render : Nat → Snapshot → List Char) (frame : Nat → Bracket → Frame) : Prop :=
  ∀ depth x, render depth x = x.word ++ x.rest (frame depth) (render (depth + 1))

/-! ### On one line -/

theorem further_inlineFrame (b : Bracket) (part : List Char) (parts : List (List Char)) :
    part ++ (inlineFrame b).further parts = inline (part :: parts) ++ (inlineFrame b).last := by
  induction parts generalizing part with
  | nil => rfl
  | cons next parts ih =>
      rw [Frame.further, List.append_assoc, ih]
      simp [inlineFrame, inline, Text.separated]

theorem around_inlineFrame (b : Bracket) (parts : List (List Char)) :
    (inlineFrame b).around parts = (inlineFrame b).first ++ inline parts ++ (inlineFrame b).last := by
  cases parts with
  | nil => simp [Frame.around, Frame.inside, inlineFrame, inline, Text.separated]
  | cons part parts =>
      rw [List.append_assoc, ← further_inlineFrame]
      rfl

theorem compactItems_eq_map (style : Style) (items : List Snapshot) :
    compactItems style items = items.map (compact style) := by
  induction items with
  | nil => rfl
  | cons item items ih => rw [compactItems, ih, List.map_cons]

theorem compactFields_eq_map (style : Style) (fields : List (String × Snapshot)) :
    compactFields style fields = fields.map (labelled (compact style)) := by
  induction fields with
  | nil => rfl
  | cons field fields ih => rw [compactFields, ih, List.map_cons, labelled]

theorem compactEntries_eq_map (style : Style) (entries : List (Snapshot × Snapshot)) :
    compactEntries style entries = entries.map (keyed (compact style)) := by
  induction entries with
  | nil => rfl
  | cons entry entries ih => rw [compactEntries, ih, List.map_cons, keyed]

/-- A style that asks for nothing but the form writes numbers and truth values as they are. -/
theorem number_plain (isSpacious : Bool) (n : Nat) :
    Style.number { isAlternate := isSpacious } n = Nat.toDigits 10 n := by
  simp [Style.number, Style.digits, Style.lead, Style.padded]

theorem boolean_plain (isSpacious b : Bool) :
    Style.boolean { isAlternate := isSpacious } b = (toString b).toList := by
  simp [Style.boolean, Style.padded]

theorem shows_compact :
    Shows (fun _ => compact { isAlternate := false }) (fun _ => inlineFrame) := by
  intro depth x
  cases x with
  | number n => simp [compact, word, rest, number_plain]
  | boolean b => simp [compact, word, rest, boolean_plain]
  | text s => rfl
  | verbatim s => simp [compact, word, rest]
  | tuple name items =>
      simp only [compact, compactItems_eq_map, word, rest, around_inlineFrame]
      simp [inlineFrame, Bracket.ends]
  | record name fields =>
      simp only [compact, compactFields_eq_map, word, rest, around_inlineFrame]
      simp [inlineFrame, Bracket.ends]
  | list items =>
      simp only [compact, compactItems_eq_map, word, rest, around_inlineFrame]
      simp [inlineFrame, Bracket.ends]
  | table entries =>
      simp only [compact, compactEntries_eq_map, word, rest, around_inlineFrame]
      simp [inlineFrame, Bracket.ends]

/-! ### On many lines -/

theorem further_blockFrame (depth : Nat) (b : Bracket) (part : List Char) (parts : List (List Char)) :
    (blockFrame depth b).start ++ part ++ (blockFrame depth b).further parts =
      '\n' :: (part :: parts).flatMap (fun part => margin (depth + 1) ++ part ++ [',', '\n']) ++
        margin depth ++ [b.ends.2] := by
  induction parts generalizing part with
  | nil => simp [Frame.further, blockFrame]
  | cons next parts ih =>
      have hnext : (blockFrame depth b).next = ',' :: (blockFrame depth b).start := rfl
      rw [Frame.further, hnext, List.cons_append, List.cons_append, ih]
      simp [blockFrame]

theorem around_blockFrame (depth : Nat) (b : Bracket) (parts : List (List Char)) :
    (blockFrame depth b).around parts =
      (if b = .record then [' '] else []) ++ block depth b.ends.1 b.ends.2 parts := by
  cases parts with
  | nil => simp [Frame.around, Frame.inside, blockFrame, block]
  | cons part parts =>
      rw [Frame.around, Frame.inside, further_blockFrame]
      simp [block, blockFrame]

theorem indentedItems_eq_map (style : Style) (depth : Nat) (items : List Snapshot) :
    indentedItems style depth items = items.map (indented style depth) := by
  induction items with
  | nil => rfl
  | cons item items ih => rw [indentedItems, ih, List.map_cons]

theorem indentedFields_eq_map (style : Style) (depth : Nat) (fields : List (String × Snapshot)) :
    indentedFields style depth fields = fields.map (labelled (indented style depth)) := by
  induction fields with
  | nil => rfl
  | cons field fields ih => rw [indentedFields, ih, List.map_cons, labelled]

theorem indentedEntries_eq_map (style : Style) (depth : Nat) (entries : List (Snapshot × Snapshot)) :
    indentedEntries style depth entries = entries.map (keyed (indented style depth)) := by
  induction entries with
  | nil => rfl
  | cons entry entries ih => rw [indentedEntries, ih, List.map_cons, keyed]

theorem shows_indented : Shows (indented { isAlternate := true }) blockFrame := by
  intro depth x
  cases x with
  | number n => simp [indented, word, rest, number_plain]
  | boolean b => simp [indented, word, rest, boolean_plain]
  | text s => rfl
  | verbatim s => simp [indented, word, rest]
  | tuple name items => simp [indented, word, rest, around_blockFrame, Bracket.ends, indentedItems_eq_map]
  | record name fields => simp [indented, word, rest, around_blockFrame, Bracket.ends, indentedFields_eq_map]
  | list items => simp [indented, word, rest, around_blockFrame, Bracket.ends, indentedItems_eq_map]
  | table entries => simp [indented, word, rest, around_blockFrame, Bracket.ends, indentedEntries_eq_map]

end Snapshot
end Dependence
