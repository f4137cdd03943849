/-!
# Styles

How numbers, truth values and words are fitted into a given width, and in which notation numbers are
written. Zeros for padding go between the sign and the digits, and then neither the filling
character nor the alignment counts; they are for numbers only.
-/

namespace Dependence

/-- At which side a text stands that is narrower than its width. -/
inductive Alignment
  | left
  | center
  | right
  deriving DecidableEq

/-- The base in which a number is written, and the case of its digits. -/
inductive Radix
  | decimal
  | lowerHex
  | upperHex
  deriving DecidableEq

/-- How values are shown. `isAlternate` asks for the spacious form: a prefix on hexadecimal numbers,
and one line for each part of a composite value. -/
structure Style where
  fill : Char := ' '
  alignment : Option Alignment := none
  showsPlus : Bool := false
  isAlternate : Bool := false
  padsWithZeros : Bool := false
  width : Nat := 0
  precision : Option Nat := none
  radix : Radix := .decimal
  deriving DecidableEq

namespace Style

/-- Fills a text up to a width. In the middle, the smaller half of the filling stands on the left. -/
def padded (fill : Char) (width : Nat) (alignment : Alignment) (t : List Char) : List Char :=
  let gap := width - t.length
  match alignment with
  | .left => t ++ List.replicate gap fill
  | .right => List.replicate gap fill ++ t
  | .center => List.replicate (gap / 2) fill ++ t ++ List.replicate (gap - gap / 2) fill

/-- The digits of a number. -/
def digits (style : Style) (n : Nat) : List Char :=
  match style.radix with
  | .decimal => Nat.toDigits 10 n
  | .lowerHex => Nat.toDigits 16 n
  | .upperHex => (Nat.toDigits 16 n).map Char.toUpper

/-- What stands before the digits of a number. -/
def lead (style : Style) : List Char :=
  (if style.showsPlus then ['+'] else []) ++
    (if style.isAlternate && style.radix ≠ .decimal then ['0', 'x'] else [])

/-- A number. It stands at the right unless the style says otherwise. -/
def number (style : Style) (n : Nat) : List Char :=
  let ds := style.digits n
  if style.padsWithZeros then
    style.lead ++ List.replicate (style.width - (style.lead.length + ds.length)) '0' ++ ds
  else padded style.fill style.width (style.alignment.getD .right) (style.lead ++ ds)

/-- A truth value. It is cut to the precision, and stands at the left unless the style says
otherwise. -/
def boolean (style : Style) (b : Bool) : List Char :=
  let t := (toString b).toList
  let cut := match style.precision with
    | some n => t.take n
    | none => t
  padded style.fill style.width (style.alignment.getD .left) cut

end Style

end Dependence
