import Dependence.Json.Scan

/-!
# Numerals

The numbers of JSON as they are written: a sign, digits, and perhaps a point with digits and an
exponent. `Numeral.scan` reads one, `Numeral.number?` says which number it means.

A numeral means an integer if it has neither point nor exponent and its digits fit into 64 bits.
Any other numeral means a floating-point number. It is found from the leading digits that fit into
64 bits and a power of ten, with a rounding at every step; so the number found need not be the
nearest one for a numeral of very many digits.
-/

namespace Dependence

/-- A number as it is written. -/
structure Numeral where
  isNegative : Bool
  whole : List Char
  fraction : Option (List Char) := none
  exponent : Option Int := none
  deriving DecidableEq

namespace Numeral

/-! ### Reading -/

/-- Reads at least one digit. -/
def digits : Scan (List Char) := fun s =>
  match s with
  | [] => .error .truncated
  | c :: _ =>
    if c.isDigit then .ok (s.takeWhile Char.isDigit, s.dropWhile Char.isDigit)
    else .error .malformed

/-- Reads the digits before the point, of which the first may be zero only if it is the last. -/
def wholePart : Scan (List Char) := fun s =>
  match s with
  | '0' :: c :: s => if c.isDigit then .error .malformed else .ok (['0'], c :: s)
  | s => digits s

/-- Reads a point with the digits after it, if there is one. -/
def fractionPart : Scan (Option (List Char)) := fun s =>
  match s with
  | '.' :: s => do
    let (ds, s) ← digits s
    .ok (some ds, s)
  | s => .ok (none, s)

/-- The number that a row of digits means. -/
def valueOf (ds : List Char) : Nat := Nat.ofDigitChars 10 ds 0

/-- Reads an exponent, if there is one. -/
def exponentPart : Scan (Option Int) := fun s =>
  match s with
  | c :: s =>
    if c = 'e' || c = 'E' then
      match s with
      | '-' :: s => do
        let (ds, s) ← digits s
        .ok (some (-(valueOf ds : Int)), s)
      | '+' :: s => do
        let (ds, s) ← digits s
        .ok (some (valueOf ds : Int), s)
      | s => do
        let (ds, s) ← digits s
        .ok (some (valueOf ds : Int), s)
    else .ok (none, c :: s)
  | [] => .ok (none, [])

/-- Reads a sign, if there is one. -/
def sign : List Char → Bool × List Char
  | '-' :: s => (true, s)
  | s => (false, s)

/-- Reads a numeral. -/
def scan : Scan Numeral := fun s => do
  let (isNegative, s) := sign s
  let (whole, s) ← wholePart s
  let (fraction, s) ← fractionPart s
  let (exponent, s) ← exponentPart s
  .ok ({ isNegative, whole, fraction, exponent }, s)

/-! ### Meaning -/

/-- Appends digits to a number as long as the result fits into 64 bits. Yields the digits left. -/
def absorb (n : Nat) : List Char → Nat × List Char
  | [] => (n, [])
  | d :: ds =>
    let next := 10 * n + (d.toNat - '0'.toNat)
    if next < UInt64.size then absorb next ds else (n, d :: ds)

/-- The leading digits of a numeral as a number, and the power of ten to multiply it with. -/
def decimal (n : Numeral) : Nat × Int :=
  let (m, rest) := absorb 0 n.whole
  let (m, rest') := absorb m (n.fraction.getD [])
  (m, (rest.length : Int) - ((n.fraction.getD []).length - rest'.length : Nat) + n.exponent.getD 0)

/-- The integer that a numeral means, if it means one: it is written as an integer, fits into 64
bits, and is not `-0`. -/
def integer? (n : Numeral) : Option Int :=
  if n.fraction.isSome || n.exponent.isSome then none
  else
    let m := valueOf n.whole
    if n.isNegative then if 0 < m ∧ 2 * m ≤ UInt64.size then some (-(m : Int)) else none
    else if m < UInt64.size then some m
    else none

/-- The number that a numeral means; none, if it is too great. -/
def number? (n : Numeral) : Option Number :=
  match n.integer? with
  | some i => some (.integer i)
  | none => (Binary64.ofDecimal? n.isNegative n.decimal.1 n.decimal.2).map .real

end Numeral

/-- Reads a number. One that is too great is against the rules. -/
def Number.scan : Scan Number := fun s => do
  let (n, s) ← Numeral.scan s
  match n.number? with
  | some x => .ok (x, s)
  | none => .error .malformed

/-- Reads over a number without asking what it means. A number that the text cuts short is against
the rules then. -/
def Numeral.skip : Scan Unit := fun s =>
  match Numeral.scan s with
  | .ok (_, s) => .ok ((), s)
  | .error _ => .error .malformed

end Dependence
