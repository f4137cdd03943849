/-!
# Binary floating point

The finite numbers `± m * 2 ^ q` of the 64-bit binary format: `m` has at most 53 bits and `q` is at
least -1074. All arithmetic is exact arithmetic on natural numbers, followed by one rounding.

* `nearest` rounds a quotient to the nearest number of the format, a tie to an even significand.
* `scale` multiplies by a power of ten in the way of a table of rounded powers: one rounding for the
  power, one for the product or the quotient.
* `shortest` finds the shortest decimal that rounds to a number: it tries ever finer decimal grids
  and takes the first grid with a point near enough, and there the point that is nearest.
* `text` writes that decimal, in positional notation unless the number is very great or very small.
-/

namespace Dependence

/-- A finite number `± significand * 2 ^ exponent`. -/
structure Binary64 where
  isNegative : Bool
  significand : Nat
  exponent : Int
  deriving DecidableEq

namespace Binary64

/-- The quotient of two natural numbers rounded to the nearest one, a tie to an even one. -/
def divideEven (n d : Nat) : Nat :=
  let q := n / d
  let r := n % d
  if 2 * r < d then q
  else if d < 2 * r then q + 1
  else q + q % 2

/-- The quotient `n / d / 2 ^ q` as a fraction of natural numbers. -/
def shifted (n d : Nat) (q : Int) : Nat × Nat :=
  (n * Nat.pow 2 (-q).toNat, d * Nat.pow 2 q.toNat)

/-- The first natural number that is too great for a significand. -/
def bound : Nat := 9007199254740992

/-- The significand and exponent nearest to `n / d`; none if it lies beyond the greatest number of
the format. -/
def nearest (n d : Nat) : Option (Nat × Int) :=
  if n = 0 then some (0, 0)
  else
    let low : Int := max (-1074) ((n.log2 : Int) - d.log2 - 53)
    let wide := shifted n d low
    let q := if bound ≤ wide.1 / wide.2 then low + 1 else low
    let fraction := shifted n d q
    let m := divideEven fraction.1 fraction.2
    let (m, q) := if m = bound then (bound / 2, q + 1) else (m, q)
    if 971 < q then none else some (m, q)

/-- The product of a number with a power of ten that is at most `10 ^ 308`. -/
def timesPower (x : Nat × Int) (k : Nat) : Option (Nat × Int) := do
  let power ← nearest (Nat.pow 10 k) 1
  let fraction := shifted (x.1 * power.1) 1 (-(x.2 + power.2))
  nearest fraction.1 fraction.2

/-- The quotient of a number by a power of ten that is at most `10 ^ 308`. -/
def overPower (x : Nat × Int) (k : Nat) : Option (Nat × Int) := do
  let power ← nearest (Nat.pow 10 k) 1
  let fraction := shifted x.1 power.1 (-(x.2 - power.2))
  nearest fraction.1 fraction.2

/-- The number `n * 10 ^ k`, where `n` is below `2 ^ 64`. Below `10 ^ -308` the quotient is taken in
two steps, and two steps of `10 ^ 308` leave nothing of `n`. None, if it is too great. -/
def scale (n : Nat) (k : Int) : Option (Nat × Int) := do
  let x ← nearest n 1
  if x.1 = 0 then some x
  else if 308 < k then none
  else if 0 ≤ k then timesPower x k.toNat
  else if -308 ≤ k then overPower x (-k).toNat
  else if -616 ≤ k then do
    let y ← overPower x 308
    overPower y (-k - 308).toNat
  else some (0, 0)

/-- The number with a sign and a decimal significand and exponent. -/
def ofDecimal? (isNegative : Bool) (n : Nat) (k : Int) : Option Binary64 :=
  (scale n k).map fun (m, q) => ⟨isNegative, m, q⟩

/-! ### Shortest decimals -/

/-- The point of the grid of multiples of `10 ^ k` that is nearest to `m * 2 ^ q`, if it lies among
the numbers that round to `m * 2 ^ q`. Of two points equally near the even one is preferred.
Distances are counted in quarters of `2 ^ q`. -/
def gridPoint (m : Nat) (q k : Int) : Option Nat :=
  let a := Nat.pow 10 k.toNat * Nat.pow 2 (2 - q).toNat
  let b := Nat.pow 10 (-k).toNat * Nat.pow 2 (q - 2).toNat
  let low := if m = bound / 2 ∧ -1074 < q then 4 * m - 1 else 4 * m - 2
  let high := 4 * m + 2
  let fits (c : Nat) : Bool :=
    if m % 2 = 0 then low * b ≤ c * a ∧ c * a ≤ high * b else low * b < c * a ∧ c * a < high * b
  let below := 4 * m * b / a
  let down := 4 * m * b - below * a
  let up := (below + 1) * a - 4 * m * b
  let nearer :=
    if up < down || (up = down && below % 2 = 1) then [below + 1, below] else [below, below + 1]
  nearer.find? fits

/-- The first grid among `10 ^ k`, `10 ^ (k - 1)`, … with a point that fits. -/
def search (m : Nat) (q : Int) : Nat → Int → Nat × Int
  | 0, k => (0, k)
  | fuel + 1, k =>
    match gridPoint m q k with
    | some c => (c, k)
    | none => search m q fuel (k - 1)

/-- The digits and the exponent of the shortest decimal that rounds to a number. The grids that can
matter lie between `10 ^ 308` and `10 ^ -324`. -/
def shortest (x : Binary64) : Nat × Int :=
  if x.significand = 0 then (0, 0) else search x.significand x.exponent 633 308

/-! ### Texts -/

/-- The decimal `c * 10 ^ k` in positional notation with at least one digit on either side of the
point. -/
def positional (c : Nat) (k : Int) : List Char :=
  let digits := Nat.toDigits 10 c
  if 0 ≤ k then digits ++ List.replicate k.toNat '0' ++ ['.', '0']
  else
    let places := (-k).toNat
    let padded := List.replicate (places + 1 - digits.length) '0' ++ digits
    padded.take (padded.length - places) ++ '.' :: padded.drop (padded.length - places)

/-- The power of ten that the first digit of `c * 10 ^ k` counts. -/
def order (c : Nat) (k : Int) : Int := k + (Nat.toDigits 10 c).length - 1

/-- The decimal `c * 10 ^ k` in scientific notation. The point follows the first digit, unless it is
the only one, and the exponent has its sign. -/
def scientific (c : Nat) (k : Int) : List Char :=
  let digits := Nat.toDigits 10 c
  let exponent := order c k
  digits.take 1 ++ (if digits.length = 1 then [] else '.' :: digits.drop 1) ++
    ['e', if exponent < 0 then '-' else '+'] ++ Nat.toDigits 10 exponent.natAbs

/-- A number with the fewest digits that tell it from all others: in positional notation from
`10 ^ -5` on and below `10 ^ 16`, and in scientific notation otherwise. -/
def text (x : Binary64) : List Char :=
  let (c, k) := x.shortest
  (if x.isNegative then ['-'] else []) ++
    (if -5 ≤ order c k ∧ order c k < 16 then positional c k else scientific c k)

end Binary64

end Dependence
