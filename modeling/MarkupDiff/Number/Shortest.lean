import MarkupDiff.Number.Basic

namespace MarkupDiff.Binary

-- A positive decimal number: `digits` as an integer, times 10 ^ `scale`.
structure Decimal where
  digits : Nat
  scale : Int
  deriving DecidableEq, Repr

-- The interval of the reals that are read back as mantissa * 2 ^ exponent, with its value, all
-- as numerators over one denominator. The ends belong to it when the mantissa is even.
structure Interval where
  low : Nat
  value : Nat
  high : Nat
  den : Nat
  closed : Bool

-- Below a power of two the neighbours are twice as dense as above it.
def interval (mantissa : Nat) (exponent : Int) : Interval :=
  let quarter := if mantissa == twoTo 52 && (-1074 : Int) < exponent then 1 else 2
  let up := twoTo exponent.toNat
  let down := twoTo (-exponent).toNat
  { low := (4 * mantissa - quarter) * up
    value := 4 * mantissa * up
    high := (4 * mantissa + 2) * up
    den := 4 * down
    closed := mantissa % 2 == 0 }

-- The decimal lies in the interval.
def Interval.holds (i : Interval) (d : Decimal) : Bool :=
  let n := d.digits * tenTo d.scale.toNat * i.den
  let p := tenTo (-d.scale).toNat
  if i.closed then i.low * p ≤ n && n ≤ i.high * p else i.low * p < n && n < i.high * p

-- The two neighbours of the value among the multiples of 10 ^ scale.
def Interval.neighbours (i : Interval) (scale : Int) : Decimal × Decimal :=
  let n := i.value * tenTo (-scale).toNat
  let d := i.den * tenTo scale.toNat
  let q := n / d
  (⟨q, scale⟩, ⟨q + 1, scale⟩)

-- Of the two neighbours on one grid the one that is read back; of two the nearer, of two equally
-- near the even one.
def Interval.onGrid (i : Interval) (scale : Int) : Option Decimal :=
  let (below, above) := i.neighbours scale
  match i.holds below, i.holds above with
  | true, false => some below
  | false, true => some above
  | false, false => none
  | true, true =>
    let n := i.value * tenTo (-scale).toNat
    let d := i.den * tenTo scale.toNat
    let r := n % d
    if 2 * r < d || (2 * r == d && below.digits % 2 == 0) then some below else some above

-- The number of decimal digits of a positive integer.
def decimalLength (n : Nat) : Nat :=
  (Nat.toDigits 10 n).length

-- The scale of the leading decimal digit of num / den, or one more.
def leadingScale (num den : Nat) : Int :=
  if den ≤ num then (decimalLength (num / den) : Int) - 1
  else -(decimalLength (den / num) : Int)

-- The first grid with a hit, from the coarsest to the finest of `steps` grids.
def Interval.firstHit (i : Interval) (scale : Int) : Nat → Option Decimal
  | 0 => none
  | steps + 1 =>
    match i.onGrid scale with
    | some d => if d.digits == 0 then i.firstHit (scale - 1) steps else some d
    | none => i.firstHit (scale - 1) steps

-- The decimal of fewest digits that is read back as mantissa * 2 ^ exponent, and of those the
-- nearest.
def shortest (mantissa : Nat) (exponent : Int) : Decimal :=
  let i := interval mantissa exponent
  (i.firstHit (leadingScale i.value i.den + 1) 20).getD ⟨0, 0⟩

end MarkupDiff.Binary
