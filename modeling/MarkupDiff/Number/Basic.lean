namespace MarkupDiff

-- A floating-point number in base two: a sign with mantissa * 2 ^ exponent, an infinity, or an
-- undefined result. Undefined results are told apart by where they occur.
inductive Binary
  | finite (negative : Bool) (mantissa : Nat) (exponent : Int)
  | infinite (negative : Bool)
  | undefined (occurrence : Nat)
  deriving DecidableEq, Repr, Inhabited

inductive Number
  | int (n : Int)
  | binary (x : Binary)
  deriving DecidableEq, Repr, Inhabited

-- The size of a number, without the way it is written.
inductive Magnitude
  | rational (q : Rat)
  | infinite (negative : Bool)
  | undefined (occurrence : Nat)
  deriving DecidableEq

namespace Binary

def twoTo (n : Nat) : Nat := Nat.pow 2 n

def tenTo (n : Nat) : Nat := Nat.pow 10 n

-- The exact value of sign, mantissa and exponent.
def exact (negative : Bool) (mantissa : Nat) (exponent : Int) : Rat :=
  let m : Int := if negative then -mantissa else mantissa
  if 0 ≤ exponent then Rat.ofInt (m * twoTo exponent.toNat) else mkRat m (twoTo (-exponent).toNat)

def magnitude : Binary → Magnitude
  | finite s m e => .rational (exact s m e)
  | infinite s => .infinite s
  | undefined k => .undefined k

-- Numerator over denominator to the nearest integer, a half to the even neighbour.
def roundedQuotient (num den : Nat) : Nat :=
  let q := num / den
  let r := num % den
  if den < 2 * r || (2 * r == den && q % 2 == 1) then q + 1 else q

-- Numerator and denominator of (num / den) / 2 ^ e.
def unscaled (num den : Nat) (e : Int) : Nat × Nat :=
  if 0 ≤ e then (num, den * twoTo e.toNat) else (num * twoTo (-e).toNat, den)

-- The exponent at which num / den has 53 binary digits, never below the least exponent.
def exponentFor (num den : Nat) : Int :=
  let guess : Int := (Nat.log2 num : Int) - Nat.log2 den - 53
  let (n, d) := unscaled num den guess
  max (-1074) (if twoTo 53 ≤ n / d then guess + 1 else guess)

-- The floating-point number nearest to num / den, which is infinite beyond the largest one.
def nearest (negative : Bool) (num den : Nat) : Binary :=
  if num == 0 || den == 0 then finite negative 0 0
  else
    let e := exponentFor num den
    let (n, d) := unscaled num den e
    let m := roundedQuotient n d
    let (m, e) := if m == twoTo 53 then (twoTo 52, e + 1) else (m, e)
    if 971 < e then infinite negative else finite negative m e

-- The floating-point number nearest to a rational; zero takes the given sign.
def ofRat (zeroNegative : Bool) (q : Rat) : Binary :=
  if q.num == 0 then finite zeroNegative 0 0 else nearest (q.num < 0) q.num.natAbs q.den

-- The sum, rounded to the nearest floating-point number.
def add : Binary → Binary → Binary
  | undefined k, _ => undefined k
  | _, undefined k => undefined k
  | infinite s, infinite t => if s == t then infinite s else undefined 0
  | infinite s, _ => infinite s
  | _, infinite s => infinite s
  | finite s m e, finite t n f => ofRat (s && t) (exact s m e + exact t n f)

end Binary

namespace Number

def magnitude : Number → Magnitude
  | int n => .rational n
  | binary x => x.magnitude

def toBinary : Number → Binary
  | int n => Binary.ofRat false n
  | binary x => x

def add : Number → Number → Number
  | int a, int b => int (a + b)
  | a, b => binary (a.toBinary.add b.toBinary)

-- The first number is smaller. Nothing is smaller or larger than an undefined result.
def precedes (a b : Number) : Bool :=
  match a.magnitude, b.magnitude with
  | .rational p, .rational q => p < q
  | .infinite s, .infinite t => s && !t
  | .infinite s, .rational _ => s
  | .rational _, .infinite t => !t
  | _, _ => false

end Number

end MarkupDiff
