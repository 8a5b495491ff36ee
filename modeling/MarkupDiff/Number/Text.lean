import MarkupDiff.Number.Shortest

namespace MarkupDiff

namespace Binary

-- How a floating-point number is written.
structure Style where
  -- the least and the first too large scale of the leading digit for positional notation
  positionalFrom : Int
  positionalTo : Int
  -- the least number of digits of an exponent
  exponentWidth : Nat

-- Positional from 0.0001 up to below 10 ^ 16, otherwise an exponent of two digits or more.
def style : Style :=
  ⟨-4, 16, 2⟩

def padded (width : Nat) (n : Nat) : List Char :=
  let ds := Nat.toDigits 10 n
  List.replicate (width - ds.length) '0' ++ ds

-- Trailing zeros move from the digits to the scale.
def Decimal.digitList (d : Decimal) : List Char :=
  let ds := ((Nat.toDigits 10 d.digits).reverse.dropWhile (· == '0')).reverse
  if ds.isEmpty then ['0'] else ds

-- A positive decimal in the given style.
def Decimal.written (st : Style) (d : Decimal) : List Char :=
  let ds := d.digitList
  let lead : Int := ((Nat.toDigits 10 d.digits).length : Int) - 1 + d.scale
  if st.positionalFrom ≤ lead && lead < st.positionalTo then
    if lead < 0 then '0' :: '.' :: List.replicate (-lead - 1).toNat '0' ++ ds
    else
      let whole := lead.toNat + 1
      let left := ds.take whole ++ List.replicate (whole - ds.length) '0'
      let right := ds.drop whole
      left ++ '.' :: (if right.isEmpty then ['0'] else right)
  else
    let left := ds.take 1
    let right := ds.drop 1
    left ++ (if right.isEmpty then [] else '.' :: right) ++
      'e' :: (if lead < 0 then '-' else '+') :: padded st.exponentWidth lead.natAbs

def signed (negative : Bool) (cs : List Char) : List Char :=
  if negative then '-' :: cs else cs

-- The shortest text that reads back.
def written : Binary → List Char
  | finite s 0 _ => signed s ['0', '.', '0']
  | finite s m e => signed s ((shortest m e).written style)
  | infinite s => signed s ['i', 'n', 'f']
  | undefined _ => ['n', 'a', 'n']

-- The value of a run of decimal digits.
def digitsValue (cs : List Char) : Nat :=
  cs.foldl (fun n c => 10 * n + (c.toNat - 48)) 0

-- The floating-point number nearest to digits * 10 ^ scale. A scale far outside the range of the
-- format is decided without computing the power.
def ofDecimal (negative : Bool) (digits : Nat) (scale : Int) : Binary :=
  let lead := (decimalLength digits : Int) + scale
  if digits == 0 then finite negative 0 0
  else if 400 < lead then infinite negative
  else if lead < -400 then finite negative 0 0
  else if 0 ≤ scale then nearest negative (digits * tenTo scale.toNat) 1
  else nearest negative digits (tenTo (-scale).toNat)

-- An optional sign and the rest.
def takeSign : List Char → Bool × List Char
  | '-' :: cs => (true, cs)
  | '+' :: cs => (false, cs)
  | cs => (false, cs)

-- The exponent part of a number: nothing, or a mark, a sign and digits up to the end.
def readExponent : List Char → Option Int
  | [] => some 0
  | c :: cs =>
    if c == 'e' || c == 'E' then
      let (s, ds) := takeSign cs
      if ds.isEmpty || ds.any (!·.isDigit) then none
      else
        let n : Int := digitsValue ds
        some (if s then -n else n)
    else none

-- Digits with an optional fraction and an optional exponent.
def readUnsigned (negative : Bool) (cs : List Char) : Option Binary :=
  let whole := cs.takeWhile Char.isDigit
  let rest := cs.dropWhile Char.isDigit
  let (fraction, rest) := match rest with
    | '.' :: r => (r.takeWhile Char.isDigit, r.dropWhile Char.isDigit)
    | r => ([], r)
  if whole.isEmpty && fraction.isEmpty then none
  else (readExponent rest).map fun e =>
    ofDecimal negative (digitsValue (whole ++ fraction)) (e - fraction.length)

-- Reads a floating-point literal; `occurrence` tells an undefined result from the others.
def ofText? (occurrence : Nat) (s : String) : Option Binary :=
  let (negative, cs) := takeSign s.toList
  let name := String.ofList (cs.map Char.toLower)
  if name == "inf" || name == "infinity" then some (infinite negative)
  else if name == "nan" then some (undefined occurrence)
  else readUnsigned negative cs

end Binary

-- The text of a number.
def Number.written : Number → List Char
  | .int n => (toString n).toList
  | .binary x => x.written

end MarkupDiff
