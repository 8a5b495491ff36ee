import MarkupDiff.Text.Quoted.Table

namespace MarkupDiff.Text.Quoted

-- A lower-case hexadecimal digit.
def hexDigit (n : Nat) : Char :=
  if n < 10 then Char.ofNat (48 + n) else Char.ofNat (87 + n)

-- The `width` low hexadecimal digits of a number, the highest first.
def hexDigits : Nat → Nat → List Char
  | 0, _ => []
  | width + 1, n => hexDigits width (n / 16) ++ [hexDigit (n % 16)]

-- A quoted text shows this character by its number.
def isHidden (c : Char) : Bool :=
  hiddenRanges.any fun r => r.1 ≤ c.toNat && c.toNat ≤ r.2

-- The number of a hidden character, in the shortest of the three widths that holds it.
def numbered (c : Char) : List Char :=
  let n := c.toNat
  if n < 0x100 then '\\' :: 'x' :: hexDigits 2 n
  else if n < 0x10000 then '\\' :: 'u' :: hexDigits 4 n
  else '\\' :: 'U' :: hexDigits 8 n

-- What a text quoted with `quote` shows for one character.
def shown (quote c : Char) : List Char :=
  if c == quote || c == '\\' then ['\\', c]
  else if c == '\n' then ['\\', 'n']
  else if c == '\r' then ['\\', 'r']
  else if c == '\t' then ['\\', 't']
  else if isHidden c then numbered c
  else [c]

-- Single quotes, unless the text holds one and no double quote.
def quoteFor (cs : List Char) : Char :=
  if cs.contains '\'' && !cs.contains '"' then '"' else '\''

-- A text between quotes, readable on one line.
def quoted (cs : List Char) : List Char :=
  let quote := quoteFor cs
  quote :: cs.flatMap (shown quote) ++ [quote]

-- What quoted bytes show for one byte: as for a character, and everything beyond the printable
-- ASCII range by its number.
def shownByte (quote : Char) (b : UInt8) : List Char :=
  let c := Char.ofNat b.toNat
  if b < 32 || 127 ≤ b then
    if c == '\n' || c == '\r' || c == '\t' then shown quote c
    else '\\' :: 'x' :: hexDigits 2 b.toNat
  else shown quote c

-- Bytes between quotes, marked by a leading `b`.
def quotedBytes (bs : List UInt8) : List Char :=
  let quote := quoteFor (bs.map fun b => Char.ofNat b.toNat)
  'b' :: quote :: bs.flatMap (shownByte quote) ++ [quote]

end MarkupDiff.Text.Quoted

namespace MarkupDiff

-- A string between quotes.
def quoted (s : String) : String :=
  .ofList (Text.Quoted.quoted s.toList)

end MarkupDiff
