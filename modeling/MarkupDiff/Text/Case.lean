import MarkupDiff.Text.Case.Table

namespace MarkupDiff.Text.Case

-- The row covers the code point `n`.
def Row.covers (r : Row) (n : Nat) : Bool :=
  r.first ≤ n && n ≤ r.last && (n - r.first) % r.step == 0

-- The lower-case form of one character, where that is one character.
def lowerChar (c : Char) : Char :=
  if c.toNat < 128 then c.toLower
  else match rows.find? (·.covers c.toNat) with
    | some r => Char.ofNat (Int.toNat (c.toNat + r.shift))
    | none => c

-- The ranges hold the character.
def inRanges (ranges : List (Nat × Nat)) (c : Char) : Bool :=
  ranges.any fun r => r.1 ≤ c.toNat && c.toNat ≤ r.2

def isTransparent (c : Char) : Bool :=
  inRanges transparentRanges c

def isCased (c : Char) : Bool :=
  inRanges casedRanges c

-- The nearest character that is not transparent exists and has a case.
def meetsCased (cs : List Char) : Bool :=
  match cs.dropWhile isTransparent with
  | [] => false
  | c :: _ => isCased c

-- Lower case from left to right; `before` holds what stands in front, nearest character first.
-- A sigma that ends a word takes its final form, and a dotted capital I keeps its dot as a
-- combining mark.
def lowerFrom (before : List Char) : List Char → List Char
  | [] => []
  | c :: cs =>
    let here :=
      if c == 'Σ' then (if meetsCased before && !meetsCased cs then ['ς'] else ['σ'])
      else if c == 'İ' then ['i', '\u0307']
      else [lowerChar c]
    here ++ lowerFrom (c :: before) cs

-- The lower-case form of a text.
def lower (cs : List Char) : List Char :=
  lowerFrom [] cs

end MarkupDiff.Text.Case

namespace MarkupDiff

-- The lower-case form of a string.
def lowered (s : String) : String :=
  .ofList (Text.Case.lower s.toList)

end MarkupDiff
