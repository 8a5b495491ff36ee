namespace MarkupDiff.Text

-- The characters that separate words in running text, in any script.
def isBlank (c : Char) : Bool :=
  let n := c.toNat
  (9 ≤ n && n ≤ 13) || (28 ≤ n && n ≤ 32) || n == 0x85 || n == 0xA0 || n == 0x1680 ||
    (0x2000 ≤ n && n ≤ 0x200A) || n == 0x2028 || n == 0x2029 || n == 0x202F || n == 0x205F ||
    n == 0x3000

-- The blanks that carry no meaning in markup. Every other blank, such as the no-break space,
-- is content.
def isMarkupBlank (c : Char) : Bool :=
  c == ' ' || c == '\t' || c == '\n' || c == '\r' || c == '\x0c'

-- A blank of markup is a blank.
theorem isBlank_of_isMarkupBlank {c : Char} (h : isMarkupBlank c = true) : isBlank c = true := by
  simp only [isMarkupBlank, Bool.or_eq_true, beq_iff_eq] at h
  rcases h with (((rfl | rfl) | rfl) | rfl) | rfl <;> rfl

-- The text without the blanks at its two ends.
def strip (cs : List Char) : List Char :=
  ((cs.dropWhile isBlank).reverse.dropWhile isBlank).reverse

-- The longest runs of characters that are not blank, in order.
def words : List Char → List (List Char)
  | [] => []
  | c :: cs =>
    if isBlank c then words cs
    else match cs with
      | [] => [[c]]
      | d :: _ =>
        if isBlank d then [c] :: words cs
        else match words cs with
          | [] => [[c]]
          | w :: ws => (c :: w) :: ws

end MarkupDiff.Text

namespace MarkupDiff

-- `Text.strip` on strings.
def stripped (s : String) : String :=
  .ofList (Text.strip s.toList)

-- The words of a string.
def wordsOf (s : String) : List String :=
  (Text.words s.toList).map .ofList

end MarkupDiff
