import MarkupDiff.Markup.Reference
import MarkupDiff.Markup.Token
import MarkupDiff.Text.Case

namespace MarkupDiff.Markup.Tag

open Text (isBlank)

-- A character that goes on the name of a tag.
def isNameChar (c : Char) : Bool :=
  !(c == '\t' || c == '\n' || c == '\r' || c == '\x0c' || c == ' ' || c == '/' || c == '>' ||
    c == '\x00')

-- A character that goes on the name of an attribute.
def isAttrChar (c : Char) : Bool :=
  !(isBlank c || c == '/' || c == '=' || c == '>')

-- A character of a value without quotes.
def isBareChar (c : Char) : Bool :=
  !(isBlank c || c == '>')

def isQuote (c : Char) : Bool :=
  c == '\'' || c == '"'

-- Passes over blanks and slashes, except a slash that closes the tag.
def skipGaps : List Char → List Char
  | [] => []
  | '/' :: '>' :: cs => '/' :: '>' :: cs
  | c :: cs => if isBlank c || c == '/' then skipGaps cs else c :: cs

-- The last character before `rest`, where `before` is the one before `cs`.
def lastBefore (before : Char) (cs rest : List Char) : Char :=
  (Text.consumed cs rest).getLast?.getD before

-- An attribute can begin after this character.
def opensAttr (c : Char) : Bool :=
  isQuote c || isBlank c || c == '/'

-- The value of an attribute after its name, and what follows it. A value that opens a quote and
-- never closes it is no quoted value: it is empty if a blank stands before the quote, begins with
-- the last of several equals signs, and otherwise is none at all.
def value (cs : List Char) : Option (List Char) × List Char :=
  let atSign := cs.dropWhile isBlank
  let signs := atSign.takeWhile (· == '=')
  if signs.isEmpty then (none, cs)
  else
    let afterSigns := atSign.dropWhile (· == '=')
    let start := afterSigns.dropWhile isBlank
    match start with
    | [] => (some [], [])
    | c :: r =>
      if isQuote c then
        match Text.splitAtChar? c r with
        | some (text, rest) => (some text, rest)
        | none =>
          let blanks := afterSigns.takeWhile isBlank
          if !blanks.isEmpty then (some [], blanks.drop (blanks.length - 1) ++ start)
          else if 2 ≤ signs.length then (some ('=' :: start.takeWhile isBareChar), start.dropWhile isBareChar)
          else (none, cs)
      else (some (start.takeWhile isBareChar), start.dropWhile isBareChar)

theorem length_skipGaps_le (cs : List Char) : (skipGaps cs).length ≤ cs.length := by
  fun_induction skipGaps cs with
  | case1 => simp
  | case2 => simp
  | case3 c cs _ _ ih => simp only [List.length_cons]; omega
  | case4 => simp

theorem length_value_le (cs : List Char) : (value cs).2.length ≤ cs.length := by
  have h1 := Text.length_dropWhile_le isBlank cs
  have h2 := Text.length_dropWhile_le (· == '=') (cs.dropWhile isBlank)
  have h3 := Text.length_dropWhile_le isBlank ((cs.dropWhile isBlank).dropWhile (· == '='))
  unfold value
  simp only
  split
  · simp
  · generalize hs : ((cs.dropWhile isBlank).dropWhile (· == '=')).dropWhile isBlank = start at h3
    have hbare := Text.length_dropWhile_le isBareChar start
    split
    · simp
    · rename_i c r
      split
      · split
        · rename_i text rest ht
          have := Text.length_splitAtChar? ht
          simp only [List.length_cons] at h3
          simp only
          omega
        · split
          · have hw := congrArg List.length (List.takeWhile_append_dropWhile (p := isBlank)
              (l := (cs.dropWhile isBlank).dropWhile (· == '=')))
            simp only [List.length_append, hs] at hw
            simp only [List.length_append, List.length_drop]
            omega
          · split
            · simp only
              omega
            · simp
      · simp only
        omega

-- Attributes with their values, from a place after the character `before`, and what follows them.
def attrs (before : Char) (cs : List Char) :
    List (List Char × Option (List Char)) × List Char :=
  match cs with
  | [] => ([], [])
  | c :: r =>
    if opensAttr before && !(isBlank c || c == '/' || c == '>') then
      let name := c :: r.takeWhile isAttrChar
      let v := value (r.dropWhile isAttrChar)
      let rest := skipGaps v.2
      have : rest.length < (c :: r).length := by
        have h1 := Text.length_dropWhile_le isAttrChar r
        have h2 := length_value_le (r.dropWhile isAttrChar)
        have h3 := length_skipGaps_le (value (r.dropWhile isAttrChar)).2
        simp only [List.length_cons, rest, v]
        omega
      let (more, finish) := attrs (lastBefore before (c :: r) rest) rest
      ((Text.Case.lower name, v.1.map Reference.resolved) :: more, finish)
    else ([], c :: r)
termination_by cs.length
decreasing_by exact this

-- What a text after an opening angle bracket turns out to be.
inductive Reading
  -- a piece of markup and what follows it
  | token (t : Token) (rest : List Char)
  -- its end is missing
  | incomplete
  deriving DecidableEq

-- A start tag whose name begins with the first of these characters. Where neither its end nor an
-- attribute can be read, all that has been read is text.
def startTag (cs : List Char) : Reading :=
  let name := cs.takeWhile isNameChar
  let afterName := cs.dropWhile isNameChar
  let afterGaps := skipGaps afterName
  let before := lastBefore ' ' cs afterGaps
  let (as, finish) := attrs before afterGaps
  match finish with
  | [] => .incomplete
  | '>' :: rest => .token (.startTag (Text.Case.lower name) as) rest
  | '/' :: '>' :: rest => .token (.closedTag (Text.Case.lower name) as) rest
  | c :: rest =>
    if Reference.isLetter c || c == '=' || c == '/' then .incomplete
    else .token (.data ('<' :: Text.consumed cs (c :: rest))) (c :: rest)

theorem length_attrs_le (before : Char) (cs : List Char) :
    (attrs before cs).2.length ≤ cs.length := by
  fun_induction attrs before cs with
  | case1 => simp
  | case2 before c r _ name v rest hlt more finish hm ih =>
    rw [hm] at ih
    simp only at ih ⊢
    omega
  | case3 => simp

theorem length_startTag {cs rest : List Char} {t : Token} (h : startTag cs = .token t rest) :
    rest.length ≤ cs.length := by
  have h1 := Text.length_dropWhile_le isNameChar cs
  have h2 := length_skipGaps_le (cs.dropWhile isNameChar)
  have h3 := length_attrs_le (lastBefore ' ' cs (skipGaps (cs.dropWhile isNameChar)))
    (skipGaps (cs.dropWhile isNameChar))
  unfold startTag at h
  simp only at h
  split at h
  · simp at h
  · rename_i hf
    simp only [Reading.token.injEq] at h
    rw [hf] at h3
    simp only [List.length_cons] at h3
    rw [← h.2]
    omega
  · rename_i hf
    simp only [Reading.token.injEq] at h
    rw [hf] at h3
    simp only [List.length_cons] at h3
    rw [← h.2]
    omega
  · rename_i hf
    split at h
    · simp at h
    · simp only [Reading.token.injEq] at h
      rw [hf] at h3
      rw [← h.2]
      omega

end MarkupDiff.Markup.Tag
