import MarkupDiff.Markup.Reference.Table
import MarkupDiff.Number.Text
import MarkupDiff.Text.Search

namespace MarkupDiff.Markup.Reference

-- The text of a name, in running text or with its semicolon.
def textOf? (name : List Char) : Option (List Char) :=
  names.lookup (.ofList name)

-- The text of a name that stands without a semicolon.
def bareTextOf? (name : List Char) : Option (List Char) :=
  bareNames.lookup (.ofList name)

-- What the numbers from 0x80 to 0x9F stand for: the characters that an old encoding of Western
-- texts has in their places. Places that it leaves free stand for themselves.
def western : List Nat :=
  [0x20AC, 0x81, 0x201A, 0x0192, 0x201E, 0x2026, 0x2020, 0x2021,
   0x02C6, 0x2030, 0x0160, 0x2039, 0x0152, 0x8D, 0x017D, 0x8F,
   0x90, 0x2018, 0x2019, 0x201C, 0x201D, 0x2022, 0x2013, 0x2014,
   0x02DC, 0x2122, 0x0161, 0x203A, 0x0153, 0x9D, 0x017E, 0x0178]

-- The number is that of no character.
def isNoCharacter (n : Nat) : Bool :=
  (0xD800 ≤ n && n ≤ 0xDFFF) || 0x10FFFF < n

-- The character of a number in running text: zero, like the number of no character, stands for the
-- replacement character.
def ofNumber (n : Nat) : Char :=
  if n == 0 || isNoCharacter n then '\uFFFD'
  else if 0x80 ≤ n && n ≤ 0x9F then Char.ofNat (western.getD (n - 0x80) n)
  else Char.ofNat n

-- The number is that of a character that attribute values leave out.
def isLeftOut (n : Nat) : Bool :=
  (1 ≤ n && n ≤ 8) || n == 0x0B || (0x0E ≤ n && n ≤ 0x1F) || n == 0x7F ||
    (0xFDD0 ≤ n && n ≤ 0xFDEF) || (n % 0x10000 == 0xFFFE || n % 0x10000 == 0xFFFF)

-- The text of a number in an attribute value.
def valueOfNumber (n : Nat) : List Char :=
  if !isNoCharacter n && isLeftOut n then [] else [ofNumber n]

def isHexDigit (c : Char) : Bool :=
  ('0' ≤ c && c ≤ '9') || ('a' ≤ c && c ≤ 'f') || ('A' ≤ c && c ≤ 'F')

-- The number that hexadecimal digits write.
def hexNumber (cs : List Char) : Nat :=
  cs.foldl (fun n c =>
    16 * n + (if c ≤ '9' then c.toNat - 48 else if c ≤ 'F' then c.toNat - 55 else c.toNat - 87)) 0

-- A number after `&#` and what follows its digits: decimal digits, or an x and hexadecimal ones.
def number? (cs : List Char) : Option (Nat × List Char) :=
  let ds := cs.takeWhile Char.isDigit
  if !ds.isEmpty then some (Binary.digitsValue ds, cs.dropWhile Char.isDigit)
  else match cs with
    | [] => none
    | c :: r =>
      let hs := r.takeWhile isHexDigit
      if (c == 'x' || c == 'X') && !hs.isEmpty then some (hexNumber hs, r.dropWhile isHexDigit)
      else none

-- The text without a semicolon at its beginning.
def skipSemicolon (cs : List Char) : List Char :=
  match cs with
  | ';' :: r => r
  | r => r

def isLetter (c : Char) : Bool :=
  ('a' ≤ c && c ≤ 'z') || ('A' ≤ c && c ≤ 'Z')

-- A character that goes on a name in running text.
def isNameChar (c : Char) : Bool :=
  isLetter c || ('0' ≤ c && c ≤ '9') || c == '-' || c == '.'

-- The text up to the last character that can end a name at the end of a text, and from there on.
def splitAtLastMark? (cs : List Char) : Option (List Char × List Char) :=
  let tail := cs.reverse.takeWhile fun c => c != '-' && c != '.'
  let n := cs.length - tail.length
  if n == 0 then none else some (cs.take (n - 1), cs.drop (n - 1))

-- A name after an ampersand and what follows it. Something has to follow: at the end of the text
-- a name gives back what it needs.
def name? (cs : List Char) : Option (List Char × List Char) :=
  match cs with
  | [] => none
  | c :: _ =>
    if isLetter c then
      let run := cs.takeWhile isNameChar
      match cs.dropWhile isNameChar with
      | [] => splitAtLastMark? run
      | rest => some (run, rest)
    else none

-- A number after `&#` in running text: something that is no hexadecimal digit has to follow.
def numberInText? (cs : List Char) : Option (Nat × List Char) :=
  match number? cs with
  | some (n, c :: r) => if isHexDigit c then none else some (n, c :: r)
  | _ => none

-- A character of a name in an attribute value.
def isValueNameChar (c : Char) : Bool :=
  !(c == '\t' || c == '\n' || c == '\x0c' || c == ' ' || c == '<' || c == '&' || c == '#' ||
    c == ';')

-- The longest part of a name, from its beginning and of two characters or more, that is known
-- without a semicolon. `length` bounds it.
def longestBare? (name : List Char) : Nat → Option (List Char × List Char)
  | 0 => none
  | 1 => none
  | length + 1 =>
    match bareTextOf? (name.take (length + 1)) with
    | some text => some (text, name.drop (length + 1))
    | none => longestBare? name length

-- The text of a name in an attribute value, where `closed` says that a semicolon follows. A name
-- that is not known as a whole may begin with one that is.
def valueOfName (name : List Char) (closed : Bool) : List Char :=
  let semicolon := if closed then [';'] else []
  match if closed then textOf? name else bareTextOf? name with
  | some text => text
  | none =>
    match longestBare? name (if closed then name.length else name.length - 1) with
    | some (text, more) => text ++ more ++ semicolon
    | none => '&' :: name ++ semicolon

-- A reference in an attribute value, after its ampersand: its text and what follows it.
def inValue? (cs : List Char) : Option (List Char × List Char) :=
  match cs with
  | '#' :: r => (number? r).map fun (n, rest) => (valueOfNumber n, skipSemicolon rest)
  | cs =>
    let name := (cs.takeWhile isValueNameChar).take 32
    if name.isEmpty then none
    else
      let rest := cs.drop name.length
      some (valueOfName name (rest.head? == some ';'), skipSemicolon rest)

theorem length_skipSemicolon_le (cs : List Char) : (skipSemicolon cs).length ≤ cs.length := by
  unfold skipSemicolon
  split <;> simp

theorem length_number? {cs rest : List Char} {n : Nat} (h : number? cs = some (n, rest)) :
    rest.length ≤ cs.length := by
  unfold number? at h
  simp only at h
  split at h
  · simp only [Option.some.injEq, Prod.mk.injEq] at h
    exact h.2 ▸ Text.length_dropWhile_le _ cs
  · split at h
    · simp at h
    · rename_i _ c r _
      simp only [Option.ite_none_right_eq_some, Option.some.injEq, Prod.mk.injEq] at h
      have := Text.length_dropWhile_le isHexDigit r
      simp only [List.length_cons, ← h.2.2]
      omega

theorem length_numberInText? {cs rest : List Char} {n : Nat}
    (h : numberInText? cs = some (n, rest)) : rest.length ≤ cs.length := by
  unfold numberInText? at h
  split at h
  · rename_i m c r hm
    simp only [Option.ite_none_left_eq_some, Option.some.injEq, Prod.mk.injEq] at h
    exact h.2.2 ▸ length_number? hm
  · simp at h

theorem length_name? {cs name rest : List Char} (h : name? cs = some (name, rest)) :
    rest.length ≤ cs.length := by
  unfold name? at h
  split at h
  · simp at h
  · rename_i c r
    split at h
    · simp only at h
      split at h
      · unfold splitAtLastMark? at h
        simp only [Option.ite_none_left_eq_some, Option.some.injEq, Prod.mk.injEq] at h
        obtain ⟨_, _, rfl⟩ := h
        have := (List.takeWhile_prefix isNameChar (l := c :: r)).length_le
        simp only [List.length_drop]
        omega
      · simp only [Option.some.injEq, Prod.mk.injEq] at h
        exact h.2 ▸ Text.length_dropWhile_le _ _
    · simp at h

theorem length_inValue? {cs text rest : List Char} (h : inValue? cs = some (text, rest)) :
    rest.length ≤ cs.length := by
  unfold inValue? at h
  split at h
  · rename_i r
    simp only [Option.map_eq_some_iff, Prod.mk.injEq, Prod.exists] at h
    obtain ⟨n, more, hn, _, rfl⟩ := h
    have h1 := length_skipSemicolon_le more
    have h2 := length_number? hn
    simp only [List.length_cons]
    omega
  · simp only [Option.ite_none_left_eq_some, Option.some.injEq, Prod.mk.injEq] at h
    obtain ⟨_, _, rfl⟩ := h
    have := length_skipSemicolon_le (cs.drop ((cs.takeWhile isValueNameChar).take 32).length)
    simp only [List.length_drop] at this
    omega

-- An attribute value with its references replaced.
def resolved (cs : List Char) : List Char :=
  match cs with
  | [] => []
  | '&' :: r =>
    match h : inValue? r with
    | some (text, rest) =>
      have := length_inValue? h
      text ++ resolved rest
    | none => '&' :: resolved r
  | c :: r => c :: resolved r
termination_by cs.length

end MarkupDiff.Markup.Reference
