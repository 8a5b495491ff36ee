import MarkupDiff.Fault
import MarkupDiff.Markup.Tag

namespace MarkupDiff.Markup.Construct

open Text (isBlank)
open Tag (Reading)

-- The end of a comment: two dashes, blanks and a closing angle bracket.
def afterCommentEnd : List Char → Option (List Char)
  | '-' :: '-' :: cs => Text.afterBlanksAndChar '>' cs
  | _ => none

-- The end of a section marked with a keyword for documents.
def afterDoubleBracket : List Char → Option (List Char)
  | ']' :: cs => (Text.afterBlanksAndChar ']' cs).bind (Text.afterBlanksAndChar '>')
  | _ => none

-- The end of a section marked with a condition.
def afterBracket : List Char → Option (List Char)
  | ']' :: cs => Text.afterBlanksAndChar '>' cs
  | _ => none

-- A token made of the text before an ending.
def upTo (make : List Char → Token) (split : Option (List Char × List Char)) : Reading :=
  match split with
  | some (text, rest) => .token (make text) rest
  | none => .incomplete

-- Everything up to the next closing angle bracket as a comment.
def bogusComment (cs : List Char) : Reading :=
  upTo .comment (Text.splitAtChar? '>' cs)

-- A character that goes on the name of an end tag in its strict form.
def isEndNameChar (c : Char) : Bool :=
  Reference.isNameChar c || c == ':' || c == '_'

-- The name of an end tag, if its inside is just a name with blanks around it.
def strictEndName? (inside : List Char) : Option (List Char) :=
  let cs := inside.dropWhile isBlank
  let name := cs.takeWhile isEndNameChar
  match name with
  | [] => none
  | c :: _ =>
    if Reference.isLetter c && (cs.dropWhile isEndNameChar).all isBlank then
      some (Text.Case.lower name)
    else none

-- What an end tag says by what stands inside it: the end of an element if it begins with a letter
-- or is a name with blanks around it, nothing if it is empty, and otherwise a comment.
def endTagTokens (inside : List Char) : List Token :=
  match strictEndName? inside, inside with
  | some name, _ => [.endTag name]
  | none, [] => []
  | none, c :: _ =>
    if Reference.isLetter c then [.endTag (Text.Case.lower (inside.takeWhile Tag.isNameChar))]
    else [.comment inside]

-- A character that goes on a keyword.
def isKeywordChar (c : Char) : Bool :=
  Reference.isNameChar c || c == '_'

-- The keywords of marked sections that end with two brackets.
def sectionKeywords : List String := ["temp", "cdata", "ignore", "include", "rcdata"]

-- The keywords of marked sections that end with one bracket.
def conditionKeywords : List String := ["if", "else", "endif"]

-- A marked section, from its keyword on.
def markedSection (cs : List Char) : Except Problem Reading :=
  match cs with
  | [] => .ok .incomplete
  | c :: _ =>
    if !Reference.isLetter c then
      .error (.missingKeyword (.ofList (('<' :: '!' :: '[' :: cs).take 20)))
    else
      let keyword := cs.takeWhile isKeywordChar
      let rest := cs.dropWhile isKeywordChar
      if rest.all isBlank then .ok .incomplete
      else
        let name := String.ofList (keyword.map Char.toLower)
        if sectionKeywords.contains name then
          .ok (upTo .declaration (Text.splitAt? afterDoubleBracket cs))
        else if conditionKeywords.contains name then
          .ok (upTo .declaration (Text.splitAt? afterBracket cs))
        else .error (.unknownKeyword (.ofList (keyword ++ rest.takeWhile isBlank)))

-- The document type keyword, in any case, stands at the beginning.
def beginsDoctype (cs : List Char) : Bool :=
  (cs.take 7).map Char.toLower == "doctype".toList

-- What follows an opening angle bracket and an exclamation mark.
def declaration (cs : List Char) : Except Problem Reading :=
  match cs with
  | '-' :: '-' :: r => .ok (upTo .comment (Text.splitAt? afterCommentEnd r))
  | '[' :: r => markedSection r
  | cs =>
    if beginsDoctype cs then
      .ok (upTo (fun text => .doctype (text.drop 1)) (Text.splitAtChar? '>' (cs.drop 7)))
    else .ok (bogusComment cs)

theorem length_afterCommentEnd (cs rest : List Char) (h : afterCommentEnd cs = some rest) :
    rest.length < cs.length := by
  unfold afterCommentEnd at h
  split at h
  · have := Text.length_afterBlanksAndChar h
    simp only [List.length_cons]
    omega
  · simp at h

theorem length_afterBracket (cs rest : List Char) (h : afterBracket cs = some rest) :
    rest.length < cs.length := by
  unfold afterBracket at h
  split at h
  · have := Text.length_afterBlanksAndChar h
    simp only [List.length_cons]
    omega
  · simp at h

theorem length_afterDoubleBracket (cs rest : List Char) (h : afterDoubleBracket cs = some rest) :
    rest.length < cs.length := by
  unfold afterDoubleBracket at h
  split at h
  · obtain ⟨r, hr, hrest⟩ := Option.bind_eq_some_iff.mp h
    have h1 := Text.length_afterBlanksAndChar hr
    have h2 := Text.length_afterBlanksAndChar hrest
    simp only [List.length_cons]
    omega
  · simp at h

theorem length_upTo {make : List Char → Token} {split : Option (List Char × List Char)} {n : Nat}
    (hsplit : ∀ before rest, split = some (before, rest) → rest.length ≤ n) {t : Token}
    {rest : List Char} (h : upTo make split = .token t rest) : rest.length ≤ n := by
  unfold upTo at h
  split at h
  · simp only [Reading.token.injEq] at h
    exact h.2 ▸ hsplit _ _ rfl
  · simp at h

theorem length_bogusComment {cs rest : List Char} {t : Token}
    (h : bogusComment cs = .token t rest) : rest.length ≤ cs.length :=
  length_upTo (fun _ _ hs => Nat.le_of_lt (Text.length_splitAtChar? hs)) h

theorem length_markedSection {cs rest : List Char} {t : Token}
    (h : markedSection cs = .ok (.token t rest)) : rest.length ≤ cs.length := by
  unfold markedSection at h
  split at h
  · simp at h
  · split at h
    · simp at h
    · simp only at h
      split at h
      · simp at h
      · split at h
        · exact length_upTo (fun _ _ hs => Nat.le_of_lt
            (Text.length_splitAt? length_afterDoubleBracket hs)) (Except.ok.inj h)
        · split at h
          · exact length_upTo (fun _ _ hs => Nat.le_of_lt
              (Text.length_splitAt? length_afterBracket hs)) (Except.ok.inj h)
          · simp at h

theorem length_declaration {cs rest : List Char} {t : Token}
    (h : declaration cs = .ok (.token t rest)) : rest.length ≤ cs.length := by
  unfold declaration at h
  split at h
  · have := length_upTo (fun _ _ hs => Nat.le_of_lt
      (Text.length_splitAt? length_afterCommentEnd hs)) (Except.ok.inj h)
    simp only [List.length_cons]
    omega
  · have := length_markedSection h
    simp only [List.length_cons]
    omega
  · split at h
    · have := length_upTo (fun _ _ hs => Nat.le_of_lt (Text.length_splitAtChar? hs))
        (Except.ok.inj h)
      simp only [List.length_drop] at this
      omega
    · exact length_bogusComment (Except.ok.inj h)

end MarkupDiff.Markup.Construct
