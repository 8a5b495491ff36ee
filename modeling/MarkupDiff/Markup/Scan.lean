import MarkupDiff.Markup.Construct

namespace MarkupDiff.Markup.Scan

open Text (isBlank)
open Tag (Reading)

-- How the text is read: as markup, or as the raw text of an element up to its end tag.
inductive Mode
  | markup
  | raw (element : List Char)
  deriving DecidableEq

-- What one step of reading gives: tokens and what follows them, or the end of the reading with
-- what is left, or a refusal.
inductive Step
  | next (tokens : List Token) (mode : Mode) (rest : List Char)
  | stop (tokens : List Token) (rest : List Char)
  | refused (problem : Problem)

-- Elements whose content is raw text.
def rawElements : List String := ["script", "style"]

-- The way to read on after a token.
def modeAfter : Token → Mode
  | .startTag name _ => if rawElements.contains (.ofList name) then .raw name else .markup
  | _ => .markup

-- What is made text when a construct that begins with an opening angle bracket has no end: up to
-- the next closing bracket and with it, or up to the next opening one, or the bracket alone.
def looseText (cs : List Char) : List Char × List Char :=
  match Text.splitAtChar? '>' cs with
  | some (before, rest) => ('<' :: before ++ ['>'], rest)
  | none =>
    if cs.contains '<' then ('<' :: cs.takeWhile (· != '<'), cs.dropWhile (· != '<'))
    else (['<'], cs)

-- Goes on after a construct. A construct without an end stops the first reading and is text in
-- the last one.
def afterConstruct (last : Bool) (cs : List Char) : Reading → Step
  | .token t rest => .next [t] (modeAfter t) rest
  | .incomplete =>
    if last then
      let (text, rest) := looseText cs
      .next [.data text] .markup rest
    else .stop [] ('<' :: cs)

-- An end tag, after its slash.
def endTag (last : Bool) (cs : List Char) : Step :=
  match Text.splitAtChar? '>' cs with
  | some (inside, rest) => .next (Construct.endTagTokens inside) .markup rest
  | none => afterConstruct last ('/' :: cs) .incomplete

-- A step at an opening angle bracket, from what follows it.
def atBracket (last : Bool) (cs : List Char) : Step :=
  match cs with
  | [] => .stop [] ['<']
  | '/' :: r => endTag last r
  | '?' :: r => afterConstruct last cs (Construct.upTo .instruction (Text.splitAtChar? '>' r))
  | '!' :: r =>
    match Construct.declaration r with
    | .ok reading => afterConstruct last cs reading
    | .error problem => .refused problem
  | c :: _ =>
    if Reference.isLetter c then afterConstruct last cs (Tag.startTag cs)
    else .next [.data ['<']] .markup cs

-- A step at an ampersand, from what follows it. A reference that cannot be read stops the
-- reading, unless nothing in it looks like one.
def atAmpersand (last : Bool) (cs : List Char) : Step :=
  match cs with
  | [] => .stop [] ['&']
  | '#' :: r =>
    match Reference.numberInText? r with
    | some (n, rest) => .next [.data [Reference.ofNumber n]] .markup (Reference.skipSemicolon rest)
    | none => if r.contains ';' then .stop [.data ['&', '#']] r else .stop [] ('&' :: cs)
  | c :: r =>
    match Reference.name? cs with
    | some (name, rest) =>
      .next [.data ((Reference.textOf? name).getD ('&' :: name))] .markup
        (Reference.skipSemicolon rest)
    | none =>
      if Reference.isLetter c then
        if last && r.isEmpty then .stop [] cs else .stop [] ('&' :: cs)
      else .next [.data ['&']] .markup cs

-- A letter of the name of a raw element, in either case; two letters have a third form.
def matchesLetter (x c : Char) : Bool :=
  c.toLower == x || (x == 's' && c == 'ſ') || (x == 'i' && (c == 'ı' || c == 'İ'))

-- The rest after the name of a raw element.
def afterRawName : List Char → List Char → Option (List Char)
  | [], cs => some cs
  | x :: xs, c :: cs => if matchesLetter x c then afterRawName xs cs else none
  | _ :: _, [] => none

-- Something like the end tag of a raw element begins here. The whole text is what is left, since
-- it is read again.
def atRawEnd? (element cs : List Char) : Option (List Char) :=
  match cs with
  | '<' :: '/' :: r =>
    match (afterRawName element (r.dropWhile isBlank)).bind (Text.afterBlanksAndChar '>') with
    | some _ => some r
    | none => none
  | _ => none

-- A step in raw text: everything up to an end tag, and the end tag if it is that of the element.
-- Raw text that never ends is lost.
def inRaw (element cs : List Char) : Step :=
  match Text.splitAt? (atRawEnd? element) cs with
  | none => .stop [] cs
  | some (before, r) =>
    let text := if before.isEmpty then [] else [.data before]
    match Text.splitAtChar? '>' r with
    | none => .stop text r
    | some (inside, rest) =>
      match Construct.strictEndName? inside with
      | some name =>
        if name == element then .next (text ++ [.endTag name]) .markup rest
        else .next (text ++ [.data ('<' :: '/' :: inside ++ ['>'])]) (.raw element) rest
      | none => .next (text ++ [.data ('<' :: '/' :: inside ++ ['>'])]) (.raw element) rest

-- A character of running text.
def isPlain (c : Char) : Bool :=
  c != '<' && c != '&'

-- One step of reading at the text from `c` on.
def step (last : Bool) (mode : Mode) (c : Char) (cs : List Char) : Step :=
  match mode with
  | .raw element => inRaw element (c :: cs)
  | .markup =>
    if c == '<' then atBracket last cs
    else if c == '&' then atAmpersand last cs
    else .next [.data (c :: cs.takeWhile isPlain)] .markup (cs.dropWhile isPlain)

-- What a reading has given.
structure Result where
  tokens : List Token
  mode : Mode
  rest : List Char

theorem length_atRawEnd? {element : List Char} (cs rest : List Char)
    (h : atRawEnd? element cs = some rest) : rest.length < cs.length := by
  unfold atRawEnd? at h
  split at h
  · split at h
    · simp only [Option.some.injEq] at h
      subst h
      simp only [List.length_cons]
      omega
    · simp at h
  · simp at h

theorem length_looseText_le (cs : List Char) : (looseText cs).2.length ≤ cs.length := by
  unfold looseText
  split
  · rename_i before rest h
    exact Nat.le_of_lt (Text.length_splitAtChar? h)
  · split
    · exact Text.length_dropWhile_le _ cs
    · simp

theorem length_afterConstruct {last : Bool} {cs rest : List Char} {reading : Reading}
    {ts : List Token} {m : Mode}
    (hreading : ∀ t r, reading = .token t r → r.length ≤ cs.length)
    (h : afterConstruct last cs reading = .next ts m rest) : rest.length ≤ cs.length := by
  unfold afterConstruct at h
  split at h
  · rename_i t r
    simp only [Step.next.injEq] at h
    exact h.2.2 ▸ hreading _ _ rfl
  · split at h
    · simp only [Step.next.injEq] at h
      exact h.2.2 ▸ length_looseText_le cs
    · simp at h

theorem length_endTag {last : Bool} {cs rest : List Char} {ts : List Token} {m : Mode}
    (h : endTag last cs = .next ts m rest) : rest.length ≤ cs.length + 1 := by
  unfold endTag at h
  split at h
  · rename_i inside r hr
    have := Text.length_splitAtChar? hr
    simp only [Step.next.injEq] at h
    rw [← h.2.2]
    omega
  · exact length_afterConstruct (by simp) h

theorem length_atBracket {last : Bool} {cs rest : List Char} {ts : List Token} {m : Mode}
    (h : atBracket last cs = .next ts m rest) : rest.length ≤ cs.length := by
  unfold atBracket at h
  split at h
  · simp at h
  · exact length_endTag h
  · refine length_afterConstruct (fun t r hr => ?_) h
    have := Construct.length_upTo (fun _ _ hs => Nat.le_of_lt (Text.length_splitAtChar? hs)) hr
    simp only [List.length_cons]
    omega
  · split at h
    · rename_i hd
      refine length_afterConstruct (fun t r hr => ?_) h
      have := Construct.length_declaration (hr ▸ hd)
      simp only [List.length_cons]
      omega
    · simp at h
  · split at h
    · exact length_afterConstruct (fun t r hr => Tag.length_startTag hr) h
    · simp only [Step.next.injEq] at h
      exact h.2.2 ▸ Nat.le_refl _

theorem length_atAmpersand {last : Bool} {cs rest : List Char} {ts : List Token} {m : Mode}
    (h : atAmpersand last cs = .next ts m rest) : rest.length ≤ cs.length := by
  unfold atAmpersand at h
  split at h
  · simp at h
  · split at h
    · rename_i n r hn
      simp only [Step.next.injEq] at h
      have h1 := Reference.length_numberInText? hn
      have h2 := Reference.length_skipSemicolon_le r
      rw [← h.2.2]
      simp only [List.length_cons]
      omega
    · split at h <;> simp at h
  · split at h
    · rename_i name r hn
      simp only [Step.next.injEq] at h
      have h1 := Reference.length_name? hn
      have h2 := Reference.length_skipSemicolon_le r
      rw [← h.2.2]
      omega
    · split at h
      · split at h <;> simp at h
      · simp only [Step.next.injEq] at h
        exact h.2.2 ▸ Nat.le_refl _

theorem length_inRaw {element cs rest : List Char} {ts : List Token} {m : Mode}
    (h : inRaw element cs = .next ts m rest) : rest.length < cs.length := by
  unfold inRaw at h
  split at h
  · simp at h
  · rename_i before r hr
    have h1 := Text.length_splitAt? length_atRawEnd? hr
    simp only at h
    split at h
    · simp at h
    · rename_i inside more hm
      have h2 := Text.length_splitAtChar? hm
      have hrest : rest = more := by
        split at h
        · split at h <;> simp only [Step.next.injEq] at h <;> exact h.2.2.symm
        · simp only [Step.next.injEq] at h
          exact h.2.2.symm
      rw [hrest]
      omega

-- Every step but the last leaves less to read.
theorem length_step {last : Bool} {mode m : Mode} {c : Char} {cs rest : List Char}
    {ts : List Token} (h : step last mode c cs = .next ts m rest) :
    rest.length < (c :: cs).length := by
  simp only [List.length_cons]
  unfold step at h
  split at h
  · simpa using length_inRaw h
  · split at h
    · have := length_atBracket h
      omega
    · split at h
      · have := length_atAmpersand h
        omega
      · simp only [Step.next.injEq] at h
        have := Text.length_dropWhile_le isPlain cs
        rw [← h.2.2]
        omega

-- Reads as far as it goes. What cannot be read yet is left; the last reading leaves only what
-- cannot be read at all.
def run (last : Bool) (mode : Mode) (cs : List Char) : Except Problem Result :=
  match cs with
  | [] => .ok ⟨[], mode, []⟩
  | c :: cs =>
    match h : step last mode c cs with
    | .refused problem => .error problem
    | .stop ts rest => .ok ⟨ts, mode, rest⟩
    | .next ts m rest =>
      have := length_step h
      match run last m rest with
      | .error problem => .error problem
      | .ok r => .ok ⟨ts ++ r.tokens, r.mode, r.rest⟩
termination_by cs.length
decreasing_by exact this

-- What the last reading leaves is text, unless it is raw.
def leftOver (r : Result) : List Token :=
  match r.mode, r.rest with
  | .markup, c :: cs => [.data (c :: cs)]
  | _, _ => []

end MarkupDiff.Markup.Scan

namespace MarkupDiff.Markup

-- The tokens of a text: those of a first reading, which leaves what seems to lack its end, and
-- those of a last one, which takes it as it is.
def tokens (cs : List Char) : Except Problem (List Token) := do
  let first ← Scan.run false .markup cs
  let last ← Scan.run true first.mode first.rest
  return first.tokens ++ last.tokens ++ Scan.leftOver last

end MarkupDiff.Markup
