import MarkupDiff.Proofs.Markup.Asides
import MarkupDiff.Proofs.Markup.Reading
import MarkupDiff.Proofs.Markup.Tags

namespace MarkupDiff.Markup

namespace Builder

-- Text goes on, if there is any.
def extend (b : Builder) (text : List Char) : Builder :=
  if text.isEmpty then b else b.push text

@[simp] theorem extend_nil (b : Builder) : b.extend [] = b := rfl

theorem extend_append (b : Builder) (text more : List Char) :
    b.extend (text ++ more) = (b.extend text).extend more := by
  cases text with
  | nil => rfl
  | cons c cs =>
    cases more with
    | nil => simp
    | cons d ds => simp [extend, push]

@[simp] theorem opened_extend (b : Builder) (text : List Char) :
    (b.extend text).opened = b.opened := by
  cases text <;> rfl

@[simp] theorem closed_extend (b : Builder) (text : List Char) :
    (b.extend text).closed = b.closed := by
  cases text <;> rfl

@[simp] theorem pending_extend (b : Builder) (text : List Char) :
    (b.extend text).pending.getD [] = b.pending.getD [] ++ text := by
  cases text with
  | nil => simp
  | cons c cs => rfl

end Builder

namespace Scan

-- The first reading, with its tokens taken as they come: the document so far, the way to read on
-- and what is left.
def fed (b : Builder) (mode : Mode) (cs : List Char) :
    Except Problem (Builder × Mode × List Char) :=
  (run false mode cs).map fun r => (r.tokens.foldl Builder.token b, r.mode, r.rest)

@[simp] theorem fed_nil (b : Builder) (mode : Mode) : fed b mode [] = .ok (b, mode, []) := by
  simp [fed, Except.map]

theorem fed_next {b : Builder} {mode m : Mode} {c : Char} {cs rest : List Char} {ts : List Token}
    (h : step false mode c cs = .next ts m rest) :
    fed b mode (c :: cs) = fed (ts.foldl Builder.token b) m rest := by
  simp only [fed, run_cons, h]
  cases run false m rest with
  | error problem => rfl
  | ok r => simp [Except.map, List.foldl_append]

-- Running text is taken character by character.
theorem fed_plain (b : Builder) {c : Char} (hc : isPlain c = true) (cs : List Char) :
    fed b .markup (c :: cs) = fed (b.extend [c]) .markup cs := by
  have hstep : ∀ {d : Char} (ds : List Char), isPlain d = true → step false .markup d ds =
      .next [.data (d :: ds.takeWhile isPlain)] .markup (ds.dropWhile isPlain) := by
    intro d ds hd
    simp only [isPlain, Bool.and_eq_true, bne_iff_ne] at hd
    simp [step, hd]
  rw [fed_next (hstep cs hc)]
  cases cs with
  | nil => rfl
  | cons d ds =>
    by_cases hd : isPlain d = true
    · rw [fed_next (hstep ds hd)]
      simp [hd, Builder.token, Builder.extend, Builder.push]
    · simp [hd, Builder.token, Builder.extend]

theorem fed_escapedChar (b : Builder) (c : Char) (rest : List Char) :
    fed b .markup (escapedChar c ++ rest) = fed (b.extend [c]) .markup rest := by
  unfold escapedChar
  split
  · have hstep : step false .markup '&' ("amp;".toList ++ rest) =
        .next [.data ['&']] .markup rest := rfl
    exact fed_next hstep
  · have hstep : step false .markup '&' ("lt;".toList ++ rest) = .next [.data ['<']] .markup rest :=
      rfl
    exact fed_next hstep
  · have hstep : step false .markup '&' ("gt;".toList ++ rest) = .next [.data ['>']] .markup rest :=
      rfl
    exact fed_next hstep
  · rename_i hamp hless _
    have hplain : isPlain c = true := by
      simp only [isPlain, Bool.and_eq_true, bne_iff_ne]
      exact ⟨hless, hamp⟩
    exact fed_plain b hplain rest

-- Text is read back from a spelling of its characters one by one.
theorem fed_flatMap {f : Char → List Char}
    (hf : ∀ b c rest, fed b .markup (f c ++ rest) = fed (b.extend [c]) .markup rest) (b : Builder)
    (text rest : List Char) :
    fed b .markup (text.flatMap f ++ rest) = fed (b.extend text) .markup rest := by
  induction text generalizing b with
  | nil => rfl
  | cons c text ih =>
    rw [List.flatMap_cons, List.append_assoc, hf, ih, ← Builder.extend_append,
      List.singleton_append]

theorem fed_escaped (b : Builder) (text rest : List Char) :
    fed b .markup (text.flatMap escapedChar ++ rest) = fed (b.extend text) .markup rest :=
  fed_flatMap fed_escapedChar b text rest

theorem atBracket_of_isLetter {last : Bool} {c : Char} {cs : List Char}
    (hc : Reference.isLetter c = true) :
    atBracket last (c :: cs) = afterConstruct last (c :: cs) (Tag.startTag (c :: cs)) := by
  unfold atBracket
  split
  · rename_i heq
    cases heq
  · rename_i heq
    obtain ⟨rfl, _⟩ := List.cons.inj heq
    exact absurd hc (by decide)
  · rename_i heq
    obtain ⟨rfl, _⟩ := List.cons.inj heq
    exact absurd hc (by decide)
  · rename_i heq
    obtain ⟨rfl, _⟩ := List.cons.inj heq
    exact absurd hc (by decide)
  · rename_i heq
    obtain ⟨rfl, _⟩ := List.cons.inj heq
    rw [if_pos hc]

-- A construct that begins with a letter is taken as the token that it is.
theorem fed_tag (b : Builder) {name cs rest : List Char} {t : Token} (hname : Tag.IsName name)
    (h : Tag.startTag (name ++ cs) = .token t rest) :
    fed b .markup ('<' :: (name ++ cs)) = fed (b.token t) (modeAfter t) rest := by
  obtain ⟨c, hc, hletter⟩ := hname.head
  cases name with
  | nil => cases hc
  | cons d name =>
    obtain rfl := Option.some.inj hc
    have hstep : step false .markup '<' (d :: name ++ cs) = .next [t] (modeAfter t) rest := by
      have hread : atBracket false (d :: (name ++ cs)) =
          afterConstruct false (d :: (name ++ cs)) (Tag.startTag (d :: (name ++ cs))) :=
        atBracket_of_isLetter hletter
      rw [← List.cons_append, h] at hread
      exact hread
    exact fed_next hstep

theorem fed_startTag (b : Builder) {name : List Char} {as : List (String × String)}
    {spell : String × String → List Char} (hname : Tag.IsName name)
    (hspells : ∀ a ∈ as, Tag.Spells a (spell a)) (rest : List Char) :
    fed b .markup ('<' :: (name ++ (as.flatMap spell ++ '>' :: rest))) =
      fed (b.token (.startTag name (as.map fun a => (a.1.toList, some a.2.toList))))
        (if rawElements.contains (.ofList name) then .raw name else .markup) rest :=
  fed_tag b hname (Tag.startTag_spelling hname hspells rest)

theorem fed_closedTag (b : Builder) {name : List Char} {as : List (String × String)}
    {spell : String × String → List Char} (hname : Tag.IsName name)
    (hspells : ∀ a ∈ as, Tag.Spells a (spell a)) (rest : List Char) :
    fed b .markup ('<' :: (name ++ (as.flatMap spell ++ '/' :: '>' :: rest))) =
      fed (b.token (.closedTag name (as.map fun a => (a.1.toList, some a.2.toList)))) .markup
        rest :=
  fed_tag b hname (Tag.closedTag_spelling hname hspells rest)

theorem fed_endTag (b : Builder) {name : List Char} (hbracket : '>' ∉ name)
    (hname : Construct.endTagTokens name = [.endTag name]) (rest : List Char) :
    fed b .markup ('<' :: '/' :: (name ++ '>' :: rest)) =
      fed (b.token (.endTag name)) .markup rest := by
  have hstep : step false .markup '<' ('/' :: (name ++ '>' :: rest)) =
      .next [.endTag name] .markup rest := by
    change endTag false (name ++ '>' :: rest) = _
    rw [endTag, Text.splitAtChar?_append hbracket]
    simp only [hname]
  exact fed_next hstep

theorem fed_declaration (b : Builder) {cs rest : List Char} {t : Token}
    (h : Construct.declaration cs = .ok (.token t rest)) (hmode : modeAfter t = .markup) :
    fed b .markup ('<' :: '!' :: cs) = fed (b.token t) .markup rest := by
  have hstep : step false .markup '<' ('!' :: cs) = .next [t] .markup rest := by
    have hbracket : step false .markup '<' ('!' :: cs) = atBracket false ('!' :: cs) := rfl
    rw [hbracket, atBracket, h, ← hmode]
    rfl
  exact fed_next hstep

theorem fed_instruction (b : Builder) {text : List Char} (h : '>' ∉ text) (rest : List Char) :
    fed b .markup ('<' :: '?' :: (text ++ '>' :: rest)) =
      fed (b.token (.instruction text)) .markup rest := by
  have hstep : step false .markup '<' ('?' :: (text ++ '>' :: rest)) =
      .next [.instruction text] .markup rest := by
    change afterConstruct false _ (Construct.upTo .instruction
      (Text.splitAtChar? '>' (text ++ '>' :: rest))) = _
    rw [Text.splitAtChar?_append h]
    rfl
  exact fed_next hstep

end Scan

end MarkupDiff.Markup
