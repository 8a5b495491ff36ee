import MarkupDiff.Proofs.Markup.Feeding

namespace MarkupDiff.Markup.Scan

open Text (isBlank afterBlanksAndChar)

-- The name of an element with raw text, which neither angle bracket can be part of.
structure IsRawName (element : List Char) : Prop where
  letters : ∀ x ∈ element, matchesLetter x '<' = false ∧ matchesLetter x '>' = false
  ends : (atRawEnd? element ('<' :: '/' :: (element ++ ['>']))).isSome = true
  strict : Construct.strictEndName? element = some element
  bracket : '>' ∉ element

theorem script_or_style {tag : String} (h : rawElements.contains tag = true) :
    tag = "script" ∨ tag = "style" := by
  simpa [rawElements] using h

theorem isRawName_of_contains {tag : String} (h : rawElements.contains tag = true) :
    IsRawName tag.toList := by
  have hletters : ∀ {cs : List Char},
      (cs.all fun x => !matchesLetter x '<' && !matchesLetter x '>') = true →
        ∀ x ∈ cs, matchesLetter x '<' = false ∧ matchesLetter x '>' = false := by
    intro cs hall x hx
    simpa using List.all_eq_true.mp hall x hx
  rcases script_or_style h with rfl | rfl
  · exact ⟨hletters rfl, rfl, rfl, by decide⟩
  · exact ⟨hletters rfl, rfl, rfl, by decide⟩

-- Nowhere in the text begins something like the end tag of the element.
def HasNoEnd (element text : List Char) : Prop :=
  ∀ y, y ≠ [] → y <:+ text → atRawEnd? element y = none

-- Raw text of an element: what looks like its end tag in it is none.
inductive RawText (element : List Char) : List Char → Prop
  | last {text : List Char} (h : HasNoEnd element text) : RawText element text
  | past {before inside more : List Char} (hbefore : HasNoEnd element before)
      (hbracket : '>' ∉ inside)
      (hend : (atRawEnd? element ('<' :: '/' :: (inside ++ ['>']))).isSome = true)
      (hname : Construct.strictEndName? inside ≠ some element) (hmore : RawText element more) :
      RawText element (before ++ '<' :: '/' :: (inside ++ '>' :: more))

variable {element : List Char}

-- A name ends before a character that is none of its letters.
theorem afterRawName_append {d : Char} (hd : ∀ x ∈ element, matchesLetter x d = false)
    (cs rest : List Char) :
    afterRawName element (cs ++ d :: rest) = (afterRawName element cs).map (· ++ d :: rest) := by
  induction element generalizing cs with
  | nil => simp [afterRawName]
  | cons x xs ih =>
    cases cs with
    | nil => simp [afterRawName, hd x List.mem_cons_self]
    | cons c cs =>
      rw [List.cons_append, afterRawName, afterRawName]
      split
      · exact ih (fun y hy => hd y (List.mem_cons_of_mem _ hy)) cs
      · rfl

theorem dropWhile_isBlank_append {d : Char} (hd : isBlank d = false) (cs rest : List Char) :
    (cs ++ d :: rest).dropWhile isBlank = cs.dropWhile isBlank ++ d :: rest := by
  rw [List.dropWhile_append]
  cases hcs : cs.dropWhile isBlank with
  | nil => simp [hd]
  | cons c cs' => rfl

theorem isSome_afterBlanksAndChar_append_of_ne {d : Char} (hd : isBlank d = false) (hne : d ≠ '>')
    (cs rest : List Char) : (afterBlanksAndChar '>' (cs ++ d :: rest)).isSome =
      (afterBlanksAndChar '>' cs).isSome := by
  rw [afterBlanksAndChar, afterBlanksAndChar, dropWhile_isBlank_append hd]
  cases cs.dropWhile isBlank with
  | nil => simp [Text.afterChar, hne]
  | cons c cs' =>
    by_cases hc : c = '>' <;> simp [Text.afterChar, hc]

theorem isSome_afterBlanksAndChar_append (cs rest : List Char) :
    (afterBlanksAndChar '>' (cs ++ '>' :: rest)).isSome =
      (afterBlanksAndChar '>' (cs ++ ['>'])).isSome := by
  rw [afterBlanksAndChar, afterBlanksAndChar, dropWhile_isBlank_append rfl,
    dropWhile_isBlank_append rfl]
  cases cs.dropWhile isBlank with
  | nil => rfl
  | cons c cs' =>
    by_cases hc : c = '>' <;> simp [Text.afterChar, hc]

theorem isSome_atRawEnd? (cs : List Char) : (atRawEnd? element ('<' :: '/' :: cs)).isSome =
    ((afterRawName element (cs.dropWhile isBlank)).bind (afterBlanksAndChar '>')).isSome := by
  rw [atRawEnd?]
  cases (afterRawName element (cs.dropWhile isBlank)).bind (afterBlanksAndChar '>') <;> rfl

-- Whether an end tag begins in a text is settled before the next opening angle bracket.
theorem isSome_atRawEnd?_append (h : IsRawName element) {y : List Char} (hy : y ≠ [])
    (rest : List Char) :
    (atRawEnd? element (y ++ '<' :: rest)).isSome = (atRawEnd? element y).isSome := by
  have hless : ∀ x ∈ element, matchesLetter x '<' = false := fun x hx => (h.letters x hx).1
  match y with
  | [] => exact absurd rfl hy
  | [c] => simp [atRawEnd?]
  | c :: d :: cs =>
    by_cases hcd : c = '<' ∧ d = '/'
    · obtain ⟨rfl, rfl⟩ := hcd
      rw [List.cons_append, List.cons_append, isSome_atRawEnd?, isSome_atRawEnd?,
        dropWhile_isBlank_append rfl, afterRawName_append hless]
      cases afterRawName element (cs.dropWhile isBlank) with
      | none => rfl
      | some w => exact isSome_afterBlanksAndChar_append_of_ne rfl (by decide) w rest
    · have hnone : ∀ r, atRawEnd? element (c :: d :: r) = none := by
        intro r
        unfold atRawEnd?
        split
        · rename_i heq
          obtain ⟨hc, heq⟩ := List.cons.inj heq
          exact absurd ⟨hc, (List.cons.inj heq).1⟩ hcd
        · rfl
      rw [List.cons_append, List.cons_append, hnone, hnone]

-- Whether a text is like an end tag is settled by its closing angle bracket.
theorem isSome_atRawEnd?_closed (h : IsRawName element) (inside rest : List Char) :
    (atRawEnd? element ('<' :: '/' :: (inside ++ '>' :: rest))).isSome =
      (atRawEnd? element ('<' :: '/' :: (inside ++ ['>']))).isSome := by
  have hgreater : ∀ x ∈ element, matchesLetter x '>' = false := fun x hx => (h.letters x hx).2
  rw [isSome_atRawEnd?, isSome_atRawEnd?, dropWhile_isBlank_append rfl,
    dropWhile_isBlank_append rfl, afterRawName_append hgreater, afterRawName_append hgreater]
  cases afterRawName element (inside.dropWhile isBlank) with
  | none => rfl
  | some w => exact isSome_afterBlanksAndChar_append w rest

theorem atRawEnd?_eq_some {cs r : List Char} (h : atRawEnd? element cs = some r) :
    cs = '<' :: '/' :: r := by
  unfold atRawEnd? at h
  split at h
  · split at h
    · rw [Option.some.inj h]
    · cases h
  · cases h

-- The search finds what is like an end tag where none begins before it.
theorem splitAt?_atRawEnd? (h : IsRawName element) {before inside : List Char}
    (hbefore : HasNoEnd element before)
    (hend : (atRawEnd? element ('<' :: '/' :: (inside ++ ['>']))).isSome = true)
    (rest : List Char) :
    Text.splitAt? (atRawEnd? element) (before ++ '<' :: '/' :: (inside ++ '>' :: rest)) =
      some (before, inside ++ '>' :: rest) := by
  refine Text.splitAt?_append (fun y hy hsuffix => ?_) ?_
  · rw [← Option.isNone_iff_eq_none, ← Option.not_isSome, isSome_atRawEnd?_append h hy,
      hbefore y hy hsuffix]
    rfl
  · rw [← isSome_atRawEnd?_closed h inside rest] at hend
    obtain ⟨r, hr⟩ := Option.isSome_iff_exists.mp hend
    have heq := atRawEnd?_eq_some hr
    rw [hr, (List.cons.inj (List.cons.inj heq).2).2]

theorem exists_of_splitAt? (h : IsRawName element) {cs before r : List Char}
    (hsplit : Text.splitAt? (atRawEnd? element) cs = some (before, r)) :
    HasNoEnd element before ∧ (atRawEnd? element ('<' :: '/' :: r)).isSome = true := by
  obtain ⟨rest, rfl, hrest, hnone⟩ := Text.splitAt?_eq_some hsplit
  obtain rfl := atRawEnd?_eq_some hrest
  refine ⟨fun y hy hsuffix => ?_, by rw [hrest]; rfl⟩
  have := isSome_atRawEnd?_append h hy ('/' :: r)
  rw [hnone y hy hsuffix] at this
  simpa using this.symm

theorem step_raw (cs : List Char) (hcs : cs ≠ []) {ts : List Token} {m : Mode} {rest : List Char}
    (b : Builder) (h : inRaw element cs = .next ts m rest) :
    fed b (.raw element) cs = fed (ts.foldl Builder.token b) m rest := by
  cases cs with
  | nil => exact absurd rfl hcs
  | cons c cs => exact fed_next h

theorem foldl_token_data (b : Builder) (before : List Char) (ts : List Token) :
    ((if before.isEmpty then [] else [Token.data before]) ++ ts).foldl Builder.token b =
      ts.foldl Builder.token (b.extend before) := by
  cases before <;> rfl

-- Raw text is taken up to its end tag.
theorem fed_raw (h : IsRawName element) {text : List Char} (htext : RawText element text)
    (b : Builder) (rest : List Char) :
    fed b (.raw element) (text ++ '<' :: '/' :: (element ++ '>' :: rest)) =
      fed ((b.extend text).token (.endTag element)) .markup rest := by
  induction htext generalizing b with
  | @last text htext =>
    have hraw : inRaw element (text ++ '<' :: '/' :: (element ++ '>' :: rest)) =
        .next ((if text.isEmpty then [] else [.data text]) ++ [.endTag element]) .markup rest := by
      rw [inRaw, splitAt?_atRawEnd? h htext h.ends]
      simp [Text.splitAtChar?_append h.bracket, h.strict]
    rw [step_raw _ (by simp) b hraw, foldl_token_data]
    rfl
  | @past before inside more hbefore hbracket hend hname _ ih =>
    have hraw : inRaw element (before ++ '<' :: '/' :: (inside ++ '>' ::
          (more ++ '<' :: '/' :: (element ++ '>' :: rest)))) =
        .next ((if before.isEmpty then [] else [.data before]) ++
            [.data ('<' :: '/' :: inside ++ ['>'])]) (.raw element)
          (more ++ '<' :: '/' :: (element ++ '>' :: rest)) := by
      rw [inRaw, splitAt?_atRawEnd? h hbefore hend]
      simp only [Text.splitAtChar?_append hbracket]
      split
      · rename_i name hstrict
        have hne : name ≠ element := fun heq => hname (heq ▸ hstrict)
        simp [hne]
      · rfl
    have hsplit : before ++ '<' :: '/' :: (inside ++ '>' :: more) ++
        '<' :: '/' :: (element ++ '>' :: rest) = before ++ '<' :: '/' :: (inside ++ '>' ::
          (more ++ '<' :: '/' :: (element ++ '>' :: rest))) := by
      simp
    rw [hsplit, step_raw _ (by simp) b hraw, foldl_token_data, List.foldl_cons, List.foldl_nil]
    have hextend : (b.extend before).token (.data ('<' :: '/' :: inside ++ ['>'])) =
        (b.extend before).extend ('<' :: '/' :: inside ++ ['>']) := rfl
    rw [hextend, ih, ← Builder.extend_append, ← Builder.extend_append]
    simp

theorem hasNoEnd_nil : HasNoEnd element [] :=
  fun _ hy hsuffix => absurd (List.suffix_nil.mp hsuffix) hy

-- Raw text that can go on.
def IsRawHead (element text : List Char) : Prop :=
  ∀ more, RawText element more → RawText element (text ++ more)

theorem isRawHead_nil : IsRawHead element [] :=
  fun _ hmore => hmore

theorem IsRawHead.rawText {text : List Char} (h : IsRawHead element text) :
    RawText element text := by
  simpa using h [] (.last hasNoEnd_nil)

theorem IsRawHead.append {text more : List Char} (h : IsRawHead element text)
    (hmore : IsRawHead element more) : IsRawHead element (text ++ more) := by
  intro rest hrest
  rw [List.append_assoc]
  exact h _ (hmore _ hrest)

theorem suffix_of_afterRawName {cs rest : List Char} (h : afterRawName element cs = some rest) :
    rest <:+ cs := by
  induction element generalizing cs with
  | nil => exact Option.some.inj h ▸ List.suffix_refl _
  | cons x xs ih =>
    cases cs with
    | nil => cases h
    | cons c cs =>
      rw [afterRawName] at h
      split at h
      · exact (ih h).trans (List.suffix_cons _ _)
      · cases h

theorem mem_of_isSome_atRawEnd? {r : List Char}
    (h : (atRawEnd? element ('<' :: '/' :: r)).isSome = true) : '>' ∈ r := by
  rw [isSome_atRawEnd?] at h
  obtain ⟨w, hw⟩ := Option.isSome_iff_exists.mp h
  obtain ⟨rest, hrest, hmark⟩ := Option.bind_eq_some_iff.mp hw
  have hmem : '>' ∈ rest.dropWhile isBlank :=
    Text.afterBlanksAndChar_eq_some.mp hmark ▸ List.mem_cons_self
  exact (List.dropWhile_suffix _).subset
    ((suffix_of_afterRawName hrest).subset ((List.dropWhile_suffix _).subset hmem))

-- What one step in raw text takes: nothing, or text that can go on, or the last text with the end
-- tag.
theorem inRaw_cases (h : IsRawName element) (cs : List Char) :
    (∃ rest, inRaw element cs = .stop [] rest) ∨
    (∃ ts rest text, inRaw element cs = .next ts (.raw element) rest ∧ IsRawHead element text ∧
      ∀ b : Builder, ts.foldl Builder.token b = b.extend text) ∨
    ∃ ts rest text, inRaw element cs = .next ts .markup rest ∧ RawText element text ∧
      ∀ b : Builder, ts.foldl Builder.token b = (b.extend text).token (.endTag element) := by
  cases hsplit : Text.splitAt? (atRawEnd? element) cs with
  | none => exact .inl ⟨cs, by rw [inRaw, hsplit]⟩
  | some p =>
    obtain ⟨before, r⟩ := p
    obtain ⟨hbefore, hend⟩ := exists_of_splitAt? h hsplit
    obtain ⟨inside, rest, rfl, hbracket⟩ :=
      List.eq_append_cons_of_mem (mem_of_isSome_atRawEnd? hend)
    have hclose := Text.splitAtChar?_append hbracket rest
    rw [isSome_atRawEnd?_closed h] at hend
    by_cases hname : Construct.strictEndName? inside = some element
    · refine .inr (.inr ⟨(if before.isEmpty then [] else [.data before]) ++ [.endTag element],
        rest, before, ?_, .last hbefore, fun b => foldl_token_data b before _⟩)
      rw [inRaw, hsplit]
      simp [hclose, hname]
    · refine .inr (.inl ⟨(if before.isEmpty then [] else [.data before]) ++
          [.data ('<' :: '/' :: inside ++ ['>'])], rest,
        before ++ '<' :: '/' :: (inside ++ ['>']), ?_, ?_, ?_⟩)
      · rw [inRaw, hsplit]
        simp only [hclose]
        split
        · rename_i name hstrict
          have hne : name ≠ element := fun heq => hname (heq ▸ hstrict)
          simp [hne]
        · rfl
      · intro more hmore
        have := RawText.past hbefore hbracket hend hname hmore
        simpa using this
      · intro b
        rw [foldl_token_data, Builder.extend_append]
        rfl

end MarkupDiff.Markup.Scan
