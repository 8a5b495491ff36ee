import MarkupDiff.Proofs.Markup.Shape
import MarkupDiff.Proofs.Markup.Tokens

namespace MarkupDiff.Markup

namespace Builder

-- Blanks are kept in some of the open elements.
def keeps (opened : List Open) : Bool :=
  opened.any fun o => keepsBlanks o.tag

theorem settled_eq (b : Builder) (text : List Char) :
    b.settled text = settledText (keeps b.opened) text := rfl

@[simp] theorem pending_add (b : Builder) (i : Item) : (b.add i).pending = b.pending := by
  unfold Builder.add
  split <;> rfl

@[simp] theorem pending_flush (b : Builder) (make : String → Item) :
    (b.flush make).pending = none := by
  unfold Builder.flush
  split
  · assumption
  · rw [pending_add]

@[simp] theorem keeps_add (b : Builder) (i : Item) : keeps (b.add i).opened = keeps b.opened := by
  unfold Builder.add
  split
  · rename_i hnil
    rw [hnil]
  · rename_i hopened
    rw [hopened]
    rfl

@[simp] theorem keeps_flush (b : Builder) (make : String → Item) :
    keeps (b.flush make).opened = keeps b.opened := by
  unfold Builder.flush
  split
  · rfl
  · rw [keeps_add]

theorem flush_push {b : Builder} (h : b.pending = none) (text : List Char)
    (make : String → Item) :
    (b.push text).flush make =
      b.add (make (.ofList (settledText (keeps b.opened) text))) := by
  obtain ⟨done, opened, pending, closed⟩ := b
  obtain rfl : pending = none := h
  rfl

theorem apart_eq_add (b : Builder) (kind : Aside) (text : List Char) :
    b.apart kind text =
      (b.flush .text).add (.aside kind (.ofList (settledText (keeps b.opened) text))) := by
  rw [apart, flush_push (pending_flush b .text), keeps_flush]

theorem exists_opened_flush {b : Builder} {o : Open} {os : List Open} (h : b.opened = o :: os)
    (make : String → Item) : ∃ is, (b.flush make).opened = { o with children := is } :: os := by
  unfold Builder.flush
  split
  · exact ⟨o.children, h⟩
  · rename_i text _
    exact ⟨make (.ofList (b.settled text)) :: o.children, by simp [Builder.add, h]⟩

theorem close_of_head {b : Builder} {o : Open} {os : List Open} (h : b.opened = o :: os) :
    b.close o.tag = b.pop := by
  simp [close, h, List.findIdx?_cons, popMany]

-- Open elements that could end where they stand.
def OpenedProper : List Open → Prop
  | [] => True
  | o :: os => Item.Proper (keeps os) (.element o.tag o.attrs o.children.reverse) ∧
      voidElements.contains o.tag = false ∧ OpenedProper os

-- A document so far that is as it can be read, with no raw text under way.
structure Proper (b : Builder) : Prop where
  done : Item.AllProper false b.done
  opened : OpenedProper b.opened
  pending : b.pending ≠ some []
  closed : ∀ tag ∈ b.closed, voidElements.contains tag = true
  calm : ∀ o ∈ b.opened, Scan.rawElements.contains o.tag = false

variable {b : Builder}

theorem Proper.push (h : b.Proper) {text : List Char} (htext : text ≠ []) :
    (b.push text).Proper :=
  ⟨h.done, h.opened, by simp [Builder.push, htext], h.closed, h.calm⟩

theorem Proper.clear (h : b.Proper) : Proper { b with pending := none } :=
  ⟨h.done, h.opened, by simp, h.closed, h.calm⟩

theorem Proper.add (h : b.Proper) {i : Item} (hi : Item.Proper (keeps b.opened) i) :
    (b.add i).Proper := by
  unfold Builder.add
  split
  · rename_i hnil
    rw [hnil] at hi
    exact ⟨⟨hi, h.done⟩, h.opened, h.pending, h.closed, h.calm⟩
  · rename_i o os hopened
    have hopen := h.opened
    have hcalm := h.calm
    rw [hopened] at hopen hi hcalm
    obtain ⟨⟨htag, _, _, hchildren⟩, hvoid, hrest⟩ := hopen
    have hraw := hcalm o List.mem_cons_self
    refine ⟨h.done, ⟨⟨htag, ?_, ?_, fun _ => ?_⟩, hvoid, hrest⟩, h.pending, h.closed, ?_⟩
    · intro hcontains
      rw [hvoid] at hcontains
      exact Bool.noConfusion hcontains
    · intro hcontains
      rw [hraw] at hcontains
      exact Bool.noConfusion hcontains
    · rw [List.reverse_cons, Item.allProper_append]
      exact ⟨hchildren hraw, hi, trivial⟩
    · intro p hp
      rcases List.mem_cons.mp hp with rfl | hp
      · exact hraw
      · exact hcalm p (List.mem_cons_of_mem _ hp)

theorem Proper.flush (h : b.Proper) {make : String → Item}
    (hmake : ∀ text, b.pending = some text →
      Item.Proper (keeps b.opened) (make (.ofList (b.settled text)))) :
    (b.flush make).Proper := by
  unfold Builder.flush
  split
  · exact h
  · rename_i text hpending
    exact h.clear.add (hmake text hpending)

theorem Proper.flush_text (h : b.Proper) : (b.flush .text).Proper := by
  refine h.flush fun text htext => ?_
  have hne : text ≠ [] := fun hnil => h.pending (hnil ▸ htext)
  simp only [Item.Proper, String.toList_ofList, settled_eq, settledText_settledText]
  exact ⟨settledText_ne_nil _ hne, trivial⟩

theorem Proper.pop (h : b.Proper) : b.pop.Proper := by
  unfold Builder.pop
  split
  · exact h
  · rename_i o os hopened
    have hopen := h.opened
    have hcalm := h.calm
    rw [hopened] at hopen hcalm
    have hrest : Proper { b with opened := os } :=
      ⟨h.done, hopen.2.2, h.pending, h.closed, fun p hp => hcalm p (List.mem_cons_of_mem _ hp)⟩
    exact hrest.add hopen.1

theorem Proper.popMany (h : b.Proper) (n : Nat) : (b.popMany n).Proper := by
  induction n generalizing b with
  | zero => exact h
  | succ n ih => exact ih h.pop

theorem Proper.close (h : b.Proper) (tag : String) : (b.close tag).Proper := by
  unfold Builder.close
  split
  · exact h.popMany _
  · exact h

theorem Proper.apart (h : b.Proper) {kind : Aside} {text : List Char} (htext : kind.Fits text) :
    (b.apart kind text).Proper := by
  rw [apart_eq_add]
  refine h.flush_text.add ?_
  simp only [Item.Proper, String.toList_ofList]
  exact Aside.fits_settledText htext _

theorem proper_begin {tag : String} {attrs : List (String × String)} (h : b.Proper)
    (htag : Tag.IsProper tag attrs) (hvoid : voidElements.contains tag = false)
    (hraw : Scan.rawElements.contains tag = false) :
    Proper { b with opened := { tag, attrs } :: b.opened } := by
  refine ⟨h.done, ⟨⟨htag, fun _ => rfl, fun _ => .inl rfl, fun _ => trivial⟩, hvoid, h.opened⟩,
    h.pending, h.closed, ?_⟩
  intro p hp
  rcases List.mem_cons.mp hp with rfl | hp
  · exact hraw
  · exact h.calm p hp

theorem proper_pop_begin {tag : String} {attrs : List (String × String)} (h : b.Proper)
    (htag : Tag.IsProper tag attrs) :
    (pop { b with opened := { tag, attrs } :: b.opened }).Proper :=
  h.add (i := .element tag attrs []) ⟨htag, fun _ => rfl, fun _ => .inl rfl, fun _ => trivial⟩

theorem isProper_attrsOf {name : List Char} {as : List (List Char × Option (List Char))}
    (h : Tag.IsName name ∧ ∀ a ∈ as, Tag.IsAttrName a.1) :
    Tag.IsProper (.ofList name) (attrsOf as) := by
  obtain ⟨hnodup, hnames⟩ := names_attrsOf as
  refine ⟨by simpa using h.1, fun a ha => ?_, hnodup⟩
  obtain ⟨c, hc, heq⟩ := hnames a ha
  rw [heq, String.toList_ofList]
  exact h.2 c hc

-- The innermost element of a document so far holds raw text that can go on, and nothing else.
structure ProperRaw (element : List Char) (b : Builder) : Prop where
  inner : ∃ tag attrs os, b.opened = { tag, attrs } :: os ∧ tag.toList = element ∧
    Scan.rawElements.contains tag = true ∧ Tag.IsProper tag attrs ∧ Proper { b with opened := os }
  head : Scan.IsRawHead element (b.pending.getD [])

variable {element : List Char}

theorem not_void_of_raw {tag : String} (h : Scan.rawElements.contains tag = true) :
    voidElements.contains tag = false := by
  rcases Scan.script_or_style h with rfl | rfl <;> rfl

theorem ProperRaw.isRawName (h : b.ProperRaw element) : Scan.IsRawName element := by
  obtain ⟨tag, _, _, _, rfl, hraw, _⟩ := h.inner
  exact Scan.isRawName_of_contains hraw

theorem ProperRaw.extend (h : b.ProperRaw element) {text : List Char}
    (htext : Scan.IsRawHead element text) : (b.extend text).ProperRaw element := by
  cases text with
  | nil => exact h
  | cons c cs =>
    obtain ⟨tag, attrs, os, hopened, htag, hraw, hproper, hrest⟩ := h.inner
    exact ⟨⟨tag, attrs, os, hopened, htag, hraw, hproper,
      hrest.push (List.cons_ne_nil c cs)⟩, h.head.append htext⟩

-- The element with raw text ends after its last text.
theorem proper_pop_raw {tag : String} {attrs : List (String × String)} {os : List Open}
    (hopened : b.opened = { tag, attrs } :: os) (hraw : Scan.rawElements.contains tag = true)
    (htag : Tag.IsProper tag attrs) (hrest : Proper { b with opened := os })
    (htext : Scan.RawText tag.toList (b.pending.getD [])) : (b.flush .text).pop.Proper := by
  have hvoid : voidElements.contains tag = true → ∀ is : List Item, is = [] := by
    intro hcontains
    rw [not_void_of_raw hraw] at hcontains
    exact Bool.noConfusion hcontains
  cases hpending : b.pending with
  | none =>
    have hpop : (b.flush .text).pop =
        add { b with opened := os } (.element tag attrs []) := by
      simp only [Builder.flush, hpending, pop, hopened]
      rfl
    rw [hpop]
    exact hrest.add ⟨htag, fun _ => rfl, fun _ => .inl rfl, fun _ => trivial⟩
  | some text =>
    have hpop : (b.flush .text).pop = add { b with opened := os, pending := none }
        (.element tag attrs [.text (.ofList (b.settled text))]) := by
      simp only [Builder.flush, hpending, Builder.add, pop, hopened]
      rfl
    rw [hpop]
    refine hrest.clear.add ⟨htag, (hvoid · _), fun _ => .inr ⟨_, rfl, ?_⟩, fun hcalm => ?_⟩
    · rw [hpending] at htext
      rw [String.toList_ofList, settled_eq]
      exact Scan.rawText_settledText htext _
    · rw [hraw] at hcalm
      exact Bool.noConfusion hcalm

theorem ProperRaw.pop_flush (h : b.ProperRaw element) : (b.flush .text).pop.Proper := by
  obtain ⟨tag, attrs, os, hopened, rfl, hraw, htag, hrest⟩ := h.inner
  exact proper_pop_raw hopened hraw htag hrest h.head.rawText

theorem ProperRaw.endTag (h : b.ProperRaw element) {text : List Char}
    (htext : Scan.RawText element text) : ((b.extend text).token (.endTag element)).Proper := by
  obtain ⟨tag, attrs, os, hopened, rfl, hraw, htag, hrest⟩ := h.inner
  have hextend : (b.extend text).opened = { tag, attrs } :: os := by
    rw [opened_extend, hopened]
  have hpop : ((b.extend text).flush .text).pop.Proper := by
    refine proper_pop_raw hextend hraw htag ?_ (by rw [pending_extend]; exact h.head text htext)
    cases text with
    | nil => exact hrest
    | cons c cs => exact hrest.push (List.cons_ne_nil c cs)
  have hclosed : tag ∉ (b.extend text).closed := by
    intro hmem
    have := hrest.closed tag (closed_extend b text ▸ hmem)
    rw [not_void_of_raw hraw] at this
    exact Bool.noConfusion this
  obtain ⟨is, hflush⟩ := exists_opened_flush hextend .text
  have hclose := close_of_head hflush
  simp only [Builder.token, String.ofList_toList, List.contains_eq_mem, hclosed, decide_false,
    Bool.false_eq_true, if_false]
  rw [hclose]
  exact hpop

-- A document so far is as it can be read, in running text or in raw text.
def ProperIn : Scan.Mode → Builder → Prop
  | .markup, b => b.Proper
  | .raw element, b => b.ProperRaw element

theorem Proper.token (h : b.Proper) {t : Token} (ht : t.Proper) :
    (b.token t).ProperIn (Scan.modeAfter t) := by
  cases t with
  | data text => exact h.push ht
  | startTag name as =>
    have htag := isProper_attrsOf ht
    have hflush := h.flush_text
    simp only [Builder.token, Builder.start, Scan.modeAfter]
    by_cases hraw : Scan.rawElements.contains (.ofList name) = true
    · rw [if_pos hraw, not_void_of_raw hraw]
      refine ⟨⟨.ofList name, attrsOf as, _, rfl, by simp, hraw, htag, hflush⟩, ?_⟩
      rw [pending_flush]
      exact Scan.isRawHead_nil
    · rw [if_neg hraw]
      split
      · rename_i hvoid
        have hpop := proper_pop_begin hflush htag
        refine ⟨hpop.done, hpop.opened, hpop.pending, ?_, hpop.calm⟩
        intro tag htag
        rcases List.mem_append.mp htag with htag | htag
        · exact hflush.closed tag htag
        · rw [List.mem_singleton.mp htag]
          exact hvoid
      · rename_i hvoid
        exact proper_begin hflush htag (by simpa using hvoid) (by simpa using hraw)
  | closedTag name as => exact proper_pop_begin h.flush_text (isProper_attrsOf ht)
  | endTag name =>
    simp only [Builder.token]
    split
    · exact ⟨h.done, h.opened, h.pending,
        fun tag htag => h.closed tag (List.mem_of_mem_erase htag), h.calm⟩
    · exact h.flush_text.close _
  | comment text => exact h.apart ht
  | doctype text => exact h.apart ht
  | instruction text => exact h.apart ht
  | declaration text => exact h.apart ht

end Builder

namespace Scan

-- The tokens of a step and the way to read on after it belong together.
inductive Step.Fits : Step → Prop
  | one (t : Token) (rest : List Char) : Fits (.next [t] (modeAfter t) rest)
  | nothing (rest : List Char) : Fits (.next [] .markup rest)
  | last (text rest : List Char) : Fits (.stop [.data text] rest)
  | stopped (rest : List Char) : Fits (.stop [] rest)
  | refused (problem : Problem) : Fits (.refused problem)

theorem fits_data (text rest : List Char) : Step.Fits (.next [.data text] .markup rest) :=
  .one (.data text) rest

theorem fits_afterConstruct (last : Bool) (cs : List Char) (reading : Tag.Reading) :
    (afterConstruct last cs reading).Fits := by
  unfold afterConstruct
  split
  · exact .one _ _
  · split
    · exact fits_data _ _
    · exact .stopped _

theorem fits_endTag (last : Bool) (cs : List Char) : (endTag last cs).Fits := by
  unfold endTag
  split
  · rename_i inside rest _
    unfold Construct.endTagTokens
    split
    · exact .one (.endTag _) rest
    · exact .nothing rest
    · split
      · exact .one (.endTag _) rest
      · exact .one (.comment _) rest
  · exact fits_afterConstruct _ _ _

theorem fits_atBracket (last : Bool) (cs : List Char) : (atBracket last cs).Fits := by
  unfold atBracket
  split
  · exact .stopped _
  · exact fits_endTag _ _
  · exact fits_afterConstruct _ _ _
  · split
    · exact fits_afterConstruct _ _ _
    · exact .refused _
  · split
    · exact fits_afterConstruct _ _ _
    · exact fits_data _ _

theorem fits_atAmpersand (last : Bool) (cs : List Char) : (atAmpersand last cs).Fits := by
  unfold atAmpersand
  split
  · exact .stopped _
  · split
    · exact fits_data _ _
    · split
      · exact .last _ _
      · exact .stopped _
  · split
    · exact fits_data _ _
    · split
      · split <;> exact .stopped _
      · exact fits_data _ _

theorem fits_step (last : Bool) (c : Char) (cs : List Char) : (step last .markup c cs).Fits := by
  unfold step
  simp only
  split
  · exact fits_atBracket _ _
  · split
    · exact fits_atAmpersand _ _
    · exact fits_data _ _

-- A document so far stays as it can be read, step by step.
theorem properIn_next {last : Bool} {mode m : Mode} {c : Char} {cs rest : List Char}
    {ts : List Token} {b : Builder} (h : b.ProperIn mode)
    (hstep : step last mode c cs = .next ts m rest) : (ts.foldl Builder.token b).ProperIn m := by
  cases mode with
  | markup =>
    have hproper : ∀ t ∈ ts, t.Proper := fun t ht =>
      proper_of_step (hstep ▸ ht : t ∈ (step last .markup c cs).tokens)
    have hfits := fits_step last c cs
    rw [hstep] at hfits
    cases hfits with
    | one t => exact h.token (hproper t List.mem_cons_self)
    | nothing => exact h
  | raw element =>
    have hstep : inRaw element (c :: cs) = .next ts m rest := hstep
    have hraw : b.ProperRaw element := h
    rcases inRaw_cases hraw.isRawName (c :: cs) with ⟨r, hcase⟩ |
      ⟨us, r, text, hcase, hhead, hfold⟩ | ⟨us, r, text, hcase, htext, hfold⟩
    · rw [hstep] at hcase
      cases hcase
    · rw [hstep] at hcase
      obtain ⟨rfl, rfl, rfl⟩ := Step.next.inj hcase
      rw [hfold]
      exact hraw.extend hhead
    · rw [hstep] at hcase
      obtain ⟨rfl, rfl, rfl⟩ := Step.next.inj hcase
      rw [hfold]
      exact hraw.endTag htext

theorem properIn_stop {last : Bool} {mode : Mode} {c : Char} {cs rest : List Char}
    {ts : List Token} {b : Builder} (h : b.ProperIn mode)
    (hstep : step last mode c cs = .stop ts rest) : (ts.foldl Builder.token b).ProperIn mode := by
  cases mode with
  | markup =>
    have hproper : ∀ t ∈ ts, t.Proper := fun t ht =>
      proper_of_step (hstep ▸ ht : t ∈ (step last .markup c cs).tokens)
    have hfits := fits_step last c cs
    rw [hstep] at hfits
    cases hfits with
    | last text => exact Builder.Proper.push h (hproper _ List.mem_cons_self)
    | stopped => exact h
  | raw element =>
    have hstep : inRaw element (c :: cs) = .stop ts rest := hstep
    have hraw : b.ProperRaw element := h
    rcases inRaw_cases hraw.isRawName (c :: cs) with ⟨r, hcase⟩ | ⟨us, r, text, hcase, _⟩ |
      ⟨us, r, text, hcase, _⟩
    · rw [hstep] at hcase
      obtain ⟨rfl, _⟩ := Step.stop.inj hcase
      exact h
    · rw [hstep] at hcase
      cases hcase
    · rw [hstep] at hcase
      cases hcase

theorem properIn_run {last : Bool} {mode : Mode} {cs : List Char} {r : Result} {b : Builder}
    (h : b.ProperIn mode) (hrun : run last mode cs = .ok r) :
    (r.tokens.foldl Builder.token b).ProperIn r.mode := by
  fun_induction run last mode cs generalizing r b with
  | case1 =>
    cases hrun
    exact h
  | case2 => cases hrun
  | case3 mode c cs ts rest hstep =>
    cases hrun
    exact properIn_stop h hstep
  | case4 => cases hrun
  | case5 mode c cs ts m rest hstep _ r' hrun' ih =>
    cases hrun
    rw [List.foldl_append]
    exact ih (properIn_next h hstep) hrun'

end Scan

theorem Builder.Proper.finish {b : Builder} (h : b.Proper) : Item.AllProper false b.finish :=
  Item.allProper_reverse.mpr (h.flush_text.popMany _).done

theorem Builder.ProperRaw.finish {b : Builder} {element : List Char} (h : b.ProperRaw element) :
    Item.AllProper false b.finish := by
  obtain ⟨tag, attrs, os, hopened, _⟩ := h.inner
  obtain ⟨is, hflush⟩ := exists_opened_flush hopened .text
  unfold Builder.finish
  simp only [hflush, List.length_cons, popMany]
  exact Item.allProper_reverse.mpr (h.pop_flush.popMany _).done

theorem allProper_of_items {markup : String} {is : List Item} (h : items markup = .ok is) :
    Item.AllProper false is := by
  obtain ⟨ts, hts, rfl⟩ := items_eq_ok h
  obtain ⟨first, last, hfirst, hlast, rfl⟩ := tokens_eq_ok hts
  have hempty : Builder.ProperIn .markup {} :=
    ⟨trivial, trivial, by simp, by simp, by simp⟩
  have hread := Scan.properIn_run (Scan.properIn_run hempty hfirst) hlast
  rw [Item.ofTokens, List.foldl_append, List.foldl_append]
  cases hmode : last.mode with
  | markup =>
    rw [hmode] at hread
    have hproper : Builder.Proper _ := hread
    rcases Scan.leftOver_cases last with hrest | ⟨text, hne, hrest⟩
    · rw [hrest]
      exact hproper.finish
    · rw [hrest]
      exact (hproper.push hne).finish
  | raw element =>
    rw [hmode] at hread
    have hraw : Builder.ProperRaw element _ := hread
    have hrest : Scan.leftOver last = [] := by
      simp [Scan.leftOver, hmode]
    rw [hrest]
    exact hraw.finish

end MarkupDiff.Markup
