import MarkupDiff.Proofs.Markup.RawText

namespace MarkupDiff.Markup

-- Blank text is one line feed or one space, unless blanks are kept.
def settledText (keep : Bool) (text : List Char) : List Char :=
  if text.all Text.isMarkupBlank && !keep then
    if text.contains '\n' then ['\n'] else [' ']
  else text

theorem settledText_cases (keep : Bool) (text : List Char) :
    settledText keep text = text ∨ settledText keep text = ['\n'] ∨
      settledText keep text = [' '] := by
  unfold settledText
  split
  · split
    · exact .inr (.inl rfl)
    · exact .inr (.inr rfl)
  · exact .inl rfl

theorem settledText_ne_nil (keep : Bool) {text : List Char} (h : text ≠ []) :
    settledText keep text ≠ [] := by
  rcases settledText_cases keep text with heq | heq | heq
  · rwa [heq]
  · simp [heq]
  · simp [heq]

theorem settledText_settledText (keep : Bool) (text : List Char) :
    settledText keep (settledText keep text) = settledText keep text := by
  rcases settledText_cases keep text with h | h | h
  · rw [h, h]
  · rw [h]
    cases keep <;> rfl
  · rw [h]
    cases keep <;> rfl

theorem Aside.fits_of_notMem (kind : Aside) {text : List Char} (h : '>' ∉ text) :
    kind.Fits text := by
  cases kind with
  | comment => exact Construct.fits_comment_of_notMem h
  | doctype => exact h
  | characterData => exact Construct.fits_characterData_of_notMem h
  | declaration => trivial
  | instruction => exact h

theorem Aside.fits_settledText {kind : Aside} {text : List Char} (h : kind.Fits text)
    (keep : Bool) : kind.Fits (settledText keep text) := by
  rcases settledText_cases keep text with heq | heq | heq
  · rwa [heq]
  · rw [heq]
    exact kind.fits_of_notMem (by decide)
  · rw [heq]
    exact kind.fits_of_notMem (by decide)

theorem Scan.rawText_of_notMem {element text : List Char} (h : '<' ∉ text) :
    RawText element text := by
  refine .last fun y hy hsuffix => ?_
  cases y with
  | nil => exact absurd rfl hy
  | cons c y =>
    unfold atRawEnd?
    split
    · rename_i heq
      exact absurd (hsuffix.subset ((List.cons.inj heq).1 ▸ List.mem_cons_self)) h
    · rfl

theorem Scan.rawText_settledText {element text : List Char} (h : RawText element text)
    (keep : Bool) : RawText element (settledText keep text) := by
  rcases settledText_cases keep text with heq | heq | heq
  · rwa [heq]
  · rw [heq]
    exact rawText_of_notMem (by decide)
  · rw [heq]
    exact rawText_of_notMem (by decide)

-- The item stands among these items or at any depth below them.
inductive Item.Within (i : Item) : List Item → Prop
  | here {is : List Item} (hi : i ∈ is) : Within i is
  | inside {is children : List Item} {tag : String} {attrs : List (String × String)}
      (helement : element tag attrs children ∈ is) (hi : Within i children) : Within i is

theorem Item.within_append {i : Item} {is js : List Item} :
    Within i (is ++ js) ↔ Within i is ∨ Within i js := by
  constructor
  · intro h
    cases h with
    | here hi => exact (List.mem_append.mp hi).imp .here .here
    | inside helement hi =>
      exact (List.mem_append.mp helement).imp (.inside · hi) (.inside · hi)
  · rintro (h | h)
    · cases h with
      | here hi => exact .here (List.mem_append_left _ hi)
      | inside helement hi => exact .inside (List.mem_append_left _ helement) hi
    · cases h with
      | here hi => exact .here (List.mem_append_right _ hi)
      | inside helement hi => exact .inside (List.mem_append_right _ helement) hi

theorem Item.within_cons {i j : Item} {js : List Item} :
    Within i (j :: js) ↔ Within i [j] ∨ Within i js := by
  rw [← List.singleton_append, within_append]

-- The tag and the attributes of an element as they can be read.
structure Tag.IsProper (tag : String) (attrs : List (String × String)) : Prop where
  name : IsName tag.toList
  names : ∀ a ∈ attrs, IsAttrName a.1.toList
  nodup : (attrs.map (·.1)).Nodup

-- Blanks are kept in an element with this tag.
def keepsBlanks (tag : String) : Bool :=
  preformattedElements.contains tag

mutual

-- An item as it can be read where blanks are kept or not: void elements are empty, elements with
-- raw text hold nothing else, and other text is not empty and settled.
def Item.Proper (keep : Bool) : Item → Prop
  | .element tag attrs children =>
    Tag.IsProper tag attrs ∧ (voidElements.contains tag = true → children = []) ∧
      (Scan.rawElements.contains tag = true → children = [] ∨
        ∃ s, children = [.text s] ∧ Scan.RawText tag.toList s.toList) ∧
      (Scan.rawElements.contains tag = false → Item.AllProper (keepsBlanks tag || keep) children)
  | .text s => s.toList ≠ [] ∧ settledText keep s.toList = s.toList
  | .aside kind s => kind.Fits s.toList

def Item.AllProper (keep : Bool) : List Item → Prop
  | [] => True
  | i :: is => Item.Proper keep i ∧ Item.AllProper keep is

end

theorem Item.allProper_append {keep : Bool} {is js : List Item} :
    AllProper keep (is ++ js) ↔ AllProper keep is ∧ AllProper keep js := by
  induction is with
  | nil => simp [AllProper]
  | cons i is ih => simp [AllProper, ih, and_assoc]

theorem Item.allProper_reverse {keep : Bool} {is : List Item} :
    AllProper keep is.reverse ↔ AllProper keep is := by
  induction is with
  | nil => rfl
  | cons i is ih =>
    rw [List.reverse_cons, allProper_append, ih]
    simp [AllProper, and_comm]

theorem Item.proper_of_mem {keep : Bool} {is : List Item} (h : AllProper keep is) {i : Item}
    (hi : i ∈ is) : i.Proper keep := by
  induction is with
  | nil => exact absurd hi List.not_mem_nil
  | cons j is ih =>
    rcases List.mem_cons.mp hi with rfl | hi
    · exact h.1
    · exact ih h.2 hi

theorem Item.isProper_of_within {keep : Bool} {is : List Item} (h : AllProper keep is)
    {tag : String} {attrs : List (String × String)} {children : List Item}
    (hw : Within (element tag attrs children) is) : Tag.IsProper tag attrs := by
  induction hw generalizing keep with
  | here hi => exact (proper_of_mem h hi).1
  | @inside is cs t as helement hi ih =>
    obtain ⟨_, _, hraw, hcalm⟩ := proper_of_mem h helement
    by_cases hcontains : Scan.rawElements.contains t = true
    · rcases hraw hcontains with rfl | ⟨s, rfl, _⟩
      · cases hi with
        | here hi => exact absurd hi List.not_mem_nil
        | inside helement _ => exact absurd helement List.not_mem_nil
      · cases hi with
        | here hi => exact absurd (List.mem_singleton.mp hi) (by simp)
        | inside helement _ => exact absurd (List.mem_singleton.mp helement) (by simp)
    · rw [Bool.not_eq_true] at hcontains
      exact ih (hcalm hcontains)

end MarkupDiff.Markup
