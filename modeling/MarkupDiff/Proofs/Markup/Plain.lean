import MarkupDiff.Proofs.Markup.Respelling
import Mathlib.Data.List.Chain

namespace MarkupDiff.Markup.Item

open Text (isBlank isMarkupBlank)

theorem not_all_dropWhile {cs : List Char} (h : ¬cs.all isBlank = true) :
    ¬(cs.dropWhile isBlank).all isBlank = true := by
  intro hall
  have hnil := List.dropWhile_eq_nil_iff.mpr (List.all_eq_true.mp hall)
  rw [List.dropWhile_idempotent] at hnil
  exact h (List.all_eq_true.mpr (List.dropWhile_eq_nil_iff.mp hnil))

theorem not_all_rdropWhile {cs : List Char} (h : ¬cs.all isBlank = true) :
    ¬(cs.rdropWhile isBlank).all isBlank = true := by
  intro hall
  have hnil := List.rdropWhile_eq_nil_iff.mpr (List.all_eq_true.mp hall)
  rw [List.rdropWhile_idempotent] at hnil
  exact h (List.all_eq_true.mpr (List.rdropWhile_eq_nil_iff.mp hnil))

theorem trimmedStart_linedAll (is : List Item) :
    trimmedStart (linedAll is) = linedAll (trimmedStart is) := by
  induction is with
  | nil => rfl
  | cons i is ih =>
    cases i with
    | element tag attrs children => rfl
    | aside kind s => cases kind <;> rfl
    | text s =>
      simp only [linedAll, lined, List.cons_append, List.nil_append, trimmedStart]
      split
      · exact ih
      · rfl

theorem trimmedEnd_append (is js : List Item) :
    trimmedEnd (is ++ js) = if trimmedEnd js = [] then trimmedEnd is else is ++ trimmedEnd js := by
  induction is with
  | nil =>
    split
    · assumption
    · rfl
  | cons i is ih =>
    rw [List.cons_append, trimmedEnd, ih]
    by_cases hjs : trimmedEnd js = []
    · rw [if_pos hjs, if_pos hjs, trimmedEnd]
    · rw [if_neg hjs, if_neg hjs]
      cases hrest : is ++ trimmedEnd js with
      | nil => exact absurd (List.append_eq_nil_iff.mp hrest).2 hjs
      | cons k ks => rw [List.cons_append, hrest]

theorem trimmedEnd_singleton (i : Item) : trimmedEnd [i] = lastTrimmed i := rfl

theorem trimmedEnd_lastTrimmed (i : Item) : trimmedEnd (lastTrimmed i) = lastTrimmed i := by
  cases i with
  | element tag attrs children => rfl
  | aside kind s => rfl
  | text s =>
    by_cases hs : s.toList.all isBlank = true
    · rw [lastTrimmed, if_pos hs]
      rfl
    · rw [lastTrimmed, if_neg hs, trimmedEnd_singleton, lastTrimmed, String.toList_ofList,
        if_neg (not_all_rdropWhile hs), List.rdropWhile_idempotent]

theorem trimmedEnd_trimmedEnd (is : List Item) : trimmedEnd (trimmedEnd is) = trimmedEnd is := by
  induction is with
  | nil => rfl
  | cons i is ih =>
    rw [trimmedEnd]
    cases hrest : trimmedEnd is with
    | nil => exact trimmedEnd_lastTrimmed i
    | cons j js =>
      rw [hrest] at ih
      simp only [trimmedEnd] at ih ⊢
      rw [ih]

theorem linedAll_lastTrimmed_text (s : String) :
    linedAll (lastTrimmed (text s)) = lastTrimmed (text s) := by
  rw [lastTrimmed]
  split <;> rfl

-- Trimming at the end can come before the lines are ended, if it is done again.
theorem trimmedEnd_linedAll_trimmedEnd (is : List Item) :
    trimmedEnd (linedAll (trimmedEnd is)) = trimmedEnd (linedAll is) := by
  induction is with
  | nil => rfl
  | cons i is ih =>
    rw [trimmedEnd, linedAll, trimmedEnd_append]
    cases hrest : trimmedEnd is with
    | nil =>
      rw [hrest] at ih
      have hnil : trimmedEnd (linedAll []) = [] := rfl
      rw [← ih, if_pos hnil]
      cases i with
      | element tag attrs children => rfl
      | aside kind s => cases kind <;> rfl
      | text s =>
        simp only [linedAll_lastTrimmed_text, trimmedEnd_lastTrimmed]
        rfl
    | cons j js =>
      rw [← ih, hrest, linedAll, trimmedEnd_append]

theorem trimmed_linedAll (is : List Item) :
    trimmed (linedAll is) = trimmedEnd (linedAll (trimmed is)) := by
  rw [trimmed, trimmedStart_linedAll, trimmed, trimmedEnd_linedAll_trimmedEnd]

theorem trimmed_mapAttrsAll {f : String → List (String × String) → List (String × String)}
    (is : List Item) : trimmed (mapAttrsAll f is) = mapAttrsAll f (trimmed is) := by
  rw [trimmed, trimmedStart_mapAttrsAll, trimmedEnd_mapAttrsAll, trimmed]

theorem trimmedEnd_trimmed (is : List Item) : trimmedEnd (trimmed is) = trimmed is :=
  trimmedEnd_trimmedEnd _

theorem proper_text_of_not_blank (keep : Bool) {cs : List Char} (h : ¬cs.all isBlank = true) :
    Item.Proper keep (text (.ofList cs)) := by
  have hmarkup : ¬cs.all isMarkupBlank = true := fun hall => h <| List.all_eq_true.mpr fun c hc =>
    Text.isBlank_of_isMarkupBlank (List.all_eq_true.mp hall c hc)
  rw [Item.Proper, String.toList_ofList, settledText, if_neg (by simp [hmarkup])]
  refine ⟨?_, rfl⟩
  rintro rfl
  exact h rfl

theorem allProper_trimmedStart {keep : Bool} {is : List Item} (h : AllProper keep is) :
    AllProper keep (trimmedStart is) := by
  induction is with
  | nil => exact h
  | cons i is ih =>
    cases i with
    | element tag attrs children => exact h
    | aside kind s => exact h
    | text s =>
      rw [trimmedStart]
      split
      · exact ih h.2
      · rename_i hs
        exact ⟨proper_text_of_not_blank keep (not_all_dropWhile hs), h.2⟩

theorem allProper_lastTrimmed {keep : Bool} {i : Item} (h : i.Proper keep) :
    AllProper keep (lastTrimmed i) := by
  cases i with
  | element tag attrs children => exact ⟨h, trivial⟩
  | aside kind s => exact ⟨h, trivial⟩
  | text s =>
    rw [lastTrimmed]
    split
    · trivial
    · rename_i hs
      exact ⟨proper_text_of_not_blank keep (not_all_rdropWhile hs), trivial⟩

theorem allProper_trimmedEnd {keep : Bool} {is : List Item} (h : AllProper keep is) :
    AllProper keep (trimmedEnd is) := by
  induction is with
  | nil => exact h
  | cons i is ih =>
    rw [trimmedEnd]
    split
    · exact allProper_lastTrimmed h.1
    · rename_i hrest
      exact ⟨h.1, hrest ▸ ih h.2⟩

theorem allProper_trimmed {keep : Bool} {is : List Item} (h : AllProper keep is) :
    AllProper keep (trimmed is) :=
  allProper_trimmedEnd (allProper_trimmedStart h)

-- A text of nothing but markup blanks.
def isBlankText : Item → Bool
  | text s => s.toList.all isMarkupBlank
  | _ => false

def BlankTexts (is : List Item) : Prop :=
  ∀ s, text s ∈ is → isBlankText (text s) = true

-- No line ends after a document type, and no two blank texts come together where blanks are not
-- kept.
def Unbroken (keep : Bool) (is : List Item) : Prop :=
  (∀ s, aside .doctype s ∉ is) ∧
    (keep = false → is.IsChain fun i j => ¬(isBlankText i = true ∧ isBlankText j = true))

mutual

-- An item whose spelling changes nothing that counts: no encoding is named but the one in which
-- markup is written, and the children of every element are unbroken, or all their texts are blank.
def Plain (keep : Bool) : Item → Prop
  | element tag attrs children =>
    encodingAttrs tag attrs = attrs ∧
      (BlankTexts children ∨ Unbroken (keepsBlanks tag || keep) children) ∧
      AllPlain (keepsBlanks tag || keep) children
  | text _ => True
  | aside _ _ => True

def AllPlain (keep : Bool) : List Item → Prop
  | [] => True
  | i :: is => Plain keep i ∧ AllPlain keep is

end

-- A document whose spelling changes nothing that counts.
def PlainDocument (is : List Item) : Prop :=
  (BlankTexts is ∨ Unbroken false is) ∧ AllPlain false is

mutual

theorem mapAttrs_encodingAttrs {keep : Bool} (i : Item) (h : i.Plain keep) :
    mapAttrs encodingAttrs i = i := by
  cases i with
  | element tag attrs children =>
    obtain ⟨hattrs, _, hchildren⟩ := h
    rw [mapAttrs, hattrs, mapAttrsAll_encodingAttrs children hchildren]
  | text s => rfl
  | aside kind s => rfl

theorem mapAttrsAll_encodingAttrs {keep : Bool} (is : List Item) (h : AllPlain keep is) :
    mapAttrsAll encodingAttrs is = is := by
  cases is with
  | nil => rfl
  | cons i is =>
    rw [mapAttrsAll, mapAttrs_encodingAttrs i h.1, mapAttrsAll_encodingAttrs is h.2]

end

-- Where nothing that counts changes, respelling ends lines and joins texts.
theorem respelled_of_plain {is : List Item} (h : AllPlain false (trimmed (unmarkedAll false is))) :
    respelled is =
      joinedAll false [] (trimmedEnd (linedAll (trimmed (unmarkedAll false is)))) := by
  rw [respelled, trimmed_linedAll, trimmed_mapAttrsAll, mapAttrsAll_encodingAttrs _ h]

theorem exists_lined_aside {kind : Aside} (s : String) (h : kind ≠ .doctype) :
    ∃ k t, lined (aside kind s) = [aside k t] := by
  cases kind with
  | doctype => exact absurd rfl h
  | _ => exact ⟨_, _, rfl⟩

theorem linedAll_cons_ne_nil (i : Item) (is : List Item) : linedAll (i :: is) ≠ [] := by
  cases i with
  | element tag attrs children => exact List.cons_ne_nil _ _
  | text s => exact List.cons_ne_nil _ _
  | aside kind s => cases kind <;> exact List.cons_ne_nil _ _

theorem trimmedEnd_linedAll_of_no_doctype {is : List Item} (h : ∀ s, aside .doctype s ∉ is) :
    trimmedEnd (linedAll is) = linedAll (trimmedEnd is) := by
  induction is with
  | nil => rfl
  | cons i is ih =>
    rw [linedAll, trimmedEnd_append, ih fun s hs => h s (List.mem_cons_of_mem _ hs), trimmedEnd]
    cases trimmedEnd is with
    | nil =>
      have hnil : linedAll [] = [] := rfl
      rw [if_pos hnil]
      cases i with
      | element tag attrs children => rfl
      | text s =>
        rw [lined, trimmedEnd_singleton, linedAll_lastTrimmed_text]
      | aside kind s =>
        cases kind with
        | doctype => exact absurd List.mem_cons_self (h s)
        | _ => rfl
    | cons j js =>
      rw [if_neg (linedAll_cons_ne_nil j js)]
      rfl

variable {keep : Bool} {pending : List Char} {i : Item} {is js : List Item}

theorem blankTexts_append : BlankTexts (is ++ js) ↔ BlankTexts is ∧ BlankTexts js := by
  refine ⟨fun h => ⟨fun s hs => h s (List.mem_append_left _ hs),
    fun s hs => h s (List.mem_append_right _ hs)⟩, fun h s hs => ?_⟩
  rcases List.mem_append.mp hs with hs | hs
  · exact h.1 s hs
  · exact h.2 s hs

theorem blankTexts_cons : BlankTexts (i :: is) ↔ BlankTexts [i] ∧ BlankTexts is := by
  rw [← List.singleton_append, blankTexts_append]

theorem blankTexts_of_not_text (h : ∀ s, i ≠ .text s) : BlankTexts [i] :=
  fun s hs => absurd (List.mem_singleton.mp hs).symm (h s)

theorem blankTexts_lined (h : BlankTexts [i]) : BlankTexts (lined i) := by
  cases i with
  | element tag attrs children => exact blankTexts_of_not_text (by simp)
  | text s => exact h
  | aside kind s =>
    cases kind with
    | doctype =>
      refine blankTexts_cons.mpr ⟨blankTexts_of_not_text (by simp), fun t ht => ?_⟩
      rw [List.mem_singleton.mp ht]
      rfl
    | _ => exact blankTexts_of_not_text (by simp)

theorem blankTexts_linedAll (h : BlankTexts is) : BlankTexts (linedAll is) := by
  induction is with
  | nil => exact h
  | cons i is ih =>
    obtain ⟨hhead, htail⟩ := blankTexts_cons.mp h
    exact blankTexts_append.mpr ⟨blankTexts_lined hhead, ih htail⟩

theorem lastTrimmed_of_blank {s : String} (h : BlankTexts [.text s]) :
    lastTrimmed (.text s) = [] := by
  have hs : s.toList.all isMarkupBlank = true := h s List.mem_cons_self
  rw [lastTrimmed, if_pos]
  exact List.all_eq_true.mpr fun c hc =>
    Text.isBlank_of_isMarkupBlank (List.all_eq_true.mp hs c hc)

theorem blankTexts_trimmedEnd (h : BlankTexts is) : BlankTexts (trimmedEnd is) := by
  induction is with
  | nil => exact h
  | cons i is ih =>
    obtain ⟨hhead, htail⟩ := blankTexts_cons.mp h
    rw [trimmedEnd]
    split
    · cases i with
      | element tag attrs children => exact hhead
      | text s =>
        rw [lastTrimmed_of_blank hhead]
        exact fun s hs => absurd hs List.not_mem_nil
      | aside kind s => exact hhead
    · rename_i hrest
      exact blankTexts_cons.mpr ⟨hhead, hrest ▸ ih htail⟩

theorem all_settledText {cs : List Char} (h : cs.all isMarkupBlank = true) :
    (settledText keep cs).all isMarkupBlank = true := by
  rcases settledText_cases keep cs with heq | heq | heq
  · rwa [heq]
  · rw [heq]
    rfl
  · rw [heq]
    rfl

theorem blankTexts_settledItems (h : pending.all isMarkupBlank = true) :
    BlankTexts (settledItems keep pending) := by
  unfold settledItems
  split
  · exact fun s hs => absurd hs List.not_mem_nil
  · intro s hs
    rw [List.mem_singleton.mp hs, isBlankText, String.toList_ofList]
    exact all_settledText h

theorem blankTexts_joinedAll (hpending : pending.all isMarkupBlank = true) (h : BlankTexts is) :
    BlankTexts (joinedAll keep pending is) := by
  induction is generalizing pending with
  | nil => exact blankTexts_settledItems hpending
  | cons i is ih =>
    obtain ⟨hhead, htail⟩ := blankTexts_cons.mp h
    have hsettled : BlankTexts (settledItems keep pending) := blankTexts_settledItems hpending
    cases i with
    | text s =>
      have hs : s.toList.all isMarkupBlank = true := hhead s List.mem_cons_self
      refine ih ?_ htail
      rw [List.all_append, hpending, hs, Bool.and_self]
    | element tag attrs children =>
      rw [joinedAll, blankTexts_append, blankTexts_cons]
      exact ⟨hsettled, blankTexts_of_not_text (by simp [joined]), ih rfl htail⟩
    | aside kind s =>
      rw [joinedAll, blankTexts_append, blankTexts_cons]
      exact ⟨hsettled, blankTexts_of_not_text (by simp [joined]), ih rfl htail⟩

-- Text that has come together as an item, if there is any.
def pendingItems (pending : List Char) : List Item :=
  if pending.isEmpty then [] else [text (.ofList pending)]

-- Items after text that is still to be joined, where joining changes nothing that counts.
structure Ready (keep : Bool) (pending : List Char) (is : List Item) : Prop where
  proper : AllProper keep (pendingItems pending ++ is)
  unbroken : Unbroken keep (pendingItems pending ++ is)

theorem settledItems_eq_pendingItems (h : AllProper keep (pendingItems pending)) :
    settledItems keep pending = pendingItems pending := by
  cases pending with
  | nil => rfl
  | cons c cs =>
    have hsettled := h.1.2
    rw [String.toList_ofList] at hsettled
    rw [settledItems, hsettled, pendingItems]

theorem Unbroken.of_append (h : Unbroken keep (is ++ js)) :
    Unbroken keep js :=
  ⟨fun s hs => h.1 s (List.mem_append_right _ hs),
    fun hkeep => (List.isChain_append.mp (h.2 hkeep)).2.1⟩

theorem Ready.settledItems_eq (h : Ready keep pending is) :
    settledItems keep pending = pendingItems pending :=
  settledItems_eq_pendingItems (allProper_append.mp h.proper).1

theorem Ready.rest (h : Ready keep pending (i :: is)) : Ready keep [] is := by
  have hunbroken : Unbroken keep ([i] ++ is) := h.unbroken.of_append
  exact ⟨(allProper_append.mp h.proper).2.2, hunbroken.of_append⟩

theorem not_all_blank_append {cs ds : List Char}
    (h : ¬(cs.all isMarkupBlank = true ∧ ds.all isMarkupBlank = true)) :
    (cs ++ ds).all isMarkupBlank = false := by
  rw [← Bool.not_eq_true, List.all_append, Bool.and_eq_true]
  exact h

theorem settledText_append {cs ds : List Char}
    (h : keep = false → ¬(cs.all isMarkupBlank = true ∧ ds.all isMarkupBlank = true)) :
    settledText keep (cs ++ ds) = cs ++ ds := by
  cases keep with
  | true => rw [settledText, Bool.not_true, Bool.and_false, if_neg Bool.false_ne_true]
  | false =>
    rw [settledText, not_all_blank_append (h rfl), Bool.false_and, if_neg Bool.false_ne_true]

-- Text goes on where the text before it and the text after it are not both blank.
theorem Ready.text {s : String} (h : Ready keep pending (.text s :: is)) :
    Ready keep (pending ++ s.toList) is := by
  have hne := (allProper_append.mp h.proper).2.1.1
  have hitems : pendingItems (pending ++ s.toList) = [.text (.ofList (pending ++ s.toList))] := by
    simp [pendingItems, hne]
  cases pending with
  | nil =>
    rw [List.nil_append] at hitems ⊢
    refine ⟨?_, ?_⟩
    · rw [hitems, String.ofList_toList]
      exact h.proper
    · rw [hitems, String.ofList_toList]
      exact h.unbroken
  | cons c cs =>
    obtain ⟨hdoctype, hchain⟩ := h.unbroken
    have hblank : keep = false →
        ¬((c :: cs).all isMarkupBlank = true ∧ s.toList.all isMarkupBlank = true) := by
      intro hkeep
      have hhead := (List.isChain_cons.mp (hchain hkeep)).1 (.text s) rfl
      simpa [isBlankText] using hhead
    refine ⟨?_, ?_⟩
    · rw [hitems]
      refine ⟨⟨by simp, ?_⟩, (allProper_append.mp h.proper).2.2⟩
      rw [String.toList_ofList, settledText_append hblank]
    · rw [hitems]
      refine ⟨fun d hd => ?_, fun hkeep => ?_⟩
      · rcases List.mem_cons.mp hd with heq | hd
        · exact Item.noConfusion heq
        · exact hdoctype d (List.mem_append_right _ (List.mem_cons_of_mem _ hd))
      · have htail := (List.isChain_cons.mp (hchain hkeep)).2
        refine List.isChain_cons.mpr ⟨fun j _ hj => ?_, (List.isChain_cons.mp htail).2⟩
        have hall : ((c :: cs) ++ s.toList).all isMarkupBlank = true := by
          simpa [isBlankText] using hj.1
        rw [not_all_blank_append (hblank hkeep)] at hall
        exact Bool.noConfusion hall

end MarkupDiff.Markup.Item
