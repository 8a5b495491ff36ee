import MarkupDiff.Proofs.Markup.Plain
import MarkupDiff.Proofs.Node.Sameness

namespace MarkupDiff.Node

open Markup (Item Aside keepsBlanks settledText)
open Markup.Item (joined joinedAll lined linedAll unmarked unmarkedAll settledItems pendingItems
  trimmedEnd AllProper AllPlain BlankTexts Unbroken Ready)
open Text (isMarkupBlank)

variable {o : Options} {keep : Bool} {is js : List Item}

-- What counts among the nodes of items.
def keptOf (o : Options) (is : List Item) : List Node :=
  keptNormals o (ofItems is)

theorem ofItems_append (is js : List Item) : ofItems (is ++ js) = ofItems is ++ ofItems js := by
  induction is with
  | nil => rfl
  | cons i is ih => rw [List.cons_append, ofItems, ih, ofItems, List.append_assoc]

theorem keptOf_append (is js : List Item) : keptOf o (is ++ js) = keptOf o is ++ keptOf o js := by
  rw [keptOf, ofItems_append, keptNormals_append]
  rfl

theorem keptOf_cons (i : Item) (is : List Item) :
    keptOf o (i :: is) = keptOf o [i] ++ keptOf o is :=
  keptOf_append [i] is

theorem keptOf_text (s : String) : keptOf o [.text s] = [text s] := rfl

theorem keptOf_aside (kind : Aside) (s : String) : keptOf o [.aside kind s] = [] := by
  cases kind <;> rfl

theorem keptOf_element (tag : String) (attrs : List (String × String)) (children : List Item) :
    keptOf o [.element tag attrs children] =
      if o.prunes tag then []
      else [element tag (Attr.sorted (attrs.map Attr.ofPair))
        (settled o (normals o (ofItems children)))] := by
  simp only [keptOf, ofItems, ofItem, List.append_nil, keptNormals, List.filter_cons, isPruned,
    List.filter_nil]
  by_cases htag : o.prunes tag = true
  · simp [htag, normals]
  · simp [htag, normals, normal]

theorem settled_ofItems (is : List Item) :
    settled o (normals o (ofItems is)) = (mergeTexts (keptOf o is)).filter (!·.isBlankText) :=
  settled_normals_eq _

-- The elements among items count alike before and after they are spelled.
def Alike (o : Options) (keep : Bool) (is : List Item) : Prop :=
  ∀ tag attrs children, .element tag attrs children ∈ is →
    keptOf o [joined keep (.element tag attrs (linedAll children))] =
      keptOf o [.element tag attrs children]

theorem Alike.tail {i : Item} (h : Alike o keep (i :: is)) : Alike o keep is :=
  fun tag attrs children hmem => h tag attrs children (List.mem_cons_of_mem _ hmem)

-- Where joining changes nothing that counts, the same texts come together.
theorem mergeTexts_joinedAll {pending : List Char} (h : Ready keep pending is)
    (halike : Alike o keep is) :
    mergeTexts (keptOf o (joinedAll keep pending (linedAll is))) =
      mergeTexts (keptOf o (pendingItems pending ++ is)) := by
  induction is generalizing pending with
  | nil => rw [linedAll, joinedAll, h.settledItems_eq, List.append_nil]
  | cons i is ih =>
    have hrest := ih h.rest halike.tail
    cases i with
    | text s =>
      have hjoined := ih h.text halike.tail
      rw [linedAll, lined, List.singleton_append, joinedAll, hjoined]
      have hne : s.toList ≠ [] := (Item.allProper_append.mp h.proper).2.1.1
      cases pending with
      | nil => simp [pendingItems, hne]
      | cons c cs =>
        have hmerge := mergeTexts_text_text (.ofList (c :: cs)) s (keptOf o is)
        rw [← String.ofList_toList (s := s), ← String.ofList_append, String.ofList_toList] at hmerge
        exact hmerge.symm
    | element tag attrs children =>
      have hhere := halike tag attrs children List.mem_cons_self
      rw [linedAll, lined, List.singleton_append, joinedAll, h.settledItems_eq, keptOf_append,
        keptOf_cons, hhere, keptOf_append, keptOf_cons (.element tag attrs children) is,
        ← List.append_assoc, ← List.append_assoc]
      exact mergeTexts_append_congr hrest _
    | aside kind s =>
      have hdoctype : kind ≠ .doctype := by
        rintro rfl
        exact h.unbroken.1 s (List.mem_append_right _ List.mem_cons_self)
      obtain ⟨k, t, hlined⟩ := Item.exists_lined_aside s hdoctype
      rw [linedAll, hlined, List.singleton_append, joinedAll, h.settledItems_eq, keptOf_append,
        keptOf_cons, joined, keptOf_aside, keptOf_append, keptOf_cons (.aside kind s) is,
        keptOf_aside]
      exact mergeTexts_append_congr hrest _

-- Blank texts that come together stay blank.
theorem filter_mergeTexts_of_blank {ns : List Node}
    (h : ∀ s, text s ∈ ns → (text s).isBlankText = true) :
    (mergeTexts ns).filter (!·.isBlankText) = ns.filter (!·.isBlankText) := by
  induction ns with
  | nil => rfl
  | cons n ns ih =>
    have hrest := ih fun s hs => h s (List.mem_cons_of_mem _ hs)
    by_cases hn : IsText n
    · obtain ⟨s, rfl⟩ := isText_iff.mp hn
      have hs := h s List.mem_cons_self
      rw [mergeTexts]
      split
      · rename_i t rest heq
        have ht : (text t).isBlankText = true := by
          by_contra hnot
          have hmem : text t ∈ ns.filter (!·.isBlankText) := by
            rw [← hrest, heq]
            exact List.mem_filter.mpr ⟨List.mem_cons_self, by simpa using hnot⟩
          exact hnot (h t (List.mem_cons_of_mem _ (List.mem_filter.mp hmem).1))
        have hst : (text (s ++ t)).isBlankText = true := by
          simp only [isBlankText] at hs ht ⊢
          rw [String.toList_append, List.all_append, hs, ht, Bool.true_and]
        rw [heq] at hrest
        simpa [hs, ht, hst] using hrest
      · simpa [hs] using hrest
    · rw [mergeTexts_cons_of_not_isText hn, List.filter_cons, hrest, List.filter_cons]

theorem text_mem_keptOf {s : String} (h : text s ∈ keptOf o is) : .text s ∈ is := by
  induction is with
  | nil => exact absurd h List.not_mem_nil
  | cons i is ih =>
    rw [keptOf_cons] at h
    rcases List.mem_append.mp h with hhead | htail
    · cases i with
      | text t =>
        rw [keptOf_text, List.mem_singleton] at hhead
        rw [Node.text.inj hhead]
        exact List.mem_cons_self
      | element tag attrs children =>
        rw [keptOf_element] at hhead
        split at hhead
        · exact absurd hhead List.not_mem_nil
        · exact Node.noConfusion (List.mem_singleton.mp hhead)
      | aside kind t =>
        rw [keptOf_aside] at hhead
        exact absurd hhead List.not_mem_nil
    · exact List.mem_cons_of_mem _ (ih htail)

-- What counts among items besides blank texts.
def countedOf (o : Options) (is : List Item) : List Node :=
  (keptOf o is).filter (!·.isBlankText)

theorem countedOf_append (is js : List Item) :
    countedOf o (is ++ js) = countedOf o is ++ countedOf o js := by
  rw [countedOf, keptOf_append, List.filter_append]
  rfl

theorem countedOf_cons (i : Item) (is : List Item) :
    countedOf o (i :: is) = countedOf o [i] ++ countedOf o is :=
  countedOf_append [i] is

theorem countedOf_text {s : String} (h : s.toList.all isMarkupBlank = true) :
    countedOf o [.text s] = [] := by
  rw [countedOf, keptOf_text]
  simp [isBlankText, h]

-- Where all texts are blank, no text counts.
theorem settled_of_blankTexts (h : BlankTexts is) :
    settled o (normals o (ofItems is)) = countedOf o is := by
  rw [settled_ofItems, filter_mergeTexts_of_blank fun s hs => h s (text_mem_keptOf hs)]
  rfl

theorem countedOf_settledItems {pending : List Char} (h : pending.all isMarkupBlank = true) :
    countedOf o (settledItems keep pending) = [] := by
  unfold settledItems
  split
  · rfl
  · exact countedOf_text (by rw [String.toList_ofList]; exact Item.all_settledText h)

theorem countedOf_joinedAll {pending : List Char} (hpending : pending.all isMarkupBlank = true)
    (h : BlankTexts is) :
    countedOf o (joinedAll keep pending is) = countedOf o (is.map (joined keep)) := by
  induction is generalizing pending with
  | nil => exact countedOf_settledItems hpending
  | cons i is ih =>
    obtain ⟨hhead, htail⟩ := Item.blankTexts_cons.mp h
    cases i with
    | text s =>
      have hs : s.toList.all isMarkupBlank = true := hhead s List.mem_cons_self
      rw [joinedAll, ih (by rw [List.all_append, hpending, hs, Bool.and_self]) htail,
        List.map_cons, countedOf_cons, joined, countedOf_text hs, List.nil_append]
    | element tag attrs children =>
      rw [joinedAll, countedOf_append, countedOf_settledItems hpending, List.nil_append,
        countedOf_cons, ih rfl htail, List.map_cons, ← countedOf_cons]
    | aside kind s =>
      rw [joinedAll, countedOf_append, countedOf_settledItems hpending, List.nil_append,
        countedOf_cons, ih rfl htail, List.map_cons, ← countedOf_cons]

theorem countedOf_trimmedEnd (h : BlankTexts is) :
    countedOf o ((trimmedEnd is).map (joined keep)) = countedOf o (is.map (joined keep)) := by
  induction is with
  | nil => rfl
  | cons i is ih =>
    obtain ⟨hhead, htail⟩ := Item.blankTexts_cons.mp h
    have hrest := ih htail
    rw [trimmedEnd, List.map_cons, countedOf_cons, ← hrest]
    cases trimmedEnd is with
    | nil =>
      cases i with
      | text s =>
        have hs : s.toList.all isMarkupBlank = true := hhead s List.mem_cons_self
        simp only [Item.lastTrimmed_of_blank hhead, joined, countedOf_text hs]
        rfl
      | element tag attrs children => exact (List.append_nil _).symm
      | aside kind s => exact (List.append_nil _).symm
    | cons j js => rw [List.map_cons, countedOf_cons]

theorem countedOf_linedAll (halike : Alike o keep is) :
    countedOf o ((linedAll is).map (joined keep)) = countedOf o is := by
  induction is with
  | nil => rfl
  | cons i is ih =>
    have hhere : countedOf o ((lined i).map (joined keep)) = countedOf o [i] := by
      cases i with
      | text s => rfl
      | element tag attrs children =>
        have hhere := halike tag attrs children List.mem_cons_self
        simp only [lined, List.map_cons, List.map_nil, countedOf, hhere]
      | aside kind s =>
        cases kind <;> rfl
    rw [linedAll, List.map_append, countedOf_append, hhere, ih halike.tail, ← countedOf_cons]

-- Where joining changes nothing that counts or no text counts, siblings settle as if they had not
-- been spelled.
theorem settled_joinedAll_linedAll (hproper : AllProper keep is)
    (hplain : BlankTexts is ∨ Unbroken keep is) (halike : Alike o keep is) :
    settled o (normals o (ofItems (joinedAll keep [] (linedAll is)))) =
      settled o (normals o (ofItems is)) := by
  rcases hplain with hblank | hunbroken
  · have hlined := Item.blankTexts_linedAll hblank
    rw [settled_of_blankTexts (Item.blankTexts_joinedAll rfl hlined), settled_of_blankTexts hblank,
      countedOf_joinedAll rfl hlined, countedOf_linedAll halike]
  · rw [settled_ofItems, settled_ofItems, mergeTexts_joinedAll ⟨hproper, hunbroken⟩ halike]
    rfl

theorem prunes_of_raw {tag : String} (h : Markup.Scan.rawElements.contains tag = true) :
    o.prunes tag = true := by
  rcases Markup.Scan.script_or_style h with rfl | rfl <;> rfl

mutual

theorem alike_singleton (keep : Bool) (i : Item) (hproper : i.Proper keep) (hplain : i.Plain keep) :
    Alike o keep [i] := by
  cases i with
  | text s => exact fun _ _ _ hmem => absurd (List.mem_singleton.mp hmem) (by simp)
  | aside kind s => exact fun _ _ _ hmem => absurd (List.mem_singleton.mp hmem) (by simp)
  | element tag attrs children =>
    intro t as cs hmem
    obtain ⟨rfl, rfl, rfl⟩ := Item.element.inj (List.mem_singleton.mp hmem)
    obtain ⟨_, _, _, hcalm⟩ := hproper
    obtain ⟨_, hsiblings, hchildren⟩ := hplain
    rw [joined, keptOf_element, keptOf_element]
    by_cases hraw : Markup.Scan.rawElements.contains t = true
    · have hpruned := prunes_of_raw (o := o) hraw
      rw [if_pos hpruned, if_pos hpruned]
    · rw [Bool.not_eq_true] at hraw
      have halike := alike_of_plain _ cs (hcalm hraw) hchildren
      rw [settled_joinedAll_linedAll (hcalm hraw) hsiblings halike]

-- Elements of plain items count alike before and after they are spelled.
theorem alike_of_plain (keep : Bool) (is : List Item) (hproper : AllProper keep is)
    (hplain : AllPlain keep is) : Alike o keep is := by
  cases is with
  | nil => exact fun _ _ _ hmem => absurd hmem List.not_mem_nil
  | cons i is =>
    have hhead := alike_singleton keep i hproper.1 hplain.1
    have htail := alike_of_plain keep is hproper.2 hplain.2
    intro tag attrs children hmem
    rcases List.mem_cons.mp hmem with heq | hmem
    · exact hhead tag attrs children (List.mem_singleton.mpr heq)
    · exact htail tag attrs children hmem

end

mutual

theorem keptOf_unmarked (i : Item) : keptOf o (unmarked false i) = keptOf o [i] := by
  cases i with
  | text s => rfl
  | aside kind s =>
    cases kind with
    | comment =>
      rw [unmarked]
      split <;> rfl
    | _ => rfl
  | element tag attrs children =>
    rw [unmarked, keptOf_element, keptOf_element]
    by_cases hraw : Markup.Scan.rawElements.contains tag = true
    · have hpruned := prunes_of_raw (o := o) hraw
      rw [if_pos hpruned, if_pos hpruned]
    · rw [Bool.not_eq_true] at hraw
      rw [hraw, settled_ofItems, keptOf_unmarkedAll children, ← settled_ofItems]

-- Markers do not count.
theorem keptOf_unmarkedAll (is : List Item) : keptOf o (unmarkedAll false is) = keptOf o is := by
  cases is with
  | nil => rfl
  | cons i is =>
    rw [unmarkedAll, keptOf_append, keptOf_unmarked i, keptOf_unmarkedAll is, ← keptOf_cons]

end

end MarkupDiff.Node

namespace MarkupDiff.Fragment

open Markup (Item)
open Markup.Item (unmarkedAll trimmed trimmedEnd linedAll AllProper)

theorem normal_unmarkedAll {o : Options} (is : List Item) :
    normal o (Node.ofItems (unmarkedAll false is)) = normal o (Node.ofItems is) := by
  change Node.settled o (Node.normals o _) = Node.settled o (Node.normals o _)
  rw [Node.settled_ofItems, Node.keptOf_unmarkedAll, ← Node.settled_ofItems]

-- A plain document is read from its spelling, up to what does not count, as it is without markers
-- and without the blanks around it.
theorem normal_respelled_of_plain {o : Options} {is : List Item}
    (hproper : AllProper false (unmarkedAll false is))
    (hplain : Item.PlainDocument (trimmed (unmarkedAll false is))) :
    normal o (Node.ofItems (Item.respelled is)) =
      normal o (Node.ofItems (trimmed (unmarkedAll false is))) := by
  obtain ⟨hsiblings, hall⟩ := hplain
  have htrimmed := Item.allProper_trimmed hproper
  have halike : Node.Alike o false _ := Node.alike_of_plain false _ htrimmed hall
  rw [Item.respelled_of_plain hall]
  change Node.settled o (Node.normals o _) = Node.settled o (Node.normals o _)
  rcases hsiblings with hblank | hunbroken
  · have hlined := Item.blankTexts_linedAll hblank
    have hend := Item.blankTexts_trimmedEnd hlined
    rw [Node.settled_of_blankTexts (Item.blankTexts_joinedAll rfl hend),
      Node.settled_of_blankTexts hblank, Node.countedOf_joinedAll rfl hend,
      Node.countedOf_trimmedEnd hlined, Node.countedOf_linedAll halike]
  · rw [Item.trimmedEnd_linedAll_of_no_doctype hunbroken.1, Item.trimmedEnd_trimmed,
      Node.settled_joinedAll_linedAll htrimmed (.inr hunbroken) halike]

end MarkupDiff.Fragment
