import MarkupDiff.Proofs.Markup.Markers
import MarkupDiff.Proofs.Markup.Respelling

namespace MarkupDiff.Markup.Item

open Text (isBlank)

-- The attributes of an element as its start tag spells them.
def spelledAttrs (tag : String) (attrs : List (String × String)) : List (String × String) :=
  ((encodingAttrs tag attrs).mergeSort attrBefore).map fun (name, value) =>
    (name, if isWordList tag name then " ".intercalate (wordsOf value) else value)

-- An aside between its marks, with nothing after them.
def asideSpelling (kind : Aside) (content : List Char) : List Char :=
  match kind with
  | .comment => '<' :: '!' :: '-' :: '-' :: (content ++ ['-', '-', '>'])
  | .doctype => '<' :: '!' :: ("DOCTYPE ".toList ++ (content ++ ['>']))
  | .characterData => '<' :: '!' :: ("[CDATA[".toList ++ (content ++ [']', ']', '>']))
  | .declaration => '<' :: '?' :: (content ++ ['>'])
  | .instruction => '<' :: '?' :: (content ++ ['>'])

mutual

-- An item as markup, with its attributes as they are.
def spelling (raw : Bool) : Item → List Char
  | element tag attrs children =>
    '<' :: (tag.toList ++ (attrs.flatMap Tag.attrSpelling ++
      if children.isEmpty && voidElements.contains tag then ['/', '>']
      else '>' :: (spellingAll (Scan.rawElements.contains tag) children ++
        '<' :: '/' :: (tag.toList ++ ['>']))))
  | text s => if raw then s.toList else s.toList.flatMap escapedChar
  | aside kind s => asideSpelling kind s.toList

def spellingAll (raw : Bool) : List Item → List Char
  | [] => []
  | i :: is => spelling raw i ++ spellingAll raw is

end

theorem spellingAll_append (raw : Bool) (is js : List Item) :
    spellingAll raw (is ++ js) = spellingAll raw is ++ spellingAll raw js := by
  induction is with
  | nil => rfl
  | cons i is ih => rw [List.cons_append, spellingAll, ih, spellingAll, List.append_assoc]

theorem toList_attrsText (tag : String) (attrs : List (String × String)) :
    (attrsText tag attrs).toList = (spelledAttrs tag attrs).flatMap Tag.attrSpelling := by
  rw [attrsText, String.toList_join, spelledAttrs, List.flatMap_map, List.flatMap_map]
  congr 1
  funext a
  simp [Tag.attrSpelling]

theorem isEmpty_linedAll_mapAttrsAll
    {f : String → List (String × String) → List (String × String)} (is : List Item) :
    (linedAll (mapAttrsAll f is)).isEmpty = is.isEmpty := by
  cases is with
  | nil => rfl
  | cons i is =>
    cases i with
    | element tag attrs children => rfl
    | text s => rfl
    | aside kind s => cases kind <;> rfl

mutual

theorem toList_printed (raw : Bool) (i : Item) :
    (printed raw i).toList = spellingAll raw (lined (mapAttrs spelledAttrs i)) := by
  cases i with
  | element tag attrs children =>
    have hchildren := toList_printedAll (Scan.rawElements.contains tag) children
    simp only [printed, mapAttrs, lined, spellingAll, spelling, isEmpty_linedAll_mapAttrsAll,
      List.append_nil]
    split
    · simp [toList_attrsText]
    · simp only [String.toList_append, toList_attrsText, hchildren]
      simp
  | text s =>
    cases raw <;> simp [printed, mapAttrs, lined, spellingAll, spelling, escaped]
  | aside kind s =>
    cases kind with
    | doctype =>
      cases raw <;>
        simp [printed, asideText, mapAttrs, lined, spellingAll, spelling, asideSpelling,
          escapedChar]
    | _ => simp [printed, asideText, mapAttrs, lined, spellingAll, spelling, asideSpelling]

theorem toList_printedAll (raw : Bool) (is : List Item) :
    (printedAll raw is).toList = spellingAll raw (linedAll (mapAttrsAll spelledAttrs is)) := by
  cases is with
  | nil => rfl
  | cons i is =>
    rw [printedAll, String.toList_append, toList_printed raw i, toList_printedAll raw is,
      mapAttrsAll, linedAll, spellingAll_append]

end

theorem printedAll_append (raw : Bool) (is js : List Item) :
    printedAll raw (is ++ js) = printedAll raw is ++ printedAll raw js := by
  induction is with
  | nil => simp [printedAll]
  | cons i is ih => rw [List.cons_append, printedAll, ih, printedAll, String.append_assoc]

theorem toList_printed_element {tag : String} {attrs : List (String × String)}
    {children : List Item} (h : (children.isEmpty && voidElements.contains tag) = false) :
    (printed false (element tag attrs children)).toList =
      ("<" ++ tag ++ attrsText tag attrs ++ ">").toList ++
        (printedAll (Scan.rawElements.contains tag) children).toList ++
          ("</" ++ tag ++ ">").toList := by
  rw [printed]
  simp only [h, Bool.false_eq_true, if_false, String.toList_append, List.append_assoc]

mutual

-- The spelling of an item loses its markers where the item does.
theorem withoutMarkers_printed (keep : Bool) (i : Item) (h : i.Proper keep) (x y : List Char) :
    withoutMarkers (x ++ (printed false i).toList ++ y) =
      withoutMarkers (x ++ (printedAll false (unmarked false i)).toList ++ y) := by
  cases i with
  | text s => simp [unmarked, printedAll]
  | aside kind s =>
    cases kind with
    | comment =>
      rw [unmarked]
      split
      · rename_i hempty
        obtain rfl : s = "" := by simpa using hempty
        have hmarker := withoutMarkers_append_marker x y
        simpa [printed, asideText, printedAll, marker] using hmarker
      · simp [printedAll]
    | _ => simp [unmarked, printedAll]
  | element tag attrs children =>
    obtain ⟨_, hvoid, hraw, hcalm⟩ := h
    rw [unmarked, printedAll, printedAll, String.append_empty]
    by_cases hvoidTag : voidElements.contains tag = true
    · rw [hvoid hvoidTag]
      rfl
    · have hbranch : ∀ is : List Item, (is.isEmpty && voidElements.contains tag) = false := by
        intro is
        rw [Bool.not_eq_true] at hvoidTag
        rw [hvoidTag, Bool.and_false]
      rw [toList_printed_element (hbranch _), toList_printed_element (hbranch _)]
      by_cases hrawTag : Scan.rawElements.contains tag = true
      · rcases hraw hrawTag with rfl | ⟨s, rfl, _⟩
        · rfl
        · have htext := withoutMarkers_append_withoutMarkers
            (x ++ ("<" ++ tag ++ attrsText tag attrs ++ ">").toList) s.toList
            (("</" ++ tag ++ ">").toList ++ y)
          rw [hrawTag]
          simpa [unmarkedAll, unmarked, printedAll, printed] using htext.symm
      · rw [Bool.not_eq_true] at hrawTag
        have hinside := withoutMarkers_printedAll _ children (hcalm hrawTag)
          (x ++ ("<" ++ tag ++ attrsText tag attrs ++ ">").toList)
          (("</" ++ tag ++ ">").toList ++ y)
        rw [hrawTag]
        simpa only [List.append_assoc] using hinside

theorem withoutMarkers_printedAll (keep : Bool) (is : List Item) (h : AllProper keep is)
    (x y : List Char) :
    withoutMarkers (x ++ (printedAll false is).toList ++ y) =
      withoutMarkers (x ++ (printedAll false (unmarkedAll false is)).toList ++ y) := by
  cases is with
  | nil => rfl
  | cons i is =>
    have hhead := withoutMarkers_printed keep i h.1 x ((printedAll false is).toList ++ y)
    have htail := withoutMarkers_printedAll keep is h.2
      (x ++ (printedAll false (unmarked false i)).toList) y
    rw [printedAll, unmarkedAll, printedAll_append, String.toList_append, String.toList_append]
    simp only [List.append_assoc] at hhead htail ⊢
    rw [hhead, htail]

end

theorem flatMap_escapedChar_eq_nil {cs : List Char} (h : cs.flatMap escapedChar = []) :
    cs = [] := by
  cases cs with
  | nil => rfl
  | cons c cs =>
    have hc := (List.append_eq_nil_iff.mp (List.flatMap_cons ▸ h)).1
    unfold escapedChar at hc
    split at hc <;> exact absurd hc (List.cons_ne_nil _ _)

theorem dropWhile_flatMap_escapedChar (cs : List Char) :
    (cs.flatMap escapedChar).dropWhile isBlank = (cs.dropWhile isBlank).flatMap escapedChar := by
  induction cs with
  | nil => rfl
  | cons c cs ih =>
    by_cases hc : isBlank c = true
    · have hchar : escapedChar c = [c] := by
        unfold escapedChar
        split <;> first | rfl | exact absurd hc (by decide)
      rw [List.flatMap_cons, hchar, List.singleton_append, List.dropWhile_cons_of_pos hc, ih,
        List.dropWhile_cons_of_pos hc]
    · obtain ⟨d, ds, hchar, hd⟩ : ∃ d ds, escapedChar c = d :: ds ∧ isBlank d = false := by
        unfold escapedChar
        split
        · exact ⟨_, _, rfl, rfl⟩
        · exact ⟨_, _, rfl, rfl⟩
        · exact ⟨_, _, rfl, rfl⟩
        · exact ⟨c, [], rfl, by simpa using hc⟩
      rw [List.dropWhile_cons_of_neg hc, List.flatMap_cons, hchar, List.cons_append,
        List.dropWhile_cons_of_neg (by simp [hd])]

theorem rdropWhile_flatMap_escapedChar (cs : List Char) :
    (cs.flatMap escapedChar).rdropWhile isBlank = (cs.rdropWhile isBlank).flatMap escapedChar := by
  induction cs using List.reverseRecOn with
  | nil => rfl
  | append_singleton cs c ih =>
    rw [List.flatMap_append, List.flatMap_singleton]
    by_cases hc : isBlank c = true
    · have hchar : escapedChar c = [c] := by
        unfold escapedChar
        split <;> first | rfl | exact absurd hc (by decide)
      rw [hchar, List.rdropWhile_concat_pos _ _ _ hc, ih, List.rdropWhile_concat_pos _ _ _ hc]
    · obtain ⟨ds, d, hchar, hd⟩ : ∃ ds d, escapedChar c = ds ++ [d] ∧ isBlank d = false := by
        unfold escapedChar
        split
        · exact ⟨"&amp".toList, ';', rfl, rfl⟩
        · exact ⟨"&lt".toList, ';', rfl, rfl⟩
        · exact ⟨"&gt".toList, ';', rfl, rfl⟩
        · exact ⟨[], c, rfl, by simpa using hc⟩
      rw [List.rdropWhile_concat_neg _ _ _ hc, List.flatMap_append, List.flatMap_singleton, hchar,
        ← List.append_assoc, List.rdropWhile_concat_neg _ _ _ (by simp [hd])]

-- What is no text is spelled between angle brackets.
theorem exists_spelling {i : Item} (hi : ∀ s, i ≠ text s) (raw : Bool) :
    (∃ cs, spelling raw i = '<' :: cs) ∧ ∃ cs, spelling raw i = cs ++ ['>'] := by
  cases i with
  | text s => exact absurd rfl (hi s)
  | element tag attrs children =>
    refine ⟨⟨_, rfl⟩, ?_⟩
    rw [spelling]
    split
    · exact ⟨'<' :: (tag.toList ++ (attrs.flatMap Tag.attrSpelling ++ ['/'])), by simp⟩
    · exact ⟨'<' :: (tag.toList ++ (attrs.flatMap Tag.attrSpelling ++ '>' ::
        (spellingAll (Scan.rawElements.contains tag) children ++ '<' :: '/' :: tag.toList))),
        by simp⟩
  | aside kind s =>
    cases kind with
    | comment => exact ⟨⟨_, rfl⟩, '<' :: '!' :: '-' :: '-' :: (s.toList ++ ['-', '-']),
        by simp [spelling, asideSpelling]⟩
    | doctype => exact ⟨⟨_, rfl⟩, '<' :: '!' :: ("DOCTYPE ".toList ++ s.toList),
        by simp [spelling, asideSpelling]⟩
    | characterData =>
      exact ⟨⟨_, rfl⟩, '<' :: '!' :: ("[CDATA[".toList ++ (s.toList ++ [']', ']'])),
        by simp [spelling, asideSpelling]⟩
    | declaration => exact ⟨⟨_, rfl⟩, '<' :: '?' :: s.toList, by simp [spelling, asideSpelling]⟩
    | instruction => exact ⟨⟨_, rfl⟩, '<' :: '?' :: s.toList, by simp [spelling, asideSpelling]⟩

theorem trimmedStart_of_not_text {i : Item} (hi : ∀ s, i ≠ text s) (is : List Item) :
    trimmedStart (i :: is) = i :: is := by
  cases i with
  | text s => exact absurd rfl (hi s)
  | element tag attrs children => rfl
  | aside kind s => rfl

theorem dropWhile_spellingAll (is : List Item) :
    (spellingAll false is).dropWhile isBlank = spellingAll false (trimmedStart is) := by
  induction is with
  | nil => rfl
  | cons i is ih =>
    by_cases hi : ∃ s, i = text s
    · obtain ⟨s, rfl⟩ := hi
      have hspelling : spelling false (text s) = s.toList.flatMap escapedChar := rfl
      rw [spellingAll, List.dropWhile_append, hspelling, dropWhile_flatMap_escapedChar,
        trimmedStart]
      by_cases hs : s.toList.all isBlank = true
      · have hnil : s.toList.dropWhile isBlank = [] :=
          List.dropWhile_eq_nil_iff.mpr (List.all_eq_true.mp hs)
        rw [if_pos hs, hnil, ← ih]
        rfl
      · rw [if_neg hs, if_neg]
        · simp [spellingAll, spelling]
        · intro hempty
          have hnil := flatMap_escapedChar_eq_nil (List.isEmpty_iff.mp hempty)
          exact hs (List.all_eq_true.mpr (List.dropWhile_eq_nil_iff.mp hnil))
    · have hi : ∀ s, i ≠ text s := fun s hs => hi ⟨s, hs⟩
      obtain ⟨⟨cs, hcs⟩, _⟩ := exists_spelling hi false
      rw [trimmedStart_of_not_text hi, spellingAll, hcs, List.cons_append,
        List.dropWhile_cons_of_neg (by decide)]

theorem rdropWhile_append (p : Char → Bool) (cs ds : List Char) :
    (cs ++ ds).rdropWhile p =
      if ds.rdropWhile p = [] then cs.rdropWhile p else cs ++ ds.rdropWhile p := by
  simp only [List.rdropWhile, List.reverse_append, List.dropWhile_append, List.reverse_eq_nil_iff,
    List.isEmpty_iff]
  split <;> simp

theorem spellingAll_lastTrimmed (i : Item) :
    spellingAll false (lastTrimmed i) = (spelling false i).rdropWhile isBlank ∧
      (lastTrimmed i = [] ↔ (spelling false i).rdropWhile isBlank = []) := by
  by_cases hi : ∃ s, i = text s
  · obtain ⟨s, rfl⟩ := hi
    have hspelling : spelling false (text s) = s.toList.flatMap escapedChar := rfl
    rw [hspelling, rdropWhile_flatMap_escapedChar, lastTrimmed]
    split
    · rename_i hs
      rw [List.rdropWhile_eq_nil_iff.mpr (List.all_eq_true.mp hs)]
      exact ⟨rfl, by simp⟩
    · rename_i hs
      refine ⟨by simp [spellingAll, spelling], ?_⟩
      simp only [List.cons_ne_nil, false_iff]
      exact fun h => hs (List.all_eq_true.mpr
        (List.rdropWhile_eq_nil_iff.mp (flatMap_escapedChar_eq_nil h)))
  · have hi : ∀ s, i ≠ text s := fun s hs => hi ⟨s, hs⟩
    obtain ⟨_, cs, hcs⟩ := exists_spelling hi false
    have hlast : lastTrimmed i = [i] := by
      cases i with
      | text s => exact absurd rfl (hi s)
      | element tag attrs children => rfl
      | aside kind s => rfl
    rw [hlast, spellingAll, spellingAll, List.append_nil, hcs,
      List.rdropWhile_concat_neg _ _ _ (by decide)]
    exact ⟨rfl, by simp⟩

theorem spellingAll_trimmedEnd (is : List Item) :
    spellingAll false (trimmedEnd is) = (spellingAll false is).rdropWhile isBlank ∧
      (trimmedEnd is = [] ↔ (spellingAll false is).rdropWhile isBlank = []) := by
  induction is with
  | nil => exact ⟨rfl, by simp [trimmedEnd, spellingAll]⟩
  | cons i is ih =>
    rw [trimmedEnd, spellingAll, rdropWhile_append]
    cases hrest : trimmedEnd is with
    | nil =>
      rw [hrest] at ih
      rw [if_pos (ih.2.mp rfl)]
      exact spellingAll_lastTrimmed i
    | cons j js =>
      rw [hrest] at ih
      have hne : (spellingAll false is).rdropWhile isBlank ≠ [] := fun h =>
        List.cons_ne_nil _ _ (ih.2.mpr h)
      rw [if_neg hne, ← ih.1]
      refine ⟨rfl, ?_⟩
      rw [ih.1]
      simp [hne]

theorem strip_spellingAll (is : List Item) :
    Text.strip (spellingAll false is) = spellingAll false (trimmed is) := by
  have hstrip : Text.strip (spellingAll false is) =
      ((spellingAll false is).dropWhile isBlank).rdropWhile isBlank := rfl
  rw [hstrip, dropWhile_spellingAll, trimmed, (spellingAll_trimmedEnd _).1]

end MarkupDiff.Markup.Item
