import MarkupDiff.Markup.Marker
import MarkupDiff.Markup.Printed
import MarkupDiff.Proofs.Markup.Shape
import Mathlib.Data.List.DropRight

namespace MarkupDiff.Markup.Item

open Text (isBlank)

variable {f : String → List (String × String) → List (String × String)}

mutual

-- An item without markers: empty comments are gone, and markers are taken out of raw text.
def unmarked (raw : Bool) : Item → List Item
  | element tag attrs children =>
    [element tag attrs (unmarkedAll (Scan.rawElements.contains tag) children)]
  | text s => [text (if raw then .ofList (withoutMarkers s.toList) else s)]
  | aside .comment s => if s.toList.isEmpty then [] else [aside .comment s]
  | aside kind s => [aside kind s]

def unmarkedAll (raw : Bool) : List Item → List Item
  | [] => []
  | i :: is => unmarked raw i ++ unmarkedAll raw is

end

mutual

-- The item with other attributes on every element.
def mapAttrs (f : String → List (String × String) → List (String × String)) : Item → Item
  | element tag attrs children => element tag (f tag attrs) (mapAttrsAll f children)
  | text s => text s
  | aside kind s => aside kind s

def mapAttrsAll (f : String → List (String × String) → List (String × String)) :
    List Item → List Item
  | [] => []
  | i :: is => mapAttrs f i :: mapAttrsAll f is

end

mutual

-- What an item is in its canonical spelling: a line ends after a document type, and a declaration
-- has the marks of an instruction.
def lined : Item → List Item
  | element tag attrs children => [element tag attrs (linedAll children)]
  | text s => [text s]
  | aside .doctype s => [aside .doctype s, text "\n"]
  | aside .declaration s => [aside .instruction (s ++ "?")]
  | aside kind s => [aside kind s]

def linedAll : List Item → List Item
  | [] => []
  | i :: is => lined i ++ linedAll is

end

-- Without the blanks at the beginning.
def trimmedStart : List Item → List Item
  | text s :: is =>
    if s.toList.all isBlank then trimmedStart is
    else text (.ofList (s.toList.dropWhile isBlank)) :: is
  | is => is

-- The last item without the blanks at its end.
def lastTrimmed : Item → List Item
  | text s =>
    if s.toList.all isBlank then [] else [text (.ofList (s.toList.rdropWhile isBlank))]
  | i => [i]

-- Without the blanks at the end.
def trimmedEnd : List Item → List Item
  | [] => []
  | i :: is =>
    match trimmedEnd is with
    | [] => lastTrimmed i
    | j :: js => i :: j :: js

def trimmed (is : List Item) : List Item :=
  trimmedEnd (trimmedStart is)

-- Text that has come together, settled; none is no item.
def settledItems (keep : Bool) (pending : List Char) : List Item :=
  if pending.isEmpty then [] else [text (.ofList (settledText keep pending))]

mutual

-- An item whose texts are joined where they stand next to each other, and settled.
def joined (keep : Bool) : Item → Item
  | element tag attrs children =>
    element tag attrs (joinedAll (keepsBlanks tag || keep) [] children)
  | text s => text s
  | aside kind s => aside kind (.ofList (settledText keep s.toList))

-- Items after text that is still to be joined.
def joinedAll (keep : Bool) (pending : List Char) : List Item → List Item
  | [] => settledItems keep pending
  | i :: is =>
    match i with
    | text s => joinedAll keep (pending ++ s.toList) is
    | element tag attrs children =>
      settledItems keep pending ++ joined keep (element tag attrs children) :: joinedAll keep [] is
    | aside kind s =>
      settledItems keep pending ++ joined keep (aside kind s) :: joinedAll keep [] is

end

-- The document that is read from the canonical spelling of a document, without markers and without
-- the blanks around it: the encoding is the one in which markup is written, and texts come
-- together.
def respelled (is : List Item) : List Item :=
  joinedAll false [] (trimmed (linedAll (mapAttrsAll encodingAttrs (unmarkedAll false is))))

theorem mapAttrsAll_append (is js : List Item) :
    mapAttrsAll f (is ++ js) = mapAttrsAll f is ++ mapAttrsAll f js := by
  induction is with
  | nil => rfl
  | cons i is ih => rw [List.cons_append, mapAttrsAll, ih, mapAttrsAll, List.cons_append]

mutual

theorem lined_mapAttrs (i : Item) : lined (mapAttrs f i) = mapAttrsAll f (lined i) := by
  cases i with
  | element tag attrs children =>
    simp only [mapAttrs, lined, mapAttrsAll, linedAll_mapAttrsAll children]
  | text s => rfl
  | aside kind s => cases kind <;> rfl

theorem linedAll_mapAttrsAll (is : List Item) :
    linedAll (mapAttrsAll f is) = mapAttrsAll f (linedAll is) := by
  cases is with
  | nil => rfl
  | cons i is =>
    rw [mapAttrsAll, linedAll, lined_mapAttrs i, linedAll_mapAttrsAll is, linedAll,
      mapAttrsAll_append]

end

theorem trimmedStart_mapAttrsAll (is : List Item) :
    trimmedStart (mapAttrsAll f is) = mapAttrsAll f (trimmedStart is) := by
  induction is with
  | nil => rfl
  | cons i is ih =>
    cases i with
    | element tag attrs children => rfl
    | aside kind s => rfl
    | text s =>
      simp only [mapAttrsAll, mapAttrs, trimmedStart]
      split
      · exact ih
      · rfl

theorem trimmedEnd_mapAttrsAll (is : List Item) :
    trimmedEnd (mapAttrsAll f is) = mapAttrsAll f (trimmedEnd is) := by
  induction is with
  | nil => rfl
  | cons i is ih =>
    rw [mapAttrsAll, trimmedEnd, ih, trimmedEnd]
    cases trimmedEnd is with
    | nil =>
      cases i with
      | element tag attrs children => rfl
      | aside kind s => rfl
      | text s =>
        simp only [mapAttrsAll, mapAttrs, lastTrimmed]
        split <;> rfl
    | cons j js => rfl

theorem mapAttrsAll_settledItems (keep : Bool) (pending : List Char) :
    mapAttrsAll f (settledItems keep pending) = settledItems keep pending := by
  unfold settledItems
  split <;> rfl

mutual

theorem joined_mapAttrs (keep : Bool) (i : Item) :
    joined keep (mapAttrs f i) = mapAttrs f (joined keep i) := by
  cases i with
  | element tag attrs children =>
    rw [mapAttrs, joined, joinedAll_mapAttrsAll _ _ children, joined, mapAttrs]
  | text s => rfl
  | aside kind s => rfl

theorem joinedAll_mapAttrsAll (keep : Bool) (pending : List Char) (is : List Item) :
    joinedAll keep pending (mapAttrsAll f is) = mapAttrsAll f (joinedAll keep pending is) := by
  cases is with
  | nil => rw [mapAttrsAll, joinedAll, mapAttrsAll_settledItems]
  | cons i is =>
    have hrest := joinedAll_mapAttrsAll keep [] is
    cases i with
    | text s => exact joinedAll_mapAttrsAll keep (pending ++ s.toList) is
    | element tag attrs children =>
      have hhere := joined_mapAttrs keep (.element tag attrs children)
      rw [mapAttrs] at hhere
      rw [mapAttrsAll, mapAttrs, joinedAll, hrest, hhere, joinedAll, mapAttrsAll_append,
        mapAttrsAll_settledItems, mapAttrsAll]
    | aside kind s =>
      rw [mapAttrsAll, mapAttrs, joinedAll, hrest, joinedAll, mapAttrsAll_append,
        mapAttrsAll_settledItems, mapAttrsAll]
      rfl

end

variable {g : String → List (String × String) → List (String × String)}

mutual

theorem mapAttrs_mapAttrs (i : Item) :
    mapAttrs g (mapAttrs f i) = mapAttrs (fun tag attrs => g tag (f tag attrs)) i := by
  cases i with
  | element tag attrs children =>
    rw [mapAttrs, mapAttrs, mapAttrs, mapAttrsAll_mapAttrsAll children]
  | text s => rfl
  | aside kind s => rfl

theorem mapAttrsAll_mapAttrsAll (is : List Item) :
    mapAttrsAll g (mapAttrsAll f is) = mapAttrsAll (fun tag attrs => g tag (f tag attrs)) is := by
  cases is with
  | nil => rfl
  | cons i is =>
    rw [mapAttrsAll, mapAttrsAll, mapAttrsAll, mapAttrs_mapAttrs i, mapAttrsAll_mapAttrsAll is]

end

mutual

theorem mapAttrs_congr (i : Item)
    (h : ∀ tag attrs children, Within (element tag attrs children) [i] →
      f tag attrs = g tag attrs) : mapAttrs f i = mapAttrs g i := by
  cases i with
  | element tag attrs children =>
    have hhere := h tag attrs children (.here List.mem_cons_self)
    have hinside := mapAttrsAll_congr children fun tag attrs children hw =>
      h tag attrs children (.inside List.mem_cons_self hw)
    rw [mapAttrs, mapAttrs, hhere, hinside]
  | text s => rfl
  | aside kind s => rfl

theorem mapAttrsAll_congr (is : List Item)
    (h : ∀ tag attrs children, Within (element tag attrs children) is →
      f tag attrs = g tag attrs) : mapAttrsAll f is = mapAttrsAll g is := by
  cases is with
  | nil => rfl
  | cons i is =>
    have hhead := mapAttrs_congr i fun tag attrs children hw =>
      h tag attrs children (within_cons.mpr (.inl hw))
    have htail := mapAttrsAll_congr is fun tag attrs children hw =>
      h tag attrs children (within_cons.mpr (.inr hw))
    rw [mapAttrsAll, mapAttrsAll, hhead, htail]

end

theorem joinedAll_trimmed_linedAll_mapAttrsAll (is : List Item) :
    joinedAll false [] (trimmed (linedAll (mapAttrsAll f is))) =
      mapAttrsAll f (joinedAll false [] (trimmed (linedAll is))) := by
  rw [linedAll_mapAttrsAll, trimmed, trimmedStart_mapAttrsAll, trimmedEnd_mapAttrsAll,
    joinedAll_mapAttrsAll, trimmed]

end MarkupDiff.Markup.Item
