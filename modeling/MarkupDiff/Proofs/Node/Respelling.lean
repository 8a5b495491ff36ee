import MarkupDiff.Proofs.Markup.RoundTrip
import MarkupDiff.Proofs.Node.Sameness

namespace MarkupDiff

open Markup (Item encodingAttrs attrBefore isWordList)
open Markup.Item (mapAttrs mapAttrsAll linedAll trimmed joinedAll spelledAttrs unmarkedAll Within)

-- The attributes of an element in their usual form.
def sortedPairs (attrs : List (String × String)) : List (String × String) :=
  (Attr.sorted (attrs.map Attr.ofPair)).map fun a => (a.name, a.value)

theorem map_ofPair_sortedPairs (attrs : List (String × String)) :
    (sortedPairs attrs).map Attr.ofPair = Attr.sorted (attrs.map Attr.ofPair) := by
  rw [sortedPairs, List.map_map]
  exact List.map_id _

namespace Node

variable {o : Options}

theorem normals_append (ms ns : List Node) :
    normals o (ms ++ ns) = normals o ms ++ normals o ns := by
  simp [normals_eq_map]

mutual

theorem normals_ofItem_sortedPairs (i : Item) :
    normals o (ofItem (mapAttrs (fun _ => sortedPairs) i)) = normals o (ofItem i) := by
  cases i with
  | text s => rfl
  | aside kind s => rfl
  | element tag attrs children =>
    simp only [mapAttrs, ofItem, normals, normal, map_ofPair_sortedPairs, Attr.sorted_sorted,
      normals_ofItems_sortedPairs children]

theorem normals_ofItems_sortedPairs (is : List Item) :
    normals o (ofItems (mapAttrsAll (fun _ => sortedPairs) is)) = normals o (ofItems is) := by
  cases is with
  | nil => rfl
  | cons i is =>
    rw [mapAttrsAll, ofItems, normals_append, normals_ofItem_sortedPairs i,
      normals_ofItems_sortedPairs is, ofItems, normals_append]

end

end Node

-- Only what attributes mean shows in what is read from the spelling of a document.
theorem Fragment.normal_respelled_congr {o : Options} {is : List Item}
    {f g : String → List (String × String) → List (String × String)}
    (h : ∀ tag attrs children, Within (.element tag attrs children) is →
      Attr.sorted ((f tag attrs).map Attr.ofPair) = Attr.sorted ((g tag attrs).map Attr.ofPair)) :
    Fragment.normal o
        (Node.ofItems (joinedAll false [] (trimmed (linedAll (mapAttrsAll f is))))) =
      Fragment.normal o
        (Node.ofItems (joinedAll false [] (trimmed (linedAll (mapAttrsAll g is))))) := by
  have hsorted : mapAttrsAll (fun _ => sortedPairs) (mapAttrsAll f is) =
      mapAttrsAll (fun _ => sortedPairs) (mapAttrsAll g is) := by
    rw [Item.mapAttrsAll_mapAttrsAll, Item.mapAttrsAll_mapAttrsAll]
    apply Item.mapAttrsAll_congr
    intro tag attrs children hw
    rw [sortedPairs, sortedPairs, h tag attrs children hw]
  unfold Fragment.normal
  rw [← Node.normals_ofItems_sortedPairs, ← Item.joinedAll_trimmed_linedAll_mapAttrsAll, hsorted,
    Item.joinedAll_trimmed_linedAll_mapAttrsAll, Node.normals_ofItems_sortedPairs]

namespace Attr

theorem sorted_mergeSort (attrs : List Attr) :
    sorted (attrs.mergeSort nameLe) = sorted attrs := by
  have hsorted := List.pairwise_mergeSort nameLe_trans nameLe_total attrs
  change ((attrs.mergeSort nameLe).mergeSort nameLe).map canonical = _
  rw [List.mergeSort_of_pairwise hsorted]
  rfl

end Attr

namespace Markup

-- The encoding is no list of words.
theorem mem_encodingAttrs {tag : String} {attrs : List (String × String)} {a : String × String}
    (h : a ∈ encodingAttrs tag attrs) : a ∈ attrs ∨ isWordList tag a.1 = false := by
  have hmap : ∀ (name : String) (f : String → String), isWordList tag name = false →
      a ∈ (attrs.map fun b => if b.1 == name then (b.1, f b.2) else b) →
      a ∈ attrs ∨ isWordList tag a.1 = false := by
    intro name f hname ha
    obtain ⟨b, hb, rfl⟩ := List.mem_map.mp ha
    split
    · rename_i heq
      rw [beq_iff_eq.mp heq]
      exact .inr hname
    · exact .inl hb
  have hcharset : isWordList tag "charset" = false := rfl
  have hcontent : isWordList tag "content" = false := rfl
  unfold encodingAttrs at h
  simp only at h
  split at h
  · exact .inl h
  · split at h
    · exact hmap "charset" (fun _ => encodingName) hcharset h
    · split at h
      · exact hmap "content" withEncoding hcontent h
      · exact .inl h

end Markup

-- Where lists of words other than the class are written with single spaces, the spelling of
-- attributes changes no more of what they mean than the encoding.
theorem sorted_spelledAttrs {tag : String} {attrs : List (String × String)}
    (h : ∀ a ∈ attrs, a.1 ≠ "class" → isWordList tag a.1 = true →
      " ".intercalate (wordsOf a.2) = a.2) :
    Attr.sorted ((spelledAttrs tag attrs).map Attr.ofPair) =
      Attr.sorted ((encodingAttrs tag attrs).map Attr.ofPair) := by
  have hword : ∀ a ∈ encodingAttrs tag attrs,
      (Attr.ofPair
          (a.1, if isWordList tag a.1 then " ".intercalate (wordsOf a.2) else a.2)).canonical =
        (Attr.ofPair a).canonical := by
    intro a ha
    by_cases hlist : isWordList tag a.1 = true
    · rw [if_pos hlist]
      by_cases hclass : a.1 = "class"
      · obtain ⟨name, value⟩ := a
        obtain rfl : name = "class" := hclass
        have hwords := wordsOf_intercalate (wordsOf value) fun w => isWord_of_mem_wordsOf
        have hvalue : classValue (" ".intercalate (wordsOf value)) = classValue value := by
          rw [classValue_eq_iff, hwords]
        simp [Attr.ofPair, hvalue]
      · have hmem := (Markup.mem_encodingAttrs ha).resolve_right (by simp [hlist])
        rw [h a hmem hclass hlist]
    · rw [if_neg hlist]
  have hsort : ((encodingAttrs tag attrs).mergeSort attrBefore).map Attr.ofPair =
      ((encodingAttrs tag attrs).map Attr.ofPair).mergeSort Attr.nameLe :=
    List.map_mergeSort fun _ _ _ _ => rfl
  calc Attr.sorted ((spelledAttrs tag attrs).map Attr.ofPair)
      = (((encodingAttrs tag attrs).mergeSort attrBefore).map
          fun a => (Attr.ofPair a).canonical).mergeSort Attr.nameLe := by
        rw [Attr.sorted_eq_mergeSort, spelledAttrs, List.map_map, List.map_map]
        congr 1
        exact List.map_congr_left fun a ha => hword a (List.mem_mergeSort.mp ha)
    _ = Attr.sorted (((encodingAttrs tag attrs).mergeSort attrBefore).map Attr.ofPair) := by
        rw [Attr.sorted_eq_mergeSort, List.map_map]
        rfl
    _ = Attr.sorted ((encodingAttrs tag attrs).map Attr.ofPair) := by
        rw [hsort, Attr.sorted_mergeSort]

-- A document that can be written out is read from its spelling, up to what does not count, as the
-- document respelled.
theorem Fragment.normal_respelled {o : Options} {is : List Item}
    (hwritable : ∀ i, Within i (unmarkedAll false is) → i.Writable) :
    Fragment.normal o (Node.ofItems (joinedAll false []
        (trimmed (linedAll (mapAttrsAll spelledAttrs (unmarkedAll false is)))))) =
      Fragment.normal o (Node.ofItems (Item.respelled is)) :=
  normal_respelled_congr fun _ _ _ hw => sorted_spelledAttrs (hwritable _ hw).2.1

end MarkupDiff
