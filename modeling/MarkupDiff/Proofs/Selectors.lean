import MarkupDiff.Proofs.Place.ChildPath

namespace MarkupDiff

open MarkupDiff.Tree (Root RootLink)
open MarkupDiff.Place (ArePositions LeadsToElement chain childPath location rootLabel)

theorem Place.chain_ne_rootLabel {ns : List Node} {is : List Nat} {labels : List String}
    (h : Node.Labelled ns is labels) (hns : Node.AllSelectable ns) (hne : labels ≠ []) :
    chain labels ≠ rootLabel := by
  cases h with
  | nil => exact absurd rfl hne
  | @cons _ i tag attrs _ _ labels hi _ =>
    obtain ⟨hselectable, _⟩ := hns.of_getElem? hi
    obtain ⟨c, cs, htag⟩ := List.exists_cons_of_ne_nil
      (mt String.toList_eq_nil_iff.mp hselectable.tag_ne_empty)
    have hc : c ≠ '#' := (hselectable.tag_chars c (by simp [htag])).1
    obtain ⟨rest, hchain⟩ := chain_cons (Node.selectorText ns i tag attrs) labels
    intro h
    rw [hchain, ← String.toList_inj] at h
    simp only [Node.selectorText, String.toList_append, htag, List.cons_append] at h
    exact hc (List.cons.inj h).1

-- What can be said about the path to one element below the top of a fragment.
theorem Place.exists_location {f : Fragment} {link : List (Value × Value)} (hlink : RootLink link)
    (hf : Node.AllSelectable f) {steps : List Value}
    (h : LeadsToElement (.root ((Root.fragment f).recordWith link)) (childPath steps)) :
    ∃ is labels, ArePositions steps is ∧ Node.Labelled f is labels ∧ labels ≠ [] ∧
      location ((Root.fragment f).recordWith link) (childPath steps) = .ok (chain labels) ∧
      chain labels ≠ rootLabel := by
  have hroot : Stands (.fragment f) link (.root ((Root.fragment f).recordWith link))
      (.fragment f) := .root
  obtain ⟨is, labels, hpositions, hlabelled, hselectors⟩ := hroot.exists_labelled hlink h
  have hlabelled : Node.Labelled f is labels := hlabelled
  have hne : labels ≠ [] := by
    rintro rfl
    cases hlabelled
    cases hpositions
    obtain ⟨target, hwalk, htype⟩ := h
    obtain ⟨rfl, _⟩ := Walk.mk.inj (Except.ok.inj hwalk)
    exact absurd htype (by
      simp [root, Root.recordWith, Value.field?, Value.lookup, Value.equal_text])
  exact ⟨is, labels, hpositions, hlabelled, hne, Leads.location_of_selectors hselectors,
    chain_ne_rootLabel hlabelled hf hne⟩

-- The location of an element singles it out: paths through children to different elements of a
-- fragment are told apart by their locations, and none reads like the fragment itself.
theorem locations_tell_elements_apart {f : Fragment} {link : List (Value × Value)}
    (hlink : RootLink link) (hf : Node.AllSelectable f) {steps steps' : List Value}
    (h : LeadsToElement (.root ((Root.fragment f).recordWith link)) (childPath steps))
    (h' : LeadsToElement (.root ((Root.fragment f).recordWith link)) (childPath steps')) :
    ∃ s t, location ((Root.fragment f).recordWith link) (childPath steps) = .ok s ∧
      location ((Root.fragment f).recordWith link) (childPath steps') = .ok t ∧
      s ≠ rootLabel ∧ t ≠ rootLabel ∧
      (s = t ↔ Value.equalItems (childPath steps) (childPath steps') = true) := by
  obtain ⟨is, labels, hpositions, hlabelled, hne, hlocation, hroot⟩ :=
    Place.exists_location hlink hf h
  obtain ⟨js, labels', hpositions', hlabelled', hne', hlocation', hroot'⟩ :=
    Place.exists_location hlink hf h'
  refine ⟨_, _, hlocation, hlocation', hroot, hroot', ?_⟩
  rw [Place.equalItems_childPath_iff hpositions hpositions']
  constructor
  · intro hchain
    obtain rfl := Place.eq_of_chain_eq (hlabelled.notMem_of_mem hf) (hlabelled'.notMem_of_mem hf)
      hne hne' hchain
    exact hlabelled.positions_eq hlabelled' hf
  · rintro rfl
    rw [hlabelled.labels_eq hlabelled']

-- Of two paragraphs the second holds bold text. An id and classes may look like other selectors.
theorem locations_tell_bold_from_paragraph :
    let f : Fragment := [.element "p" [⟨"id", "p:b"⟩, ⟨"class", "a  >"⟩] [], .text "x",
      .element "p" [] [.element "b" [] []]]
    let v := (Root.fragment f).recordWith []
    RootLink [] ∧ Node.AllSelectable f ∧
      LeadsToElement (.root v) (childPath [.bool false]) ∧
      LeadsToElement (.root v) (childPath [.nat 2, .nat 0]) ∧
      location v (childPath [.bool false]) = .ok "p#p:b.a.>:nth-of-type(1)" ∧
      location v (childPath [.nat 2, .nat 0]) = .ok "p:nth-of-type(2) > b" ∧
      ∃ s t, location v (childPath [.bool false]) = .ok s ∧
        location v (childPath [.nat 2, .nat 0]) = .ok t ∧ s ≠ rootLabel ∧ t ≠ rootLabel ∧
        (s = t ↔ Value.equalItems (childPath [.bool false]) (childPath [.nat 2, .nat 0]) = true) := by
  intro f v
  have hlink : RootLink [] := .inl rfl
  have hf : Node.AllSelectable f := by
    intro tag attrs children hbelow
    have hcases : tag = "p" ∧ attrs = [⟨"id", "p:b"⟩, ⟨"class", "a  >"⟩] ∧ children = [] ∨
        (tag = "p" ∧ attrs = [] ∧ children = [.element "b" [] []]) ∨
        tag = "b" ∧ attrs = [] ∧ children = [] := by
      simpa [f] using hbelow
    rcases hcases with ⟨rfl, rfl, _⟩ | ⟨rfl, rfl, _⟩ | ⟨rfl, rfl, _⟩ <;>
      exact ⟨by simp, by simp, by simp⟩
  have hfirst : LeadsToElement (.root v) (childPath [.bool false]) := ⟨_, rfl, rfl⟩
  have hbold : LeadsToElement (.root v) (childPath [.nat 2, .nat 0]) := ⟨_, rfl, rfl⟩
  exact ⟨hlink, hf, hfirst, hbold, rfl, rfl,
    locations_tell_elements_apart hlink hf hfirst hbold⟩

end MarkupDiff
