import MarkupDiff.Proofs.Difference.Objects
import MarkupDiff.Proofs.Node.Widening

namespace MarkupDiff

open Node (unblankedAll unblankedText)

namespace Change

-- Two contents that differ, but not without their blanks.
structure BlanksDiffer (s t : String) : Prop where
  ne : s ≠ t
  unblanked : unblankedText s = unblankedText t

-- The change edits the content of a text, and only blanks in it.
inductive EditsBlanks : Change → Prop
  | content (path : Path) {s t : String} (h : BlanksDiffer s t) :
      EditsBlanks (.edited (path ++ [.text "content"]) (.text s) (.text t))

theorem editsBlanks_of_mem_ofTexts {path : Path} {s t : String}
    (h : unblankedText s = unblankedText t) {c : Change}
    (hc : c ∈ ofTexts (path ++ [.text "content"]) s t) : c.EditsBlanks := by
  have hne : s ≠ t := by
    rintro rfl
    simp at hc
  rw [mem_ofTexts hc]
  exact .content path ⟨hne, h⟩

mutual

-- Nodes that are equal without blanks differ in blanks of texts.
theorem editsBlanks_of_mem_between {n m : Node} (h : n.unblanked = m.unblanked) {path : Path}
    {c : Change} (hc : c ∈ between ignoringParent path n.toValue m.toValue) : c.EditsBlanks := by
  match n, m with
  | .element t as cs, .element u bs ds =>
    obtain ⟨rfl, rfl, hchildren⟩ := Node.element.inj h
    rw [between_element, ofTexts_self, List.nil_append, inItems_attrs_eq_nil_iff.mpr rfl,
      List.nil_append] at hc
    exact editsBlanks_of_mem_inItems hchildren hc
  | .text s, .text t =>
    rw [between_text_text] at hc
    exact editsBlanks_of_mem_ofTexts (Node.text.inj h) hc
  | .comment s, .comment t =>
    obtain rfl := Node.comment.inj h
    rw [between_comment_comment, ofTexts_self] at hc
    exact absurd hc List.not_mem_nil
  | .element _ _ _, .text _ => exact Node.noConfusion h
  | .element _ _ _, .comment _ => exact Node.noConfusion h
  | .text _, .element _ _ _ => exact Node.noConfusion h
  | .text _, .comment _ => exact Node.noConfusion h
  | .comment _, .element _ _ _ => exact Node.noConfusion h
  | .comment _, .text _ => exact Node.noConfusion h

theorem editsBlanks_of_mem_inItems {ns ms : List Node} (h : unblankedAll ns = unblankedAll ms)
    {path : Path} {i : Nat} {c : Change}
    (hc : c ∈ inItems ignoringParent path i (Node.toValues ns) (Node.toValues ms)) :
    c.EditsBlanks := by
  match ns, ms with
  | [], [] => simp [Node.toValues, inItems, surplus] at hc
  | [], m :: ms => simp [unblankedAll] at h
  | n :: ns, [] => simp [unblankedAll] at h
  | n :: ns, m :: ms =>
    obtain ⟨hhead, htail⟩ := List.cons.inj h
    rw [Node.toValues, Node.toValues, inItems] at hc
    rcases List.mem_append.mp hc with hc | hc
    · exact editsBlanks_of_mem_between hhead hc
    · exact editsBlanks_of_mem_inItems htail hc

end

-- Of what reports describe, only texts have a content.
theorem eq_of_described_content {v : Value} {d s : String} (h : v.Described d)
    (hs : v.field? "content" = some (.text s)) : d = "text \"" ++ s ++ "\"" := by
  cases h with
  | element tag attrs children =>
    simp [Node.toValue, Value.field?, Value.lookup, Value.equal_text] at hs
  | text content =>
    have hcontent : (Node.text content).toValue.field? "content" = some (.text content) := rfl
    rw [hcontent] at hs
    rw [Value.text.inj (Option.some.inj hs)]
  | attr a => simp [Attr.toValue, Value.field?, Value.lookup, Value.equal_text] at hs

-- The sentence that a text has changed.
def textChanged (s t : String) : String :=
  "text \"" ++ s ++ "\"" ++ " has changed to " ++ ("text \"" ++ t ++ "\"")

theorem exists_report_of_editsBlanks {l r : Value} {labels : List String} {c : Change}
    (h : Reported l r labels c) (hc : c.EditsBlanks) :
    ∃ s t path, BlanksDiffer s t ∧ Report.ofChange l r c = .ok ⟨textChanged s t, path⟩ := by
  obtain ⟨old, new, message, -, -, hreport, habout, htold⟩ := h
  obtain ⟨path, hdiffer⟩ := hc
  rename_i s t
  refine ⟨s, t, Place.chain labels, hdiffer, ?_⟩
  rw [hreport]
  generalize hp : path ++ [Value.text "content"] = p at habout htold
  cases habout with
  | edited hk hpath hold hnew =>
    obtain ⟨-, hkey⟩ := List.append_inj' hp rfl
    obtain rfl := Value.text.inj (List.singleton_inj.mp hkey)
    cases htold with
    | edited hd he =>
      rw [eq_of_described_content hd hold, eq_of_described_content he hnew]
      rfl

end Change

-- Two fragments whose normal forms are equal without blanks are the same, or the report is that a
-- text has changed in its blanks.
theorem Fragment.firstDifference_of_unblanked {o : Options} {f g : Fragment}
    (h : unblankedAll (f.normal o) = unblankedAll (g.normal o)) :
    firstDifference o f g = .ok none ∨ ∃ s t path, Change.BlanksDiffer s t ∧
      firstDifference o f g = .ok (some ⟨Change.textChanged s t, path⟩) := by
  cases hc : (f.normal o).changes (g.normal o) with
  | nil => exact .inl (by simp [firstDifference, hc])
  | cons c cs =>
    have hmem : c ∈ (f.normal o).changes (g.normal o) := hc ▸ List.mem_cons_self
    obtain ⟨_, hreported⟩ := reported_of_mem_changes hmem
    rw [changes_eq] at hmem
    obtain ⟨s, t, path, hdiffer, hreport⟩ :=
      Change.exists_report_of_editsBlanks hreported (Change.editsBlanks_of_mem_inItems h hmem)
    exact .inr ⟨s, t, path, hdiffer, firstDifference_of_changes hc hreport⟩

end MarkupDiff
