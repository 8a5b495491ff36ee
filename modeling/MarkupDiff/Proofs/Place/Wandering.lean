import MarkupDiff.Proofs.Place.Standing

namespace MarkupDiff

namespace Tree.Root

def nodes : Root → List Node
  | fragment f => f
  | node n => [n]

-- No element of the tree has an empty tag, at any depth.
def Tagged (t : Root) : Prop :=
  ∀ tag attrs children, Node.Below (.element tag attrs children) t.nodes → tag ≠ ""

theorem below_of_children? {t : Root} {ns : List Node} {n : Node} (hns : t.children? = some ns)
    (hn : Node.Below n ns) : Node.Below n t.nodes := by
  match t with
  | fragment f =>
    obtain rfl := Option.some.inj hns
    exact hn
  | node (.element tag attrs children) =>
    obtain rfl := Option.some.inj hns
    exact .inside List.mem_cons_self hn
  | node (.text s) | node (.comment s) => exact absurd hns (by simp [children?])

end Tree.Root

namespace Place

open MarkupDiff.Tree (Root RootLink childLink)

variable {t : Root} {link : List (Value × Value)} {p : Place} {u : Root}

namespace Stands

theorem below_nodes {n : Node} (h : Stands t link p u) (hn : Node.Below n u.nodes) :
    Node.Below n t.nodes := by
  induction h with
  | root => exact hn
  | child _ hchildren hi ih =>
    refine ih (Root.below_of_children? hchildren (hn.mono fun m hm => ?_))
    rw [List.mem_singleton.mp hm]
    exact List.mem_of_getElem? hi

theorem isRecord (h : Stands t link p u) (hlink : RootLink link) : IsRecord p.focus := by
  obtain ⟨l, hfocus, _⟩ := h.exists_link hlink
  rw [hfocus, Root.recordWith_eq]
  trivial

theorem field?_children (h : Stands t link p u) (hlink : RootLink link) :
    p.focus.field? "children" = u.children?.map fun ns => .list (Node.toValues ns) := by
  obtain ⟨l, hfocus, hl⟩ := h.exists_link hlink
  rw [hfocus, Root.field?_children (hl.imp id And.left)]

-- The selector of an element begins with its tag. Only an element at the top has no siblings.
theorem exists_selector {tag : String} {attrs : List Attr} {children : List Node}
    (h : Stands t link p (.node (.element tag attrs children))) (hlink : RootLink link) :
    ∃ marks, p.selector = .ok (.text (tag ++ marks)) := by
  cases h with
  | root =>
    let p := Place.root ((Root.node (.element tag attrs children)).recordWith link)
    have htag : p.focus.named "tag" = .ok (.text tag) := rfl
    have hattrs : p.focus.namedOr "attrs" (.list []) = .ok (.list (attrs.map Attr.toValue)) := rfl
    have hordinal : p.ordinal = .ok none := by
      rcases hlink with rfl | rfl <;> rfl
    refine ⟨Node.idMark attrs ++ Node.classMark attrs, ?_⟩
    rw [selector_of_ordinal htag hattrs hordinal, Option.elim_none, String.append_empty,
      String.append_assoc]
  | @child _ _ _ siblings i _ hp hchildren hi =>
    have hfield := hp.field?_children hlink
    rw [hchildren] at hfield
    refine ⟨Node.idMark attrs ++ Node.classMark attrs ++ Node.ordinalMark siblings i tag, ?_⟩
    rw [selector_of_owner rfl rfl rfl hfield hi, Node.selectorText]
    simp only [String.append_assoc]

end Stands

namespace Reached

-- Only an element has its type.
theorem exists_element (h : Reached t link p) (hlink : RootLink link)
    {es : List (Value × Value)} (hp : p.focus = .record es)
    (htype : (Value.lookup (.text "type") es).any (·.isText "element") = true) :
    ∃ tag attrs children, Stands t link p (.node (.element tag attrs children)) := by
  cases h with
  | @node _ u hu =>
    obtain ⟨l, hfocus, _⟩ := hu.exists_link hlink
    rw [hp, Root.recordWith_eq] at hfocus
    obtain rfl := Value.record.inj hfocus
    match u with
    | .node (.element tag as cs) => exact ⟨tag, as, cs, hu⟩
    | .fragment _ | .node (.text _) | .node (.comment _) =>
      simp [Root.fields, Value.lookup, Value.equal_text, Value.isText, Value.text?] at htype
  | attr a ha =>
    rw [hp] at ha
    obtain rfl := Value.record.inj ha
    simp [Value.lookup, Value.equal_text] at htype
  | children _ _ => exact Value.noConfusion hp
  | attrs _ h | text _ h | null h => exact Value.noConfusion (hp.symm.trans h)

theorem walkFrom_ok {target : Place} {path : Path} (h : Reached t link p) (hlink : RootLink link)
    (htarget : Reached t link target) (hrecord : IsRecord target.focus)
    (hpath : ∀ s ∈ path, s.IsKey) :
    ∃ w, walkFrom target p path = .ok w ∧ Reached t link w.target ∧ IsRecord w.target.focus := by
  induction path generalizing p target with
  | nil => exact ⟨_, rfl, htarget, hrecord⟩
  | cons s rest ih =>
    obtain ⟨hs, hrest⟩ := List.forall_mem_cons.mp hpath
    obtain ⟨next?, hstep, hnext⟩ := h.step hlink hs
    rw [walkFrom, hstep]
    cases next? with
    | none => exact ⟨_, rfl, htarget, hrecord⟩
    | some next =>
      have hnext := hnext next rfl
      cases hfocus : next.focus with
      | record es =>
        simp only [hfocus]
        exact ih hnext hnext (hfocus ▸ trivial) hrest
      | list xs =>
        simp only [hfocus]
        exact ih hnext htarget hrecord hrest
      | _ =>
        simp only [hfocus]
        exact ⟨_, rfl, htarget, hrecord⟩

theorem selectors_ok {path : Path} (h : Reached t link p) (hlink : RootLink link)
    (htagged : t.Tagged) (hpath : ∀ s ∈ path, s.IsKey) :
    ∃ labels : List String, selectors p path = .ok (labels.map .text) ∧ "" ∉ labels := by
  induction path generalizing p with
  | nil => exact ⟨[], rfl, List.not_mem_nil⟩
  | cons s rest ih =>
    obtain ⟨hs, hrest⟩ := List.forall_mem_cons.mp hpath
    obtain ⟨next?, hstep, hnext⟩ := h.step hlink hs
    rw [selectors, hstep]
    cases next? with
    | none => exact ⟨[], rfl, List.not_mem_nil⟩
    | some next =>
      have hnext := hnext next rfl
      obtain ⟨labels, hlabels, hempty⟩ := ih hnext hrest
      cases hfocus : next.focus with
      | record es =>
        simp only [hfocus]
        split
        · rename_i htype
          obtain ⟨tag, attrs, children, hstands⟩ := hnext.exists_element hlink hfocus htype
          obtain ⟨marks, hselector⟩ := hstands.exists_selector hlink
          have htag := htagged tag attrs children (hstands.below_nodes (.here List.mem_cons_self))
          refine ⟨(tag ++ marks) :: labels, by rw [hselector, hlabels]; rfl, ?_⟩
          simp [htag, hempty]
        · exact ⟨labels, hlabels, hempty⟩
      | list xs =>
        simp only [hfocus]
        exact ⟨labels, hlabels, hempty⟩
      | _ =>
        simp only [hfocus]
        exact ⟨[], rfl, List.not_mem_nil⟩

-- Each child of a tree that has been reached leads back to where that tree stands.
theorem child_leads_back (h : Reached t link p) (hlink : RootLink link) (hp : IsRecord p.focus)
    {list child : Place} {s : Value} (hlist : p.step? (.text "children") = .ok (some list))
    (hchild : list.step? s = .ok (some child)) :
    child.step? (.text "parent") = .ok (some p) := by
  cases h with
  | node hstands =>
    obtain ⟨siblings, i, n, _, _, _, rfl⟩ := hstands.exists_child hlink rfl hlist hchild
    cases n <;> rfl
  | attr a ha =>
    rw [step?_no_field hp (by rw [ha]; rfl)] at hlist
    exact absurd hlist (by simp)
  | children _ _ => exact hp.elim
  | attrs _ h | text _ h | null h =>
    rw [h] at hp
    exact hp.elim

end Reached

end Place

end MarkupDiff
