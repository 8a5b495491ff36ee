import MarkupDiff.Proofs.Markup.Building
import MarkupDiff.Proofs.Tree.NormalForm
import MarkupDiff.Tree.Parse

namespace MarkupDiff

open Markup (Item)

-- The name of a tag or an attribute: there is one, in lower case.
def IsLowerName (s : String) : Prop :=
  s ≠ "" ∧ lowered s = s

theorem Markup.Tag.IsName.isLowerName {tag : String} (h : IsName tag.toList) :
    IsLowerName tag := by
  refine ⟨?_, by rw [lowered, h.lower, String.ofList_toList]⟩
  rintro rfl
  exact h.ne_nil rfl

theorem Markup.Tag.IsAttrName.isLowerName {name : String} (h : IsAttrName name.toList) :
    IsLowerName name := by
  refine ⟨?_, by rw [lowered, h.lower, String.ofList_toList]⟩
  rintro rfl
  obtain ⟨c, cs, hname, -⟩ := h.shape
  cases hname

-- A node that has no parent yet.
def Node.unlinked (n : Node) : Value :=
  n.recordWith [(.text "parent", .null)]

namespace Tree

theorem withField_unlinked (n : Node) : n.unlinked.withField "parent" .owner = n.toValue := by
  cases n <;> rfl

theorem map_withField_unlinked (ns : List Node) :
    (ns.map Node.unlinked).map (·.withField "parent" .owner) = Node.toValues ns := by
  induction ns with
  | nil => rfl
  | cons n ns ih => rw [List.map_cons, List.map_cons, withField_unlinked, ih, Node.toValues]

-- Linking makes nodes with a parent of the children, and changes nothing else.
theorem linkChildren_element (tag : String) (attrs : List Attr) (children : List Node) :
    linkChildren (.record [("type", "element"), ("tag", tag),
      ("attrs", .list (attrs.map Attr.toValue)), ("children", .list (children.map Node.unlinked)),
      ("parent", .null)]) = (Node.element tag attrs children).unlinked := by
  rw [Node.unlinked, Node.recordWith, ← map_withField_unlinked]
  rfl

theorem linkChildren_fragment (f : Fragment) :
    linkChildren (.record [("type", "fragment"), ("children", .list (f.map Node.unlinked)),
      ("parent", .null)]) = f.toValue := by
  rw [Fragment.toValue, ← map_withField_unlinked]
  rfl

theorem attrRecords_eq {attrs : List (String × String)} (h : ∀ a ∈ attrs, IsLowerName a.1) :
    attrs.map (fun a => Value.record [("name", lowered a.1), ("value", a.2)]) =
      (attrs.map Attr.ofPair).map Attr.toValue := by
  rw [List.map_map]
  refine List.map_congr_left fun a ha => ?_
  rw [(h a ha).2]
  rfl

mutual

-- The records of an item are those of its nodes, each without a parent. The children in them are
-- linked already.
theorem recordsOf_eq (i : Item) (hproper : ∀ tag attrs children,
    Item.Within (.element tag attrs children) [i] → Markup.Tag.IsProper tag attrs) :
    recordsOf i = (Node.ofItem i).map Node.unlinked := by
  cases i with
  | element tag attrs children =>
    have htag := hproper tag attrs children (.here List.mem_cons_self)
    have hchildren := recordsOfAll_eq children fun t as cs hw =>
      hproper t as cs (.inside List.mem_cons_self hw)
    have hnames : ∀ a ∈ attrs, IsLowerName a.1 := fun a ha => (htag.names a ha).isLowerName
    rw [recordsOf, hchildren, htag.name.isLowerName.2, attrRecords_eq hnames,
      linkChildren_element]
    rfl
  | text s => rfl
  | aside kind s => cases kind <;> rfl

theorem recordsOfAll_eq (is : List Item) (hproper : ∀ tag attrs children,
    Item.Within (.element tag attrs children) is → Markup.Tag.IsProper tag attrs) :
    recordsOfAll is = (Node.ofItems is).map Node.unlinked := by
  cases is with
  | nil => rfl
  | cons i is =>
    have hhead := recordsOf_eq i fun t as cs hw =>
      hproper t as cs (Item.within_cons.mpr (.inl hw))
    have htail := recordsOfAll_eq is fun t as cs hw =>
      hproper t as cs (Item.within_cons.mpr (.inr hw))
    rw [recordsOfAll, hhead, htail, Node.ofItems, List.map_append]

end

-- Making records without a parent and linking them one level after the other comes to the record of
-- the fragment that the text is read as.
theorem ofMarkup_eq (markup : String) :
    ofMarkup markup = (Fragment.ofMarkup markup).map Fragment.toValue := by
  rw [ofMarkup, Fragment.ofMarkup]
  cases his : Markup.items markup with
  | error fault => rfl
  | ok is =>
    have hrecords := recordsOfAll_eq is fun _ _ _ hw =>
      Item.isProper_of_within (Markup.allProper_of_items his) hw
    change Except.ok (linkChildren _) = Except.ok _
    rw [hrecords, linkChildren_fragment]

end Tree

end MarkupDiff
