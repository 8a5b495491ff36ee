import MarkupDiff.Proofs.AttributeValues
import MarkupDiff.Proofs.Locations
import MarkupDiff.Proofs.Node.Outline

namespace MarkupDiff

open Markup (Item)

namespace Tree

-- A record of a node with just the keys of its kind, in their order. The names of an element and
-- its attributes are in lower case, no two attributes have one name, and all that it holds are
-- records of nodes, which lead back to it.
inductive IsNode : Value → Prop
  | element {tag : String} {attrs : List Attr} {children : List Value} (htag : IsLowerName tag)
      (hnames : ∀ a ∈ attrs, IsLowerName a.name) (hnodup : (attrs.map (·.name)).Nodup)
      (hchildren : ∀ c ∈ children, IsNode c) :
      IsNode (.record [("type", "element"), ("tag", tag),
        ("attrs", .list (attrs.map fun a => .record [("name", a.name), ("value", a.value)])),
        ("children", .list children), ("parent", .owner)])
  | text (content : String) :
      IsNode (.record [("type", "text"), ("content", content), ("parent", .owner)])
  | comment (content : String) :
      IsNode (.record [("type", "comment"), ("content", content), ("parent", .owner)])

-- A record of a fragment, which holds records of nodes and has no owner.
inductive IsFragment : Value → Prop
  | root {children : List Value} (hchildren : ∀ c ∈ children, IsNode c) :
      IsFragment (.record [("type", "fragment"), ("children", .list children), ("parent", .null)])

mutual

theorem isNode_of_mem_ofItem (i : Item) {n : Node} (hn : n ∈ Node.ofItem i)
    (hproper : ∀ tag attrs children, Item.Within (.element tag attrs children) [i] →
      Markup.Tag.IsProper tag attrs) : IsNode n.toValue := by
  cases i with
  | element tag attrs children =>
    obtain rfl := List.mem_singleton.mp hn
    have htag := hproper tag attrs children (.here List.mem_cons_self)
    refine .element htag.name.isLowerName ?_ ?_ ?_
    · intro a ha
      obtain ⟨p, hp, rfl⟩ := List.mem_map.mp ha
      exact (htag.names p hp).isLowerName
    · rw [List.map_map]
      exact htag.nodup
    · intro c hc
      rw [Node.toValues_eq_map] at hc
      obtain ⟨m, hm, rfl⟩ := List.mem_map.mp hc
      exact isNode_of_mem_ofItems children hm fun t as cs hw =>
        hproper t as cs (.inside List.mem_cons_self hw)
  | text s =>
    obtain rfl := List.mem_singleton.mp hn
    exact .text s
  | aside kind s =>
    cases kind
    case comment =>
      obtain rfl := List.mem_singleton.mp hn
      exact .comment s
    all_goals exact absurd hn List.not_mem_nil

-- The nodes of a document are well-formed, where its elements are as they can be read.
theorem isNode_of_mem_ofItems (is : List Item) {n : Node} (hn : n ∈ Node.ofItems is)
    (hproper : ∀ tag attrs children, Item.Within (.element tag attrs children) is →
      Markup.Tag.IsProper tag attrs) : IsNode n.toValue := by
  cases is with
  | nil => exact absurd hn List.not_mem_nil
  | cons i is =>
    rw [Node.ofItems] at hn
    rcases List.mem_append.mp hn with hn | hn
    · exact isNode_of_mem_ofItem i hn fun t as cs hw =>
        hproper t as cs (Item.within_cons.mpr (.inl hw))
    · exact isNode_of_mem_ofItems is hn fun t as cs hw =>
        hproper t as cs (Item.within_cons.mpr (.inr hw))

end

theorem isFragment_toValue {markup : String} {is : List Item}
    (h : Markup.items markup = .ok is) : IsFragment (Fragment.toValue (Node.ofItems is)) := by
  refine .root fun c hc => ?_
  rw [Node.toValues_eq_map] at hc
  obtain ⟨n, hn, rfl⟩ := List.mem_map.mp hc
  exact isNode_of_mem_ofItems is hn fun _ _ _ hw =>
    Item.isProper_of_within (Markup.allProper_of_items h) hw

end Tree

-- Markup that is accepted is read as a fragment. As a record, which is also what comes of making one
-- record after the other and linking children to it, it is well-formed, and wherever a path leads in
-- it, every child leads back to the very record that lists it. It has one node for each tag, text
-- and comment of the document, in the same order and at the same depth, and no others, and it is the
-- only fragment of which this is true.
theorem parsed_tree_well_formed {markup : String} {is : List Item}
    (haccepted : Markup.items markup = .ok is) :
    ∃ f, Fragment.ofMarkup markup = .ok f ∧ Tree.ofMarkup markup = .ok f.toValue ∧
      Tree.IsFragment f.toValue ∧
      (∀ path w, (∀ s ∈ path, s.IsKey) → Place.walk f.toValue path = .ok w →
        ∀ i list child, w.target.step? "children" = .ok (some list) →
          list.step? i = .ok (some child) → child.step? "parent" = .ok (some w.target)) ∧
      ∀ g, Node.outlineAll 0 g = Node.parts (Item.outlineAll 0 is) ↔ g = f := by
  have hread : Fragment.ofMarkup markup = .ok (Node.ofItems is) := by
    rw [Fragment.ofMarkup, haccepted, Except.map]
  have hmade : Tree.ofMarkup markup = .ok (Fragment.toValue (Node.ofItems is)) := by
    rw [Tree.ofMarkup_eq, hread, Except.map]
  have houtline := Node.outlineAll_ofItems 0 is
  refine ⟨Node.ofItems is, hread, hmade, Tree.isFragment_toValue haccepted,
    (Tree.sound_toValue (Fragment.tagged_of_ofMarkup hread)).leadsBack, fun g => ?_⟩
  constructor
  · intro hg
    exact Node.outlineAll_injective g _ (hg.trans houtline.symm)
  · rintro rfl
    exact houtline

-- A document type is left out, and what follows it keeps its order and its depth.
theorem parsed_page :
    let markup := "<!DOCTYPE html><p title=\"a\">b<!--c--></p>"
    let is : List Item := [.aside .doctype "html",
      .element "p" [("title", "a")] [.text "b", .aside .comment "c"]]
    Markup.items markup = .ok is ∧ ∃ f, Fragment.ofMarkup markup = .ok f ∧
      Tree.ofMarkup markup = .ok f.toValue ∧ Tree.IsFragment f.toValue ∧
      Node.outlineAll 0 f =
        [(0, .element "p" [⟨"title", "a"⟩] []), (1, .text "b"), (1, .comment "c")] := by
  intro markup is
  have hvoid : "p" ∉ Markup.voidElements := by decide
  have hraw : "p" ∉ Markup.Scan.rawElements := by decide
  have hparagraph : Item.Spellable
      (.element "p" [("title", "a")] [.text "b", .aside .comment "c"]) :=
    ⟨isProper_titled "a", by decide +kernel, fun h => absurd (List.contains_iff_mem.mp h) hvoid,
      fun h => absurd (List.contains_iff_mem.mp h) hraw, trivial,
      ⟨Markup.Construct.fits_comment_of_notMem (by decide), by decide⟩, trivial⟩
  have hdoctype : Item.Spellable (.aside .doctype "html") :=
    ⟨by simp [Markup.Aside.Fits], by decide⟩
  have hspelling : Item.spellingAll false is = markup.toList := by
    simp [is, markup, Item.spellingAll, Item.spelling, Item.asideSpelling, Markup.Tag.attrSpelling,
      Markup.quotedValue, Markup.escaped, Markup.escapedChar, hvoid, hraw]
  have hitems : Markup.items markup = .ok is :=
    Item.items_of_spelling ⟨hdoctype, hparagraph, trivial⟩ hspelling rfl
  obtain ⟨f, hread, hmade, hfragment, -, honly⟩ := parsed_tree_well_formed hitems
  exact ⟨hitems, f, hread, hmade, hfragment, (honly f).mpr rfl⟩

end MarkupDiff
