import MarkupDiff.Place.Description
import MarkupDiff.Proofs.Difference.Objects
import MarkupDiff.Proofs.Markup.Building
import MarkupDiff.Proofs.Node.AttributeOrder
import MarkupDiff.Proofs.Node.Tagged
import MarkupDiff.Proofs.Place.Wandering
import MarkupDiff.Proofs.Text.Search

namespace MarkupDiff

open MarkupDiff.Tree (Root RootLink childLink)

-- What a report calls a tree.
def Tree.Root.described : Root → String
  | fragment _ => "document fragment"
  | node (.element tag _ _) => "tag <" ++ tag ++ ">"
  | node (.text content) => "text \"" ++ content ++ "\""
  | node (.comment content) => "comment \"" ++ content ++ "\""

namespace Place

variable {p : Place}

theorem description_of_tree {t : Root} {link : List (Value × Value)}
    (hlink : RootLink link ∨ link = childLink) (h : p.focus = t.recordWith link) :
    p.description = .ok t.described := by
  obtain ⟨v, above⟩ := p
  subst h
  match t with
  | .fragment f => rcases hlink with (rfl | rfl) | rfl <;> rfl
  | .node (.element tag attrs children) => rcases hlink with (rfl | rfl) | rfl <;> rfl
  | .node (.text s) | .node (.comment s) => rcases hlink with (rfl | rfl) | rfl <;> rfl

theorem description_of_attr {a : Attr} (h : p.focus = a.toValue) :
    p.description = .ok a.described := by
  obtain ⟨v, above⟩ := p
  subst h
  rfl

end Place

namespace Tree.Root

-- The type of a tree can be told from how its description begins.
def typeOf : List Char → String
  | 'd' :: _ => "fragment"
  | 't' :: 'a' :: _ => "element"
  | 't' :: _ => "text"
  | _ => "comment"

theorem typeOf_described (t : Root) : typeOf t.described.toList = t.typeName := by
  match t with
  | fragment _ | node (.element _ _ _) | node (.text _) | node (.comment _) =>
    simp [described, typeOf, typeName, Node.typeName]

theorem described_ne_of_typeName_ne {t u : Root} (h : t.typeName ≠ u.typeName) :
    t.described ≠ u.described := by
  intro heq
  exact h (by rw [← typeOf_described t, heq, typeOf_described])

end Tree.Root

namespace Attr

-- The name is not empty, and none but its first character can be an equals sign.
def Named (a : Attr) : Prop :=
  ∃ c cs, a.name.toList = c :: cs ∧ '=' ∉ cs

-- The first equals sign after the first character of the name is the one that ends it.
theorem eq_of_described_eq {a b : Attr} (ha : a.Named) (hb : b.Named)
    (h : a.described = b.described) : a.name = b.name ∧ a.value = b.value := by
  obtain ⟨c, cs, hname, hcs⟩ := ha
  obtain ⟨d, ds, hname', hds⟩ := hb
  have hlists : c :: (cs ++ '=' :: '"' :: (a.value.toList ++ "\"]".toList)) =
      d :: (ds ++ '=' :: '"' :: (b.value.toList ++ "\"]".toList)) := by
    have htexts := congrArg String.toList h
    simpa [described, hname, hname'] using htexts
  obtain ⟨rfl, hrest⟩ := List.cons.inj hlists
  have hsplit := Text.splitAtChar?_append hcs ('"' :: (a.value.toList ++ "\"]".toList))
  rw [hrest, Text.splitAtChar?_append hds] at hsplit
  obtain ⟨rfl, hvalues⟩ := Prod.mk.inj (Option.some.inj hsplit)
  refine ⟨String.toList_inj.mp (hname.trans hname'.symm), String.toList_inj.mp ?_⟩
  exact (List.append_cancel_right (List.cons.inj hvalues).2).symm

end Attr

namespace Tree.Root

-- The attributes of all elements of the tree are named.
def Named (t : Root) : Prop :=
  ∀ tag attrs children, Node.Below (.element tag attrs children) t.nodes →
    ∀ a ∈ attrs, a.Named

variable {t : Root}

theorem Named.child {ns : List Node} {n : Node} (h : t.Named) (hns : t.children? = some ns)
    (hn : n ∈ ns) : (node n).Named := by
  intro tag attrs children hbelow
  refine h tag attrs children (below_of_children? hns (hbelow.mono fun m hm => ?_))
  rw [List.mem_singleton.mp hm]
  exact hn

theorem named_of_mem_sorted {attrs : List Attr} (h : ∀ a ∈ attrs, a.Named) :
    ∀ a ∈ Attr.sorted attrs, a.Named := by
  intro a ha
  obtain ⟨b, hb, rfl⟩ := List.mem_map.mp ha
  rw [Attr.Named, Attr.canonical_name]
  exact h b (List.mem_mergeSort.mp hb)

theorem Named.normal (h : t.Named) (o : Options) : (t.normal o).Named := by
  intro tag attrs children hbelow
  have hsettled : ∀ ns, Node.Below (.element tag attrs children)
      (Node.settled o (Node.normals o ns)) →
      (∀ as cs, Node.Below (.element tag as cs) ns → ∀ a ∈ as, a.Named) →
      ∀ a ∈ attrs, a.Named := by
    intro ns hbelow hnamed
    obtain ⟨as, cs, has, rfl⟩ := Node.exists_below_of_settled hbelow
    exact named_of_mem_sorted (hnamed as cs has)
  match t with
  | .fragment f => exact hsettled f hbelow (h tag)
  | .node (.element t as cs) =>
    rcases Node.below_element_cons.mp hbelow with heq | hinside | hnone
    · obtain ⟨rfl, rfl, -⟩ := Node.element.inj heq
      exact named_of_mem_sorted (h tag as cs (.here List.mem_cons_self))
    · exact hsettled cs hinside fun bs ds hm => h tag bs ds (.inside List.mem_cons_self hm)
    · exact absurd hnone (Node.not_below_nil _)
  | .node (.text s) | .node (.comment s) => exact h tag attrs children hbelow

end Tree.Root

-- Attributes that are read from markup are named.
theorem Fragment.named_of_ofMarkup {markup : String} {f : Fragment}
    (h : Fragment.ofMarkup markup = .ok f) : (Root.fragment f).Named := by
  intro tag attrs children hbelow a ha
  obtain ⟨as, hproper, rfl⟩ := isProper_of_ofMarkup h hbelow
  obtain ⟨p, hp, rfl⟩ := List.mem_map.mp ha
  obtain ⟨c, cs, hname, -, hcs⟩ := (hproper.names p hp).shape
  exact ⟨c, cs, hname, fun hequals => absurd (hcs '=' hequals) (by decide)⟩

end MarkupDiff
