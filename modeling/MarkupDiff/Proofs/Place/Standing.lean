import MarkupDiff.Proofs.Place.Descent
import MarkupDiff.Proofs.Tree.NormalForm
import MarkupDiff.Proofs.Value.Form

namespace MarkupDiff

namespace Value

variable {key : Value} {es : List (Value × Value)}

-- A text is found under its characters, whether it counts as markup or not.
theorem lookup_of_text? {k : String} (h : key.text? = some k) :
    lookup key es = lookup (.text k) es := by
  have hequal : ∀ v, key.equal v = (Value.text k).equal v := by
    intro v
    cases key <;> simp_all [text?, equal]
  simp only [lookup, hequal]

theorem lookup_of_text?_none (h : key.text? = none) (hes : ∀ e ∈ es, ∃ k, e.1 = .text k) :
    lookup key es = none := by
  have hnone : ∀ e ∈ es, key.equal e.1 = false := by
    intro e he
    obtain ⟨k, hk⟩ := hes e he
    rw [hk]
    cases key <;> simp_all [text?, equal, number?]
  rw [lookup, List.find?_eq_none.mpr (by simpa using hnone), Option.map_none]

theorem exists_mem_of_lookup_text {k : String} {v : Value} (h : lookup (.text k) es = some v) :
    ∃ e ∈ es, (Value.text k).equal e.1 = true ∧ e.2 = v := by
  obtain ⟨e, he, rfl⟩ := Option.map_eq_some_iff.mp h
  have hkey := List.find?_some he
  exact ⟨e, List.mem_of_find?_eq_some he, hkey, rfl⟩

end Value

namespace Tree

-- The link of a record that is nobody's child, and that of a child.
def RootLink (link : List (Value × Value)) : Prop :=
  link = [] ∨ link = [(.text "parent", .null)]

def childLink : List (Value × Value) := [(.text "parent", .owner)]

namespace Root

def children? : Root → Option (List Node)
  | fragment f => some f
  | node (.element _ _ children) => some children
  | node _ => none

def typeName : Root → String
  | fragment _ => "fragment"
  | node n => n.typeName

-- The entries of a record of the tree but for the link.
def fields : Root → List (Value × Value)
  | fragment f => [(.text "type", .text "fragment"), (.text "children", .list (Node.toValues f))]
  | node (.element tag attrs children) =>
    [(.text "type", .text "element"), (.text "tag", .text tag),
      (.text "attrs", .list (attrs.map Attr.toValue)),
      (.text "children", .list (Node.toValues children))]
  | node (.text content) => [(.text "type", .text "text"), (.text "content", .text content)]
  | node (.comment content) => [(.text "type", .text "comment"), (.text "content", .text content)]

theorem recordWith_eq (link : List (Value × Value)) (t : Root) :
    t.recordWith link = .record (t.fields ++ link) := by
  match t with
  | fragment f => rfl
  | node (.element tag attrs children) => rfl
  | node (.text s) => rfl
  | node (.comment s) => rfl

-- What a record of a tree can hold, and under which names.
inductive Holds (t : Root) (link : List (Value × Value)) : String → Value → Prop
  | text {k : String} (hk : k ∈ ["type", "tag", "content"]) (s : String) : Holds t link k (.text s)
  | attrs (attrs : List Attr) : Holds t link "attrs" (.list (attrs.map Attr.toValue))
  | children {ns : List Node} (h : t.children? = some ns) :
      Holds t link "children" (.list (Node.toValues ns))
  | noOwner : Holds t link "parent" .null
  | owner (h : link = childLink) : Holds t link "parent" .owner

variable {t : Root} {link : List (Value × Value)} {e : Value × Value}

theorem exists_holds_of_mem_fields (he : e ∈ t.fields) :
    ∃ k, e.1 = .text k ∧ Holds t link k e.2 := by
  match t with
  | fragment f =>
    simp only [fields, List.mem_cons, List.not_mem_nil, or_false] at he
    rcases he with rfl | rfl
    · exact ⟨_, rfl, .text (by decide) _⟩
    · exact ⟨_, rfl, .children rfl⟩
  | node (.element tag attrs children) =>
    simp only [fields, List.mem_cons, List.not_mem_nil, or_false] at he
    rcases he with rfl | rfl | rfl | rfl
    · exact ⟨_, rfl, .text (by decide) _⟩
    · exact ⟨_, rfl, .text (by decide) _⟩
    · exact ⟨_, rfl, .attrs attrs⟩
    · exact ⟨_, rfl, .children rfl⟩
  | node (.text s) | node (.comment s) =>
    simp only [fields, List.mem_cons, List.not_mem_nil, or_false] at he
    rcases he with rfl | rfl
    · exact ⟨_, rfl, .text (by decide) _⟩
    · exact ⟨_, rfl, .text (by decide) _⟩

theorem exists_holds_of_mem_link (hlink : RootLink link ∨ link = childLink) (he : e ∈ link) :
    ∃ k, e.1 = .text k ∧ Holds t link k e.2 := by
  rcases hlink with (rfl | rfl) | rfl
  · exact absurd he List.not_mem_nil
  · rw [List.mem_singleton.mp he]
    exact ⟨_, rfl, .noOwner⟩
  · rw [List.mem_singleton.mp he]
    exact ⟨_, rfl, .owner rfl⟩

theorem exists_holds_of_mem (hlink : RootLink link ∨ link = childLink) (he : e ∈ t.fields ++ link) :
    ∃ k, e.1 = .text k ∧ Holds t link k e.2 :=
  (List.mem_append.mp he).elim exists_holds_of_mem_fields (exists_holds_of_mem_link hlink)

theorem holds_of_field? (hlink : RootLink link ∨ link = childLink) {k : String} {v : Value}
    (h : (Value.record (t.fields ++ link)).field? k = some v) : Holds t link k v := by
  obtain ⟨e, he, hkey, rfl⟩ := Value.exists_mem_of_lookup_text h
  obtain ⟨k', hk', hholds⟩ := exists_holds_of_mem hlink he
  rw [hk', Value.equal_text, beq_iff_eq] at hkey
  exact hkey ▸ hholds

theorem field?_type (link : List (Value × Value)) :
    (t.recordWith link).field? "type" = some (.text t.typeName) := by
  match t with
  | fragment f => rfl
  | node (.element _ _ _) | node (.text _) | node (.comment _) => rfl

theorem field?_children (hlink : RootLink link ∨ link = childLink) :
    (t.recordWith link).field? "children" =
      t.children?.map fun ns => .list (Node.toValues ns) := by
  match t with
  | fragment f => rfl
  | node (.element tag attrs children) => rfl
  | node (.text s) | node (.comment s) => rcases hlink with (rfl | rfl) | rfl <;> rfl

end Root

end Tree

namespace Place

open MarkupDiff.Tree (Root RootLink childLink)

-- The places where the trees within a tree stand: the whole at the top, and each child in the list
-- of children, whatever key has led to that list.
inductive Stands (t : Root) (link : List (Value × Value)) : Place → Root → Prop
  | root : Stands t link (.root (t.recordWith link)) t
  | child {p : Place} {u : Root} {key : Value} {siblings : List Node} {i : Nat} {n : Node}
      (hp : Stands t link p u) (hchildren : u.children? = some siblings)
      (hi : siblings[i]? = some n) :
      Stands t link ((p.enter key (.list (Node.toValues siblings))).enter (.nat i) n.toValue)
        (.node n)

-- Where a walk through a tree can come to.
inductive Reached (t : Root) (link : List (Value × Value)) : Place → Prop
  | node {p : Place} {u : Root} (hp : Stands t link p u) : Reached t link p
  | children {p : Place} {u : Root} {key : Value} {ns : List Node} (hp : Stands t link p u)
      (hchildren : u.children? = some ns) :
      Reached t link (p.enter key (.list (Node.toValues ns)))
  | attrs {p : Place} (attrs : List Attr) (hp : p.focus = .list (attrs.map Attr.toValue)) :
      Reached t link p
  | attr {p : Place} (a : Attr) (hp : p.focus = a.toValue) : Reached t link p
  | text {p : Place} (s : String) (hp : p.focus = .text s) : Reached t link p
  | null {p : Place} (hp : p.focus = .null) : Reached t link p

section Steps

variable {p : Place} {s : Value}

-- One step from a record whose keys are texts.
theorem step?_record {es : List (Value × Value)} (hp : p.focus = .record es)
    (hes : ∀ e ∈ es, ∃ k, e.1 = .text k) (hs : s.IsKey) :
    p.step? s = .ok none ∨ ∃ k v, s.text? = some k ∧ p.focus.field? k = some v ∧
      (v = .owner ∧ p.step? s = .ok p.owner? ∨
        v ≠ .owner ∧ p.step? s = .ok (some (p.enter s v))) := by
  have hkey : s.unhashablePart? = none := hs
  cases htext : s.text? with
  | none =>
    have hnone := Value.lookup_of_text?_none htext hes
    exact .inl (by simp only [step?, hp, hkey, hnone])
  | some k =>
    have hlookup : Value.lookup s es = p.focus.field? k := by
      rw [hp]
      exact Value.lookup_of_text? htext
    cases hfield : p.focus.field? k with
    | none =>
      rw [hfield] at hlookup
      exact .inl (by simp only [step?, hp, hkey, hlookup])
    | some v =>
      rw [hfield] at hlookup
      refine .inr ⟨k, v, rfl, hfield, ?_⟩
      by_cases hv : v = .owner
      · subst hv
        exact .inl ⟨rfl, by simp only [step?, hp, hkey, hlookup]⟩
      · exact .inr ⟨hv, by simp only [step?, hp, hkey, hlookup, enter]⟩

theorem step?_list {xs : List Value} (hp : p.focus = .list xs) (s : Value) :
    p.step? s = .ok none ∨ ∃ i v, s.int? = some (Int.ofNat i) ∧ xs[i]? = some v ∧
      p.step? s = .ok (some (p.enter (.nat i) v)) := by
  cases hint : s.int? with
  | none => exact .inl (by simp only [step?, hp, hint])
  | some j =>
    by_cases hneg : j < 0
    · exact .inl (by simp only [step?, hp, hint, if_pos hneg])
    · obtain ⟨i, rfl⟩ := Int.eq_ofNat_of_zero_le (Int.not_lt.mp hneg)
      cases hi : xs[i]? with
      | none => exact .inl (by simp only [step?, hp, hint, if_neg hneg, Int.toNat_natCast, hi]; rfl)
      | some v =>
        refine .inr ⟨i, v, rfl, hi, ?_⟩
        simp only [step?, hp, hint, if_neg hneg, Int.toNat_natCast, hi, Option.map_some, enter]
        rfl

end Steps

variable {t : Root} {link : List (Value × Value)} {p : Place} {u : Root}

namespace Stands

theorem exists_link (h : Stands t link p u) (hlink : RootLink link) :
    ∃ l, p.focus = u.recordWith l ∧ (RootLink l ∨ l = childLink ∧
      ∃ owner w, p.owner? = some owner ∧ Stands t link owner w) := by
  cases h with
  | root => exact ⟨link, rfl, .inl hlink⟩
  | @child q w key siblings i n hq hchildren hi =>
    exact ⟨childLink, (n.recordWith_owner).symm, .inr ⟨rfl, q, w, rfl, hq⟩⟩

-- A step from a tree goes nowhere, back to its owner, or to something that its record holds.
theorem step_cases (h : Stands t link p u) (hlink : RootLink link) {s : Value} (hs : s.IsKey) :
    p.step? s = .ok none ∨ ∃ k, s.text? = some k ∧
      ((k = "parent" ∧ ∃ owner w, p.step? s = .ok (some owner) ∧ Stands t link owner w) ∨
        ∃ l v, Root.Holds u l k v ∧ v ≠ .owner ∧ p.step? s = .ok (some (p.enter s v))) := by
  obtain ⟨l, hfocus, hl⟩ := h.exists_link hlink
  have hl' : RootLink l ∨ l = childLink := hl.imp id And.left
  have hkeys : ∀ e ∈ u.fields ++ l, ∃ k, e.1 = .text k := fun e he =>
    (Root.exists_holds_of_mem hl' he).imp fun _ => And.left
  rw [Root.recordWith_eq] at hfocus
  rcases step?_record hfocus hkeys hs with hnone | ⟨k, v, hk, hfield, hstep⟩
  · exact .inl hnone
  refine .inr ⟨k, hk, ?_⟩
  rw [hfocus] at hfield
  have hholds := Root.holds_of_field? hl' hfield
  rcases hstep with ⟨rfl, hstep⟩ | ⟨hv, hstep⟩
  · cases hholds with
    | owner hchild =>
      rcases hl with (rfl | rfl) | ⟨_, owner, w, howner, hstands⟩
      · simp [childLink] at hchild
      · simp [childLink] at hchild
      · exact .inl ⟨rfl, owner, w, howner ▸ hstep, hstands⟩
  · exact .inr ⟨l, v, hholds, hv, hstep⟩

-- Two steps, to the children and to one of them, lead to where a child stands.
theorem exists_child (h : Stands t link p u) (hlink : RootLink link) {key s : Value}
    (hkey : key.text? = some "children") {list child : Place}
    (hlist : p.step? key = .ok (some list)) (hchild : list.step? s = .ok (some child)) :
    ∃ siblings i n, u.children? = some siblings ∧ siblings[i]? = some n ∧
      s.int? = some (Int.ofNat i) ∧
      child = (p.enter key (.list (Node.toValues siblings))).enter (.nat i) n.toValue := by
  have hisKey : key.IsKey := by
    cases key <;> simp_all [Value.text?, Value.IsKey, Value.unhashablePart?]
  rcases h.step_cases hlink hisKey with hnone | ⟨k, hk, hstep⟩
  · exact absurd (hnone.symm.trans hlist) (by simp)
  obtain rfl : "children" = k := Option.some.inj (hkey.symm.trans hk)
  rcases hstep with ⟨hparent, _⟩ | ⟨l, v, hholds, hv, hstep⟩
  · exact absurd hparent (by decide)
  obtain rfl := Option.some.inj (Except.ok.inj (hlist.symm.trans hstep))
  obtain ⟨siblings, hsiblings, rfl⟩ :
      ∃ ns, u.children? = some ns ∧ v = .list (Node.toValues ns) := by
    generalize hname : "children" = k at hholds
    cases hholds with
    | text hk _ => exact absurd (hname ▸ hk) (by decide)
    | attrs _ => exact absurd hname (by decide)
    | children hns => exact ⟨_, hns, rfl⟩
    | noOwner => exact absurd hname (by decide)
    | owner _ => exact absurd rfl hv
  rcases step?_list (p := p.enter key (.list (Node.toValues siblings))) rfl s with
    hnone | ⟨i, v, hint, hi, hstep⟩
  · exact absurd (hnone.symm.trans hchild) (by simp)
  obtain rfl := Option.some.inj (Except.ok.inj (hchild.symm.trans hstep))
  rw [Node.toValues_eq_map, List.getElem?_map, Option.map_eq_some_iff] at hi
  obtain ⟨n, hn, rfl⟩ := hi
  exact ⟨siblings, i, n, hsiblings, hn, hint, rfl⟩

end Stands

theorem Reached.step (h : Reached t link p) (hlink : RootLink link) {s : Value} (hs : s.IsKey) :
    ∃ next?, p.step? s = .ok next? ∧ ∀ q ∈ next?, Reached t link q := by
  cases h with
  | node hp =>
    rcases hp.step_cases hlink hs with hnone | ⟨k, _, ⟨_, q, w, hstep, hq⟩ | ⟨l, v, hv, hne, hstep⟩⟩
    · exact ⟨none, hnone, by simp⟩
    · refine ⟨_, hstep, fun r hr => ?_⟩
      obtain rfl := Option.some.inj hr
      exact .node hq
    · refine ⟨_, hstep, fun r hr => ?_⟩
      obtain rfl := Option.some.inj hr
      cases hv with
      | text _ s => exact .text s rfl
      | attrs attrs => exact .attrs attrs rfl
      | children hchildren => exact .children hp hchildren
      | noOwner => exact .null rfl
      | owner _ => exact absurd rfl hne
  | @children q u key ns hq hchildren =>
    rcases step?_list (p := q.enter key (.list (Node.toValues ns))) rfl s with
      hnone | ⟨i, v, _, hi, hstep⟩
    · exact ⟨none, hnone, by simp⟩
    · refine ⟨_, hstep, fun r hr => ?_⟩
      obtain rfl := Option.some.inj hr
      rw [Node.toValues_eq_map, List.getElem?_map, Option.map_eq_some_iff] at hi
      obtain ⟨n, hn, rfl⟩ := hi
      exact .node (.child hq hchildren hn)
  | attrs attrs hp =>
    rcases step?_list hp s with hnone | ⟨i, v, _, hi, hstep⟩
    · exact ⟨none, hnone, by simp⟩
    · refine ⟨_, hstep, fun r hr => ?_⟩
      obtain rfl := Option.some.inj hr
      rw [List.getElem?_map, Option.map_eq_some_iff] at hi
      obtain ⟨a, _, rfl⟩ := hi
      exact .attr a rfl
  | attr a hp =>
    have hkeys : ∀ e ∈ [((.text "name", .text a.name) : Value × Value), (.text "value", .text a.value)],
        ∃ k, e.1 = .text k := by simp
    rcases step?_record hp hkeys hs with hnone | ⟨k, v, _, hfield, hstep⟩
    · exact ⟨none, hnone, by simp⟩
    · rw [hp] at hfield
      obtain ⟨e, he, _, rfl⟩ := Value.exists_mem_of_lookup_text hfield
      obtain ⟨w, hw⟩ : ∃ w, e.2 = .text w := by
        simp only [List.mem_cons, List.not_mem_nil, or_false] at he
        rcases he with rfl | rfl <;> exact ⟨_, rfl⟩
      rcases hstep with ⟨howner, _⟩ | ⟨_, hstep⟩
      · rw [hw] at howner
        exact Value.noConfusion howner
      · refine ⟨_, hstep, fun r hr => ?_⟩
        obtain rfl := Option.some.inj hr
        exact .text w hw
  | text s hp => exact ⟨none, by simp only [step?, hp], by simp⟩
  | null hp => exact ⟨none, by simp only [step?, hp], by simp⟩

end Place

end MarkupDiff
