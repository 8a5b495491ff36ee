import MarkupDiff.Proofs.Place.Host
import MarkupDiff.Proofs.Place.Route
import MarkupDiff.Proofs.Place.Wandering
import MarkupDiff.Proofs.Value.Nested

namespace MarkupDiff

-- The label begins with the tag of an element of the tree.
def Tree.Root.Heads (t : Tree.Root) (label : String) : Prop :=
  ∃ tag attrs children marks, Node.Below (.element tag attrs children) t.nodes ∧
    label = tag ++ marks

namespace Place

open MarkupDiff.Tree (Root RootLink childLink)

def isElement (p : Place) : Bool :=
  (p.focus.field? "type").any (·.isText "element")

-- A record and those that its way back leads through, outermost first.
inductive Lineage : Place → List Place → Prop
  | top {p : Place} (h : ∀ q, Step p (.text "parent") q → ¬IsRecord q.focus) : Lineage p [p]
  | child {p q : Place} {places : List Place} (h : Step p (.text "parent") q)
      (hq : IsRecord q.focus) (hplaces : Lineage q places) : Lineage p (places ++ [p])

-- A node belongs to itself, and an attribute to the element in whose attributes it stands.
inductive BelongsTo : Place → Place → Prop
  | node {p : Place} (h : (p.focus.field? "type").isSome = true) : BelongsTo p p
  | attribute {p q attrs : Place} {key i : Value} (hp : p.focus.field? "type" = none)
      (hq : q.isElement = true) (hkey : key.text? = some "attrs") (hattrs : Step q key attrs)
      (hi : Step attrs i p) : BelongsTo p q

-- The selectors of the elements from the outermost one down to where a record stands.
def Traced (p : Place) (labels : List String) : Prop :=
  ∃ places, Lineage p places ∧
    (places.filter isElement).mapM selector = .ok (labels.map .text)

variable {t : Root} {link : List (Value × Value)} {p q : Place} {u : Root} {labels : List String}

theorem Traced.child {more : List String} (h : Traced q labels)
    (hparent : Step p (.text "parent") q) (hq : IsRecord q.focus)
    (hmore : ([p].filter isElement).mapM selector = .ok (more.map .text)) :
    Traced p (labels ++ more) := by
  obtain ⟨places, hlineage, hlabels⟩ := h
  refine ⟨places ++ [p], .child hparent hq hlineage, ?_⟩
  rw [List.filter_append, List.mapM_append, hlabels, hmore, List.map_append]
  rfl

namespace Stands

theorem field?_type (h : Stands t link p u) (hlink : RootLink link) :
    p.focus.field? "type" = some (.text u.typeName) := by
  obtain ⟨l, hfocus, -⟩ := h.exists_link hlink
  rw [hfocus, Root.field?_type]

-- Nothing but a text leads on from a record of the tree.
theorem isKey_of_step (h : Stands t link p u) (hlink : RootLink link) {s : Value}
    (hs : Step p s q) : s.IsKey := by
  obtain ⟨l, hfocus, hl⟩ := h.exists_link hlink
  have hkeys : ∀ e ∈ u.fields ++ l, ∃ k, e.1 = .text k := fun e he =>
    (Root.exists_holds_of_mem (hl.imp id And.left) he).imp fun _ => And.left
  rw [Root.recordWith_eq] at hfocus
  cases htext : s.text? with
  | some k =>
    match s, htext with
    | .text _, _ | .markup _, _ => rfl
  | none =>
    have hnone := Value.lookup_of_text?_none htext hkeys
    rcases hs.of_record hfocus with ⟨v, hv, -⟩ | ⟨hv, -⟩
    · exact absurd (hnone.symm.trans hv) (by simp)
    · exact absurd (hnone.symm.trans hv) (by simp)

-- Only elements have attributes.
theorem isElement_of_attrs (h : Stands t link p u) (hlink : RootLink link) {key : Value}
    (hkey : key.text? = some "attrs") (hs : Step p key q) : p.isElement = true := by
  have htype := h.field?_type hlink
  match u with
  | .node (.element _ _ _) =>
    simp [isElement, htype, Root.typeName, Node.typeName, Value.isText, Value.text?]
  | .fragment _ | .node (.text _) | .node (.comment _) =>
    obtain ⟨l, hfocus, hl⟩ := h.exists_link hlink
    rw [Root.recordWith_eq] at hfocus
    rcases hs.of_record hfocus with ⟨v, hv, -⟩ | ⟨hv, -⟩ <;>
      rw [Value.lookup_of_text? hkey] at hv <;>
      rcases hl with (rfl | rfl) | ⟨rfl, -⟩ <;>
      simp [Root.fields, childLink, Value.lookup, Value.equal_text] at hv

theorem traced_root {f : Fragment} (hlink : RootLink link) :
    Traced (.root ((Root.fragment f).recordWith link)) [] := by
  let root := Place.root ((Root.fragment f).recordWith link)
  have hroot : Stands (.fragment f) link root (.fragment f) := .root
  have htop : Lineage root [root] := by
    refine .top fun q hq => ?_
    rcases hlink with rfl | rfl
    · rcases hq.of_record rfl with ⟨v, hv, -, -⟩ | ⟨hv, -⟩
      · exact absurd hv (by simp [Value.lookup, Value.equal_text])
      · exact absurd hv (by simp [Value.lookup, Value.equal_text])
    · rcases hq.of_record rfl with ⟨v, hv, -, rfl⟩ | ⟨hv, -⟩
      · obtain rfl : Value.null = v := Option.some.inj hv
        exact id
      · exact absurd hv (by simp [Value.lookup, Value.equal_text])
  have hfragment : root.isElement = false := by
    simp [isElement, hroot.field?_type hlink, Root.typeName, Value.isText, Value.text?]
  refine ⟨_, htop, ?_⟩
  rw [List.filter_singleton, hfragment]
  rfl

-- A child has the selectors of its owner, and its own one if it is an element.
theorem traced_child {ns : List Node} {i : Nat} {n : Node} (h : Stands t link p u)
    (hlink : RootLink link) (hns : u.children? = some ns) (hi : ns[i]? = some n)
    (htraced : Traced p labels) (key : Value) :
    Traced ((p.enter key (.list (Node.toValues ns))).enter (.nat i) n.toValue)
      (labels ++ n.labels ns i) := by
  let child := (p.enter key (.list (Node.toValues ns))).enter (.nat i) n.toValue
  have hparent : Step child (.text "parent") p := by
    cases n <;> exact .back rfl rfl rfl
  refine htraced.child hparent (h.isRecord hlink) ?_
  cases n with
  | element tag attrs children =>
    have hfield := h.field?_children hlink
    rw [hns] at hfield
    have hselector : selector child = .ok (.text (Node.selectorText ns i tag attrs)) :=
      selector_of_owner rfl rfl rfl hfield hi
    change [child].mapM selector = _
    rw [List.mapM_cons, hselector]
    rfl
  | text s | comment s => rfl

end Stands

-- What two walks along one path have come to, without a step back: the last record `target`, where
-- they stand, and the selectors of the elements on the way.
inductive Along (t : Root) (link : List (Value × Value)) : Place → Place → List String → Prop
  | node {p : Place} {u : Root} {labels : List String} (hp : Stands t link p u)
      (h : Traced p labels) : Along t link p p labels
  | children {p : Place} {u : Root} {ns : List Node} {key : Value} {labels : List String}
      (hp : Stands t link p u) (hns : u.children? = some ns) (h : Traced p labels) :
      Along t link p (p.enter key (.list (Node.toValues ns))) labels
  | attrs {p attrs : Place} {as : List Attr} {key : Value} {labels : List String}
      (hp : p.isElement = true) (hkey : key.text? = some "attrs") (hstep : Step p key attrs)
      (hattrs : attrs.focus = .list (as.map Attr.toValue)) (h : Traced p labels) :
      Along t link p attrs labels
  | attr {p q : Place} {a : Attr} {labels : List String} (hq : q.focus = a.toValue)
      (hbelongs : BelongsTo q p) (h : Traced p labels) : Along t link q q labels

namespace Along

variable {target : Place} {s : Value}

theorem belongs (h : Along t link target p labels) (hlink : RootLink link) :
    ∃ node, BelongsTo target node ∧ Traced node labels := by
  cases h with
  | node hp htraced | children hp _ htraced =>
    exact ⟨_, .node (by simp [hp.field?_type hlink]), htraced⟩
  | attrs hp _ _ _ htraced =>
    exact ⟨_, .node (Option.isSome_of_any hp), htraced⟩
  | attr _ hbelongs htraced => exact ⟨_, hbelongs, htraced⟩

-- What one more step comes to: a scalar, a list, a record that is no element, or an element, which
-- adds its selector.
inductive Next (t : Root) (link : List (Value × Value)) (target q : Place) (labels : List String) :
    Prop
  | scalar (hq : IsScalar q.focus)
  | list {xs : List Value} (hq : q.focus = .list xs) (h : Along t link target q labels)
  | record {es : List (Value × Value)} (hq : q.focus = .record es) (htype : q.isElement = false)
      (h : Along t link q q labels)
  | element {es : List (Value × Value)} {label : String} (hq : q.focus = .record es)
      (htype : q.isElement = true) (hlabel : q.selector = .ok (.text label))
      (hhead : t.Heads label) (h : Along t link q q (labels ++ [label]))

theorem next_child {ns : List Node} {i : Nat} {n : Node} {key : Value} (hp : Stands t link p u)
    (hlink : RootLink link) (hns : u.children? = some ns) (hi : ns[i]? = some n)
    (htraced : Traced p labels) :
    Next t link target ((p.enter key (.list (Node.toValues ns))).enter (.nat i) n.toValue)
      labels := by
  have hmore := hp.traced_child hlink hns hi htraced key
  have hstands : Stands t link ((p.enter key (.list (Node.toValues ns))).enter (.nat i) n.toValue)
      (.node n) := .child hp hns hi
  cases n with
  | element tag attrs children =>
    have hfield := hp.field?_children hlink
    rw [hns] at hfield
    have hmarks : ∃ marks, Node.selectorText ns i tag attrs = tag ++ marks :=
      ⟨_, by simp only [Node.selectorText, String.append_assoc]; rfl⟩
    obtain ⟨marks, hmarks⟩ := hmarks
    exact .element rfl rfl (selector_of_owner rfl rfl rfl hfield hi)
      ⟨tag, attrs, children, marks, hstands.below_nodes (.here List.mem_cons_self), hmarks⟩
      (.node hstands hmore)
  | text s | comment s =>
    rw [Node.labels, List.append_nil] at hmore
    exact .record rfl rfl (.node hstands hmore)

theorem step (h : Along t link target p labels) (hlink : RootLink link) (hs : Step p s q)
    (hparent : s.text? ≠ some "parent") : Next t link target q labels := by
  cases h with
  | @node _ u _ hp htraced =>
    have hkey := hp.isKey_of_step hlink hs
    have hstep := hs.step?_eq hkey
    rcases hp.step_cases hlink hkey with hnone | ⟨k, hk, ⟨rfl, -⟩ | ⟨l, v, hholds, hne, hgoes⟩⟩
    · exact absurd (hnone.symm.trans hstep) (by simp)
    · exact absurd hk hparent
    obtain rfl := Option.some.inj (Except.ok.inj (hgoes.symm.trans hstep))
    cases hholds with
    | text _ s => exact .scalar trivial
    | attrs as =>
      have helement : p.isElement = true := hp.isElement_of_attrs hlink hk hs
      exact .list rfl (.attrs helement hk hs rfl htraced)
    | children hns => exact .list rfl (.children hp hns htraced)
    | noOwner | owner _ => exact absurd hk hparent
  | @children _ u ns key _ hp hns htraced =>
    obtain ⟨i, v, hi, rfl⟩ := hs.of_list rfl
    rw [Node.toValues_eq_map, List.getElem?_map, Option.map_eq_some_iff] at hi
    obtain ⟨n, hn, rfl⟩ := hi
    exact next_child hp hlink hns hn htraced
  | @attrs _ _ as key _ hp hk hattrs hfocus htraced =>
    obtain ⟨i, v, hi, rfl⟩ := hs.of_list hfocus
    rw [List.getElem?_map, Option.map_eq_some_iff] at hi
    obtain ⟨a, ha, rfl⟩ := hi
    exact .record rfl rfl (.attr rfl (.attribute rfl hp hk hattrs hs) htraced)
  | @attr _ _ a _ hfocus hbelongs htraced =>
    have htext : ∀ v, Value.lookup s [(.text "name", .text a.name), (.text "value", .text a.value)]
        = some v → IsScalar v ∧ v ≠ .owner := by
      intro v hv
      obtain ⟨k, hmem, -⟩ := Value.exists_mem_of_lookup hv
      simp only [List.mem_cons, Prod.mk.injEq, List.not_mem_nil, or_false] at hmem
      rcases hmem with ⟨-, rfl⟩ | ⟨-, rfl⟩ <;> exact ⟨trivial, Value.noConfusion⟩
    rcases hs.of_record hfocus with ⟨v, hv, -, rfl⟩ | ⟨hv, -⟩
    · exact .scalar (htext v hv).1
    · exact absurd rfl (htext _ hv).2

-- The walk to the last record and the walk that collects selectors come to the same place, or fail
-- alike, at a step that cannot be a key.
theorem run {path : Path} (h : Along t link target p labels) (hlink : RootLink link)
    (hpath : ∀ s ∈ path, s.text? ≠ some "parent") :
    (∃ w more node, walkFrom target p path = .ok w ∧ selectors p path = .ok (more.map .text) ∧
      (∀ label ∈ more, t.Heads label) ∧ BelongsTo w.target node ∧ Traced node (labels ++ more)) ∨
    ∃ fault, walkFrom target p path = .error fault ∧ selectors p path = .error fault ∧
      ∃ s ∈ path, ¬s.IsKey := by
  induction path generalizing p target labels with
  | nil =>
    obtain ⟨node, hbelongs, htraced⟩ := h.belongs hlink
    exact .inl ⟨_, [], node, rfl, rfl, by simp, hbelongs, by rwa [List.append_nil]⟩
  | cons s rest ih =>
    obtain ⟨hparent, hrest⟩ := List.forall_mem_cons.mp hpath
    obtain ⟨node, hbelongs, htraced⟩ := h.belongs hlink
    have hlater : (∃ t ∈ rest, ¬t.IsKey) → ∃ t ∈ s :: rest, ¬t.IsKey :=
      List.exists_mem_cons_of_exists
    rw [walkFrom, selectors]
    cases hstep : p.step? s with
    | error fault =>
      refine .inr ⟨fault, rfl, rfl, s, List.mem_cons_self, fun hkey => ?_⟩
      obtain ⟨next?, hok, -⟩ := p.exists_step? hkey
      exact absurd (hok.symm.trans hstep) (by simp)
    | ok next? =>
      cases next? with
      | none => exact .inl ⟨_, [], node, rfl, rfl, by simp, hbelongs, by rwa [List.append_nil]⟩
      | some q =>
        cases h.step hlink (.of_step? hstep) hparent with
        | scalar hq =>
          dsimp only
          cases hfocus : q.focus with
          | record es | list xs =>
            rw [hfocus] at hq
            exact hq.elim
          | _ => exact .inl ⟨_, [], node, rfl, rfl, by simp, hbelongs, by rwa [List.append_nil]⟩
        | list hq h =>
          simp only [hq]
          rcases ih h hrest with hboth | ⟨fault, hwalk, hselectors, hkey⟩
          · exact .inl hboth
          · exact .inr ⟨fault, hwalk, hselectors, hlater hkey⟩
        | record hq htype h =>
          rw [isElement, hq, Value.field?] at htype
          simp only [hq, htype, Bool.false_eq_true, if_false]
          rcases ih h hrest with hboth | ⟨fault, hwalk, hselectors, hkey⟩
          · exact .inl hboth
          · exact .inr ⟨fault, hwalk, hselectors, hlater hkey⟩
        | @element es label hq htype hlabel hhead h =>
          rw [isElement, hq, Value.field?] at htype
          simp only [hq, htype, if_true, hlabel]
          rcases ih h hrest with ⟨w, more, node, hw, hmore, hheads, hbelongs, htraced⟩ |
            ⟨fault, hwalk, hselectors, hkey⟩
          · refine .inl ⟨w, label :: more, node, hw, ?_, List.forall_mem_cons.mpr ⟨hhead, hheads⟩,
              hbelongs, by simpa using htraced⟩
            simp only [hmore]
            rfl
          · exact .inr ⟨fault, hwalk, by simp only [hselectors]; rfl, hlater hkey⟩

end Along

end Place

end MarkupDiff
