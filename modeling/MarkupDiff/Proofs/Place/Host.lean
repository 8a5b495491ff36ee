import MarkupDiff.Proofs.Node.Settled
import MarkupDiff.Proofs.Place.Descent

namespace MarkupDiff

open Place

theorem Value.eq_of_nat_eq {i j : Nat} (h : nat i = nat j) : i = j := by
  injection h with hnumber
  injection hnumber with hint
  exact Int.ofNat.inj hint

-- The selectors that a node adds to a location.
def Node.labels (siblings : List Node) (i : Nat) : Node → List String
  | element tag attrs _ => [selectorText siblings i tag attrs]
  | text _ => []
  | comment _ => []

-- A path that leads to a record leads on to each of its children.
theorem Place.Leads.child {start : Value} {path : Path} {p : Place} {labels : List String}
    {ns : List Node} {i : Nat} {n : Node} (h : Leads start path p p labels)
    (hfield : p.focus.field? "children" = some (.list (Node.toValues ns))) (hi : ns[i]? = some n) :
    Leads start (path ++ [.text "children", .nat i]) (p.child ns i n) (p.child ns i n)
      (labels ++ n.labels ns i) := by
  have hlist := h.step_list (step?_field hfield (by simp))
  have hitem : (p.enter (.text "children") (.list (Node.toValues ns))).step? (.nat i) =
      .ok (some ((p.enter (.text "children") (.list (Node.toValues ns))).enter (.nat i)
        n.toValue)) :=
    step?_item rfl (by simp [hi])
  rw [show path ++ [.text "children", .nat i] = path ++ [.text "children"] ++ [.nat i] by simp]
  cases n with
  | element tag attrs children =>
    exact hlist.step_element hitem rfl (selector_of_owner rfl rfl rfl hfield hi)
  | text s =>
    rw [show labels ++ (Node.text s).labels ns i = labels from List.append_nil labels]
    exact hlist.step_record hitem rfl
  | comment s =>
    rw [show labels ++ (Node.comment s).labels ns i = labels from List.append_nil labels]
    exact hlist.step_record hitem rfl

-- A path comes through a place that holds children, and through none of the elements among them.
def Path.StaysAt (path above : Path) (ns : List Node) : Prop :=
  above <+: path ∧ ∀ i tag attrs children, ns[i]? = some (.element tag attrs children) →
    ¬above ++ [.text "children", .nat i] <+: path

namespace Path

variable {above : Path} {ns : List Node}

theorem staysAt_step (above : Path) (ns : List Node) (s : Value) :
    (above ++ [s]).StaysAt above ns :=
  ⟨List.prefix_append _ _, fun _ _ _ _ _ h => absurd h.length_le (by simp)⟩

theorem staysAt_of_ne {s : Value} (hs : s ≠ .text "children") (rest : Path) :
    (above ++ s :: rest).StaysAt above ns := by
  refine ⟨List.prefix_append _ _, fun i _ _ _ _ h => ?_⟩
  obtain ⟨hstep, _⟩ := List.cons_prefix_cons.mp ((List.prefix_append_right_inj above).mp h)
  exact hs hstep.symm

theorem staysAt_of_text {i : Nat} {s : String} (hi : ns[i]? = some (.text s)) (rest : Path) :
    (above ++ .text "children" :: .nat i :: rest).StaysAt above ns := by
  refine ⟨List.prefix_append _ _, fun j tag attrs children hj h => ?_⟩
  have hbelow := (List.cons_prefix_cons.mp ((List.prefix_append_right_inj above).mp h)).2
  obtain rfl := Value.eq_of_nat_eq (List.cons_prefix_cons.mp hbelow).1
  exact absurd (hi.symm.trans hj) (by simp)

end Path

-- The places of a fragment itself and of its elements, each with the children it holds, the path
-- that leads there and the selectors of the elements on the way.
inductive Fragment.Host (f : Fragment) : Place → List Node → Path → List String → Prop
  | root : Host f (.root (toValue f)) f [] []
  | element {p : Place} {ns : List Node} {path : Path} {labels : List String} {i : Nat}
      {tag : String} {attrs : List Attr} {children : List Node} (hp : Host f p ns path labels)
      (hi : ns[i]? = some (.element tag attrs children)) :
      Host f (p.child ns i (.element tag attrs children)) children
        (path ++ [.text "children", .nat i]) (labels ++ [Node.selectorText ns i tag attrs])

namespace Fragment.Host

variable {f : Fragment} {p : Place} {ns : List Node} {path : Path} {labels : List String}

theorem field_children (h : Host f p ns path labels) :
    p.focus.field? "children" = some (.list (Node.toValues ns)) := by
  cases h <;> rfl

theorem step_children (h : Host f p ns path labels) :
    p.step? (.text "children") =
      .ok (some (p.enter (.text "children") (.list (Node.toValues ns)))) :=
  step?_field h.field_children (by simp)

theorem leads (h : Host f p ns path labels) : Leads (toValue f) path p p labels := by
  induction h with
  | root => exact Leads.refl _
  | element hp hi ih => exact ih.child hp.field_children hi

theorem leads_children (h : Host f p ns path labels) :
    Leads (toValue f) (path ++ [.text "children"]) p
      (p.enter (.text "children") (.list (Node.toValues ns))) labels :=
  h.leads.step_list h.step_children

theorem leads_child {i : Nat} {n : Node} (h : Host f p ns path labels) (hi : ns[i]? = some n) :
    Leads (toValue f) (path ++ [.text "children", .nat i]) (p.child ns i n) (p.child ns i n)
      (labels ++ n.labels ns i) :=
  h.leads.child h.field_children hi

-- Texts add nothing to the selectors on the way.
theorem of_text {s : String} (h : Host f p ns path labels) (i : Nat) :
    Host f p ns path (labels ++ (Node.text s).labels ns i) := by
  rwa [Node.labels, List.append_nil]

-- Below the top there is an outermost element on the way, which is all there is if its selector is
-- the only one.
theorem outermost (h : Host f p ns path labels) : (ns = f ∧ path = [] ∧ labels = []) ∨
    ∃ i tag attrs children, f[i]? = some (.element tag attrs children) ∧
      ((ns = children ∧ path = [.text "children", .nat i] ∧
          labels = [Node.selectorText f i tag attrs]) ∨
        (2 ≤ labels.length ∧ ∃ j t as cs, children[j]? = some (.element t as cs) ∧
          [.text "children", .nat i] ++ [.text "children", .nat j] <+: path)) := by
  induction h with
  | root => exact .inl ⟨rfl, rfl, rfl⟩
  | element _ hi ih =>
    right
    rcases ih with ⟨rfl, rfl, rfl⟩ | ⟨i, tag, attrs, children, htop, ⟨rfl, rfl, rfl⟩ |
      ⟨hlength, j, t, as, cs, hj, hbegins⟩⟩
    · exact ⟨_, _, _, _, hi, .inl ⟨rfl, rfl, rfl⟩⟩
    · exact ⟨i, tag, attrs, _, htop, .inr ⟨by simp, _, _, _, _, hi, List.prefix_rfl⟩⟩
    · refine ⟨i, tag, attrs, children, htop, .inr ⟨?_, j, t, as, cs, hj, ?_⟩⟩
      · exact hlength.trans (by simp)
      · exact hbegins.trans (List.prefix_append _ _)

-- There is one selector on a path exactly if the path stays in an outermost element.
theorem labels_eq_singleton_iff {target : Path} {label : String} (h : Host f p ns path labels)
    (hstays : target.StaysAt path ns) :
    labels = [label] ↔ ∃ i tag attrs children, f[i]? = some (.element tag attrs children) ∧
      Node.selectorText f i tag attrs = label ∧
      target.StaysAt [.text "children", .nat i] children := by
  constructor
  · intro hlabels
    rcases h.outermost with ⟨_, _, hnone⟩ | ⟨i, tag, attrs, children, htop, ⟨rfl, rfl, hone⟩ |
      ⟨hlength, _⟩⟩
    · exact absurd (hlabels.symm.trans hnone) (by simp)
    · obtain ⟨hlabel, _⟩ := List.cons.inj (hone.symm.trans hlabels)
      exact ⟨i, tag, attrs, ns, htop, hlabel, hstays⟩
    · exact absurd hlength (by simp [hlabels])
  · rintro ⟨i, tag, attrs, children, hi, rfl, hbegins, hinner⟩
    rcases h.outermost with ⟨rfl, rfl, _⟩ | ⟨j, t, as, cs, hj, hway⟩
    · exact absurd hbegins (hstays.2 i tag attrs children hi)
    have hbegins' : [.text "children", .nat j] <+: target := by
      rcases hway with ⟨_, rfl, _⟩ | ⟨_, _, _, _, _, _, hway⟩
      · exact hstays.1
      · exact (List.prefix_append _ _).trans (hway.trans hstays.1)
    have heq := List.prefix_or_prefix_of_prefix hbegins hbegins'
    obtain rfl : i = j := by
      rcases heq with heq | heq
      · exact Value.eq_of_nat_eq (by simpa using heq)
      · exact (Value.eq_of_nat_eq (by simpa using heq)).symm
    obtain ⟨rfl, rfl, rfl⟩ := Node.element.inj (Option.some.inj (hi.symm.trans hj))
    rcases hway with ⟨_, _, hlabels⟩ | ⟨_, k, u, bs, ds, hk, hway⟩
    · exact hlabels
    · exact absurd (hway.trans hstays.1) (hinner k u bs ds hk)

theorem below_of_below {m : Node} (h : Host f p ns path labels) (hm : Node.Below m ns) :
    Node.Below m f := by
  induction h with
  | root => exact hm
  | element _ hi ih => exact ih (.inside (List.mem_of_getElem? hi) hm)

end Fragment.Host

end MarkupDiff
