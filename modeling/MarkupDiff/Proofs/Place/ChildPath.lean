import MarkupDiff.Proofs.Node.SelectorText
import MarkupDiff.Proofs.Place.Wandering

namespace MarkupDiff

namespace Value

-- Truth values count as the integers 0 and 1, also where they are positions.
theorem equal_iff_int?_eq {v w : Value} {m n : Int} (hv : v.int? = some m) (hw : w.int? = some n) :
    v.equal w = true ↔ m = n := by
  have hnumber : ∀ {u : Value} {k : Int}, u.int? = some k → u.number? = some (.int k) := by
    intro u k hu
    cases u with
    | num l => cases l <;> simp_all [int?, number?]
    | _ => simp_all [int?, number?]
  have hkey : ∀ {u : Value} {k : Int}, u.int? = some k → u.IsKey := by
    intro u k hu
    cases u <;> simp_all [int?, IsKey, unhashablePart?]
  rw [equal_iff_form_eq (hkey hv) (hkey hw), form_of_number? (hnumber hv),
    form_of_number? (hnumber hw)]
  simp [Number.magnitude]

end Value

namespace Node

-- The selectors of the elements on the way down from a list of children, by their positions.
inductive Labelled : List Node → List Nat → List String → Prop
  | nil (ns : List Node) : Labelled ns [] []
  | cons {ns : List Node} {i : Nat} {tag : String} {attrs : List Attr} {children : List Node}
      {is : List Nat} {labels : List String} (hi : ns[i]? = some (.element tag attrs children))
      (h : Labelled children is labels) :
      Labelled ns (i :: is) (selectorText ns i tag attrs :: labels)

-- Every element of the list can be told apart in selectors, at any depth.
def AllSelectable (ns : List Node) : Prop :=
  ∀ tag attrs children, Below (.element tag attrs children) ns → Selectable tag attrs

variable {ns : List Node} {is js : List Nat} {labels : List String}

theorem AllSelectable.of_getElem? {i : Nat} {tag : String} {attrs : List Attr}
    {children : List Node} (h : AllSelectable ns)
    (hi : ns[i]? = some (.element tag attrs children)) :
    Selectable tag attrs ∧ AllSelectable children :=
  ⟨h _ _ _ (.here (List.mem_of_getElem? hi)),
    fun _ _ _ hbelow => h _ _ _ (.inside (List.mem_of_getElem? hi) hbelow)⟩

namespace Labelled

theorem notMem_of_mem (h : Labelled ns is labels) (hns : AllSelectable ns) :
    ∀ label ∈ labels, ' ' ∉ label.toList := by
  induction h with
  | nil => simp
  | cons hi _ ih =>
    obtain ⟨hhere, hbelow⟩ := hns.of_getElem? hi
    exact List.forall_mem_cons.mpr ⟨notMem_selectorText hhere, ih hbelow⟩

theorem labels_eq {labels' : List String} (h : Labelled ns is labels) (h' : Labelled ns is labels') :
    labels = labels' := by
  induction h generalizing labels' with
  | nil =>
    cases h'
    rfl
  | cons hi _ ih =>
    cases h' with
    | cons hi' h' =>
      obtain ⟨rfl, rfl, rfl⟩ := Node.element.inj (Option.some.inj (hi.symm.trans hi'))
      rw [ih h']

-- The way down can be read back from the selectors on it.
theorem positions_eq (h : Labelled ns is labels) (h' : Labelled ns js labels)
    (hns : AllSelectable ns) : is = js := by
  induction h generalizing js with
  | nil =>
    cases h'
    rfl
  | @cons ns i tag attrs children is labels hi h ih =>
    generalize hlabels : selectorText ns i tag attrs :: labels = labels' at h'
    cases h' with
    | nil => exact absurd hlabels (by simp)
    | @cons _ j tag' attrs' children' js labels' hj h' =>
      obtain ⟨hhere, rfl⟩ := List.cons.inj hlabels
      obtain ⟨hselectable, hbelow⟩ := hns.of_getElem? hi
      obtain rfl := selectorText_inj hi hj hselectable (hns.of_getElem? hj).1 hhere
      obtain ⟨_, _, rfl⟩ := Node.element.inj (Option.some.inj (hi.symm.trans hj))
      rw [ih h' hbelow]

end Labelled

end Node

namespace Place

open MarkupDiff.Tree (Root RootLink)

theorem eq_of_chain_eq {ls ms : List String} (hls : ∀ l ∈ ls, ' ' ∉ l.toList)
    (hms : ∀ m ∈ ms, ' ' ∉ m.toList) (hne : ls ≠ []) (hne' : ms ≠ []) (h : chain ls = chain ms) :
    ls = ms := by
  have hchain : ∀ {xs : List String}, xs ≠ [] →
      (chain xs).toList = [' ', '>', ' '].intercalate (xs.map String.toList) := by
    intro xs hxs
    rw [chain, if_neg (by simpa using hxs), String.toList_intercalate]
    rfl
  have h := congrArg String.toList h
  rw [hchain hne, hchain hne'] at h
  refine List.map_injective_iff.mpr (fun _ _ => String.toList_inj.mp) ?_
  exact Text.eq_of_intercalate_eq (by simpa using hls) (by simpa using hms) (by simpa using hne)
    (by simpa using hne') h

-- A path that leads from record to record through lists of children.
def childPath : List Value → Path
  | [] => []
  | s :: steps => .text "children" :: s :: childPath steps

-- The steps are positions in lists, and count as these.
def ArePositions (steps : List Value) (is : List Nat) : Prop :=
  List.Forall₂ (fun s i => s.int? = some (Int.ofNat i)) steps is

theorem equalItems_childPath_iff {steps steps' : List Value} {is js : List Nat}
    (h : ArePositions steps is) (h' : ArePositions steps' js) :
    Value.equalItems (childPath steps) (childPath steps') = true ↔ is = js := by
  induction h generalizing steps' js with
  | nil => cases h' <;> simp [childPath, Value.equalItems]
  | cons hs _ ih =>
    cases h' with
    | nil => simp [childPath, Value.equalItems]
    | cons hs' h' =>
      rw [childPath, childPath, Value.equalItems, Value.equalItems, Value.equal_text,
        List.cons.injEq, Bool.and_eq_true, Bool.and_eq_true, Value.equal_iff_int?_eq hs hs', ih h',
        Int.ofNat.injEq]
      simp

-- The whole path can be followed, and what it leads to has the type of an element.
def LeadsToElement (p : Place) (path : Path) : Prop :=
  ∃ target, walkFrom p p path = .ok ⟨target, true⟩ ∧
    target.focus.field? "type" = some (.text "element")

variable {t : Root} {link : List (Value × Value)} {p : Place} {u : Root} {steps : List Value}

namespace Stands

-- Where a path begins that leads through children, there are children.
theorem exists_child_of_leadsToElement (h : Stands t link p u) (hlink : RootLink link) {s : Value}
    (hpath : LeadsToElement p (childPath (s :: steps))) :
    ∃ ns i n, u.children? = some ns ∧ ns[i]? = some n ∧ s.int? = some (Int.ofNat i) ∧
      let list := p.enter (.text "children") (.list (Node.toValues ns))
      p.step? (.text "children") = .ok (some list) ∧ list.step? s = .ok (some (p.child ns i n)) ∧
        LeadsToElement (p.child ns i n) (childPath steps) := by
  obtain ⟨target, hwalk, htype⟩ := hpath
  rw [childPath, walkFrom] at hwalk
  have hfield := h.field?_children hlink
  cases hns : u.children? with
  | none =>
    rw [hns] at hfield
    rw [step?_no_field (h.isRecord hlink) hfield] at hwalk
    exact absurd (Except.ok.inj hwalk) (by simp)
  | some ns =>
    rw [hns] at hfield
    have hlist := step?_field hfield Value.noConfusion
    rw [hlist] at hwalk
    simp only [enter_focus] at hwalk
    rw [walkFrom] at hwalk
    rcases step?_list (p := p.enter (.text "children") (.list (Node.toValues ns))) rfl s with
      hnone | ⟨i, v, hint, hi, hchild⟩
    · rw [hnone] at hwalk
      exact absurd (Except.ok.inj hwalk) (by simp)
    · rw [Node.toValues_eq_map, List.getElem?_map, Option.map_eq_some_iff] at hi
      obtain ⟨n, hn, rfl⟩ := hi
      refine ⟨ns, i, n, rfl, hn, hint, hlist, hchild, target, ?_, htype⟩
      rw [hchild] at hwalk
      cases n <;> exact hwalk

-- A path to an element through children begins at an element, unless it begins at the top.
theorem eq_element_of_leadsToElement {n : Node} (h : Stands t link p (.node n))
    (hlink : RootLink link) (hpath : LeadsToElement p (childPath steps)) :
    ∃ tag attrs children, n = .element tag attrs children := by
  cases hn : n with
  | element tag attrs children => exact ⟨tag, attrs, children, rfl⟩
  | text s | comment s =>
    subst hn
    cases steps with
    | nil =>
      obtain ⟨target, hwalk, htype⟩ := hpath
      obtain ⟨rfl, _⟩ := Walk.mk.inj (Except.ok.inj hwalk)
      obtain ⟨l, hfocus, _⟩ := h.exists_link hlink
      rw [hfocus] at htype
      exact absurd htype (by
        rw [Root.recordWith_eq]
        simp [Root.fields, Value.field?, Value.lookup, Value.equal_text])
    | cons s steps =>
      obtain ⟨_, _, _, hchildren, _⟩ := h.exists_child_of_leadsToElement hlink hpath
      exact absurd hchildren (by simp [Root.children?])

-- The selectors on a path to an element through children, and the positions on it.
theorem exists_labelled (h : Stands t link p u) (hlink : RootLink link)
    (hpath : LeadsToElement p (childPath steps)) :
    ∃ is labels, ArePositions steps is ∧
      Node.Labelled (u.children?.getD []) is labels ∧
      selectors p (childPath steps) = .ok (labels.map .text) := by
  induction steps generalizing p u with
  | nil => exact ⟨[], [], .nil, .nil _, rfl⟩
  | cons s steps ih =>
    obtain ⟨ns, i, n, hns, hn, hint, hlist, hchild, hrest⟩ :=
      h.exists_child_of_leadsToElement hlink hpath
    have hstands : Stands t link (p.child ns i n) (.node n) := .child h hns hn
    obtain ⟨tag, attrs, children, rfl⟩ := hstands.eq_element_of_leadsToElement hlink hrest
    obtain ⟨is, labels, hpositions, hlabelled, hselectors⟩ := ih hstands hrest
    have hfield := h.field?_children hlink
    rw [hns] at hfield
    have hselector : (p.child ns i (.element tag attrs children)).selector =
        .ok (.text (Node.selectorText ns i tag attrs)) := selector_of_owner rfl rfl rfl hfield hn
    refine ⟨i :: is, Node.selectorText ns i tag attrs :: labels, .cons hint hpositions, ?_, ?_⟩
    · rw [hns]
      exact .cons hn hlabelled
    · rw [childPath, selectors, hlist]
      simp only [enter_focus]
      rw [selectors, hchild]
      simp only [child_focus, Node.toValue]
      rw [if_pos (by rfl), hselector, hselectors]
      rfl

end Stands

end Place

end MarkupDiff
