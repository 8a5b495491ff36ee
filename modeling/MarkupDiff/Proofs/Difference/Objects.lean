import MarkupDiff.Proofs.Difference.First
import MarkupDiff.Proofs.Difference.TreeChanges
import MarkupDiff.Proofs.Place.Host

namespace MarkupDiff

-- What a report calls an attribute.
def Attr.described (a : Attr) : String :=
  "attribute [" ++ a.name ++ "=\"" ++ a.value ++ "\"]"

-- What a report calls a node or an attribute.
inductive Value.Described : Value → String → Prop
  | element (tag : String) (attrs : List Attr) (children : List Node) :
      Described (Node.element tag attrs children).toValue ("tag <" ++ tag ++ ">")
  | text (content : String) :
      Described (Node.text content).toValue ("text \"" ++ content ++ "\"")
  | attr (a : Attr) : Described a.toValue a.described

namespace Place

variable {p : Place}

theorem described_element {tag : String} {attrs : List Attr} {children : List Node}
    (h : p.focus = (Node.element tag attrs children).toValue) :
    p.focus.Described ("tag <" ++ tag ++ ">") :=
  h ▸ .element tag attrs children

theorem described_text {content : String} (h : p.focus = (Node.text content).toValue) :
    p.focus.Described ("text \"" ++ content ++ "\"") :=
  h ▸ .text content

theorem described_attr {a : Attr} (h : p.focus = a.toValue) :
    p.focus.Described a.described :=
  h ▸ .attr a

theorem description_eq {p : Place} {d : String} (h : p.focus.Described d) :
    p.description = .ok d := by
  obtain ⟨v, above⟩ := p
  cases h <;> rfl

end Place

namespace Change

open Place (located location chain Leads IsRecord described_element described_text described_attr)

-- The keys of nodes and attributes under which texts stand.
def textKeys : List String := ["type", "tag", "content", "name", "value"]

-- The change is about what stands at the places `old` and `new`: about a text under one key of
-- both, about what only one of them has under a key, or about the item that stands at one of them.
inductive About (old new : Place) : Change → Prop
  | edited {k : String} {v w : Value} (hk : k ∈ textKeys) (hpath : new.path = old.path)
      (hold : old.focus.field? k = some v) (hnew : new.focus.field? k = some w) :
      About old new (.edited (old.path ++ [.text k]) v w)
  | removedKey {k : String} {v : Value} (hold : old.focus.field? k = some v) :
      About old new (.removedKey old.path (.text k) v)
  | addedKey {k : String} {w : Value} (hnew : new.focus.field? k = some w) :
      About old new (.addedKey new.path (.text k) w)
  | removedItem {path : Path} {i : Nat} (hold : old.path = path ++ [.nat i]) :
      About old new (.removedItem path i old.focus)
  | addedItem {path : Path} {i : Nat} (hnew : new.path = path ++ [.nat i]) :
      About old new (.addedItem path i new.focus)

-- The sentence about a change, which calls the two values by what they are.
inductive Told (old new : Value) : Change → String → Prop
  | edited {path : Path} {v w : Value} {d e : String} (hold : old.Described d)
      (hnew : new.Described e) : Told old new (.edited path v w) (d ++ " has changed to " ++ e)
  | removedKey {path : Path} {k v : Value} {d : String} (hold : old.Described d) :
      Told old new (.removedKey path k v) (d ++ " has been removed")
  | addedKey {path : Path} {k w : Value} {e : String} (hnew : new.Described e) :
      Told old new (.addedKey path k w) (e ++ " has been added")
  | removedItem {path : Path} {i : Nat} {v : Value} {d : String} (hold : old.Described d) :
      Told old new (.removedItem path i v) (d ++ " has been removed")
  | addedItem {path : Path} {i : Nat} {w : Value} {e : String} (hnew : new.Described e) :
      Told old new (.addedItem path i w) (e ++ " has been added")

theorem message_eq {c : Change} {old new : Place} {m : String}
    (h : c.Told old.focus new.focus m) : c.toEntry.message old new = .ok m := by
  cases h with
  | edited hold hnew =>
    change (do return (← old.description) ++ " has changed to " ++ (← new.description)) = _
    rw [Place.description_eq hold, Place.description_eq hnew]
    rfl
  | removedKey hold | removedItem hold =>
    change (do return (← old.description) ++ " has been removed") = _
    rw [Place.description_eq hold]
    rfl
  | addedKey hnew | addedItem hnew =>
    change (do return (← new.description) ++ " has been added") = _
    rw [Place.description_eq hnew]
    rfl

-- The change is reported, under the location that the selectors make, and the report is about what
-- the change is about.
def Reported (l r : Value) (labels : List String) (c : Change) : Prop :=
  ∃ old new message, located l c.fullPath = .ok old ∧ located r c.fullPath = .ok new ∧
    Report.ofChange l r c = .ok ⟨message, chain labels⟩ ∧ c.About old new ∧
    c.Told old.focus new.focus message

theorem reported_of_located {l r : Value} {labels : List String} {c : Change} {old new : Place}
    {m : String} (hold : located l c.fullPath = .ok old) (hnew : located r c.fullPath = .ok new)
    (hat : location l c.toEntry.path = .ok (chain labels)) (habout : c.About old new)
    (htold : c.Told old.focus new.focus m) : Reported l r labels c := by
  refine ⟨old, new, m, hold, hnew, ?_, habout, htold⟩
  simp only [Report.ofChange, hold, hnew, message_eq htold, hat, bind, Except.bind, pure,
    Except.pure]

section Leading

variable {l r : Value} {path : Path} {pl pr : Place} {labels labels' : List String}
  {k d e : String} {v w : Value} {i : Nat}

theorem edited_reported (hl : Leads l path pl pl labels) (hr : Leads r path pr pr labels')
    {s t : String} (hk : k ∈ textKeys) (hs : pl.focus.field? k = some (.text s))
    (ht : pr.focus.field? k = some (.text t)) (hd : pl.focus.Described d)
    (he : pr.focus.Described e) :
    Reported l r labels (.edited (path ++ [.text k]) (.text s) (.text t)) := by
  have hold := hl.step_off (Place.step?_field hs (by simp)) (by simp [IsRecord])
  have hnew := hr.step_off (Place.step?_field ht (by simp)) (by simp [IsRecord])
  refine reported_of_located hold.1 hnew.1 hold.2 ?_ (.edited hd he)
  rw [← hl.path_eq]
  exact .edited hk (hr.path_eq.trans hl.path_eq.symm) hs ht

theorem removedKey_reported (hl : Leads l path pl pl labels) (hr : Leads r path pr pr labels')
    (hv : pl.focus.field? k = some v) (hscalar : ¬IsRecord v) (howner : v ≠ .owner)
    (hrecord : IsRecord pr.focus) (hnone : pr.focus.field? k = none)
    (hd : pl.focus.Described d) : Reported l r labels (.removedKey path (.text k) v) := by
  have hold := hl.step_off (Place.step?_field hv howner) (by simpa using hscalar)
  have hnew := hr.step_off (Place.step?_no_field hrecord hnone) (by simp)
  refine reported_of_located hold.1 hnew.1 hold.2 ?_ (.removedKey hd)
  rw [← hl.path_eq]
  exact .removedKey hv

theorem addedKey_reported (hl : Leads l path pl pl labels) (hr : Leads r path pr pr labels')
    (hw : pr.focus.field? k = some w) (hscalar : ¬IsRecord w) (howner : w ≠ .owner)
    (hrecord : IsRecord pl.focus) (hnone : pl.focus.field? k = none)
    (he : pr.focus.Described e) : Reported l r labels (.addedKey path (.text k) w) := by
  have hold := hl.step_off (Place.step?_no_field hrecord hnone) (by simp)
  have hnew := hr.step_off (Place.step?_field hw howner) (by simpa using hscalar)
  refine reported_of_located hold.1 hnew.1 hold.2 ?_ (.addedKey he)
  rw [← hr.path_eq]
  exact .addedKey hw

variable {tl tr ql qr : Place} {xs ys : List Value} {more more' : List String}

theorem removedItem_reported (hl : Leads l path tl pl labels) (hr : Leads r path tr pr labels')
    (hitem : Leads l (path ++ [.nat i]) ql ql more) (hys : pr.focus = .list ys)
    (hlen : ys.length ≤ i) (hd : ql.focus.Described d) :
    Reported l r labels (.removedItem path i ql.focus) := by
  have hnew := hr.step_off (Place.step?_no_item hys (List.getElem?_eq_none hlen)) (by simp)
  exact reported_of_located hitem.located_eq hnew.1 hl.location_eq (.removedItem hitem.path_eq)
    (.removedItem hd)

theorem addedItem_reported (hl : Leads l path tl pl labels) (hxs : pl.focus = .list xs)
    (hlen : xs.length ≤ i) (hitem : Leads r (path ++ [.nat i]) qr qr more)
    (he : qr.focus.Described e) : Reported l r labels (.addedItem path i qr.focus) := by
  have hold := hl.step_off (Place.step?_no_item hxs (List.getElem?_eq_none hlen)) (by simp)
  exact reported_of_located hold.1 hitem.located_eq hl.location_eq (.addedItem hitem.path_eq)
    (.addedItem he)

end Leading

theorem mem_ofTexts {path : Path} {s t : String} {c : Change} (hc : c ∈ ofTexts path s t) :
    c = .edited path (.text s) (.text t) := by
  unfold ofTexts at hc
  split at hc
  · exact absurd hc List.not_mem_nil
  · exact List.mem_singleton.mp hc

section Nodes

variable {l r : Value} {path : Path} {pl pr : Place} {labels labels' : List String} {c : Change}

theorem leads_attr {as : List Attr} {a : Attr} {j : Nat} (hl : Leads l path pl pl labels)
    (has : pl.focus.field? "attrs" = some (.list (as.map Attr.toValue))) (ha : as[j]? = some a) :
    ∃ p, p.focus = a.toValue ∧ Leads l (path ++ [.text "attrs"] ++ [.nat j]) p p labels := by
  have hlist := hl.step_list (Place.step?_field has (by simp))
  have hitem := Place.step?_item (p := pl.enter (.text "attrs") (.list (as.map Attr.toValue)))
    (v := a.toValue) (i := j) rfl (by simp [ha])
  exact ⟨_, rfl, hlist.step_record hitem rfl⟩

theorem reported_of_mem_attrs {as bs : List Attr} (hl : Leads l path pl pl labels)
    (hr : Leads r path pr pr labels')
    (has : pl.focus.field? "attrs" = some (.list (as.map Attr.toValue)))
    (hbs : pr.focus.field? "attrs" = some (.list (bs.map Attr.toValue)))
    (hc : c ∈ inItems ignoringParent (path ++ [.text "attrs"]) 0 (as.map Attr.toValue)
      (bs.map Attr.toValue)) : Reported l r labels c := by
  have hlistl := hl.step_list (Place.step?_field has (by simp))
  have hlistr := hr.step_list (Place.step?_field hbs (by simp))
  rcases mem_inItems.mp hc with ⟨j, x, y, hx, hy, hc⟩ | ⟨j, x, hj, hx, rfl⟩ | ⟨j, y, hj, hy, rfl⟩
  · rw [List.getElem?_map] at hx hy
    obtain ⟨a, ha, rfl⟩ := Option.map_eq_some_iff.mp hx
    obtain ⟨b, hb, rfl⟩ := Option.map_eq_some_iff.mp hy
    obtain ⟨ql, hql, hla⟩ := leads_attr hl has ha
    obtain ⟨qr, hqr, hrb⟩ := leads_attr hr hbs hb
    rw [Nat.zero_add, between_attr] at hc
    rcases List.mem_append.mp hc with hname | hvalue
    · rw [mem_ofTexts hname]
      exact edited_reported hla hrb (by decide) (hql ▸ rfl) (hqr ▸ rfl) (described_attr hql)
        (described_attr hqr)
    · rw [mem_ofTexts hvalue]
      exact edited_reported hla hrb (by decide) (hql ▸ rfl) (hqr ▸ rfl) (described_attr hql)
        (described_attr hqr)
  · rw [List.getElem?_map] at hx
    obtain ⟨a, ha, rfl⟩ := Option.map_eq_some_iff.mp hx
    obtain ⟨ql, hql, hla⟩ := leads_attr hl has ha
    rw [Nat.zero_add, ← hql]
    exact removedItem_reported hlistl hlistr hla rfl hj (described_attr hql)
  · rw [List.getElem?_map] at hy
    obtain ⟨b, hb, rfl⟩ := Option.map_eq_some_iff.mp hy
    obtain ⟨qr, hqr, hrb⟩ := leads_attr hr hbs hb
    rw [Nat.zero_add, ← hqr]
    exact addedItem_reported hlistl rfl hj hrb (described_attr hqr)

-- Changes of attributes do not come through children.
theorem staysAt_of_mem_attrs {as bs : List Attr} {ns : List Node}
    (hc : c ∈ inItems ignoringParent (path ++ [.text "attrs"]) 0 (as.map Attr.toValue)
      (bs.map Attr.toValue)) : c.toEntry.path.StaysAt path ns := by
  obtain ⟨rest, hrest⟩ : ∃ rest, c.toEntry.path = path ++ [.text "attrs"] ++ rest :=
    exists_path_eq (v := .list (as.map Attr.toValue)) (w := .list (bs.map Attr.toValue)) hc
  rw [hrest, List.append_assoc]
  exact Path.staysAt_of_ne (by simp) rest

theorem reported_of_mem_texts {s t : String} (hl : Leads l path pl pl labels)
    (hr : Leads r path pr pr labels') (hpl : pl.focus = (Node.text s).toValue)
    (hpr : pr.focus = (Node.text t).toValue)
    (hc : c ∈ between ignoringParent path (Node.text s).toValue (Node.text t).toValue) :
    Reported l r labels c := by
  rw [between_text_text] at hc
  rw [mem_ofTexts hc]
  exact edited_reported hl hr (by decide) (hpl ▸ rfl) (hpr ▸ rfl) (described_text hpl)
    (described_text hpr)

theorem reported_of_mem_element_text {tag s : String} {as : List Attr} {cs : List Node}
    (hl : Leads l path pl pl labels) (hr : Leads r path pr pr labels')
    (hpl : pl.focus = (Node.element tag as cs).toValue) (hpr : pr.focus = (Node.text s).toValue)
    (hc : c ∈ between ignoringParent path (Node.element tag as cs).toValue (Node.text s).toValue) :
    Reported l r labels c := by
  have hd := described_element hpl
  have he := described_text hpr
  have hrecord : IsRecord pr.focus := hpr ▸ trivial
  rw [between_element_text] at hc
  simp only [List.mem_cons, List.not_mem_nil, or_false] at hc
  rcases hc with rfl | rfl | rfl | rfl | rfl
  · exact edited_reported hl hr (by decide) (hpl ▸ rfl) (hpr ▸ rfl) hd he
  · exact removedKey_reported hl hr (hpl ▸ rfl) id (by simp) hrecord (hpr ▸ rfl) hd
  · exact removedKey_reported hl hr (hpl ▸ rfl) id (by simp) hrecord (hpr ▸ rfl) hd
  · exact removedKey_reported hl hr (hpl ▸ rfl) id (by simp) hrecord (hpr ▸ rfl) hd
  · exact addedKey_reported hl hr (hpr ▸ rfl) id (by simp) (hpl ▸ trivial) (hpl ▸ rfl) he

theorem staysAt_of_mem_element_text {tag s : String} {as : List Attr} {cs ns : List Node}
    (hc : c ∈ between ignoringParent path (Node.element tag as cs).toValue (Node.text s).toValue) :
    c.toEntry.path.StaysAt path ns := by
  rw [between_element_text] at hc
  simp only [List.mem_cons, List.not_mem_nil, or_false] at hc
  rcases hc with rfl | rfl | rfl | rfl | rfl <;> exact Path.staysAt_step _ _ _

theorem reported_of_mem_text_element {tag s : String} {as : List Attr} {cs : List Node}
    (hl : Leads l path pl pl labels) (hr : Leads r path pr pr labels')
    (hpl : pl.focus = (Node.text s).toValue) (hpr : pr.focus = (Node.element tag as cs).toValue)
    (hc : c ∈ between ignoringParent path (Node.text s).toValue (Node.element tag as cs).toValue) :
    Reported l r labels c := by
  have hd := described_text hpl
  have he := described_element hpr
  have hrecord : IsRecord pl.focus := hpl ▸ trivial
  rw [between_text_element] at hc
  simp only [List.mem_cons, List.not_mem_nil, or_false] at hc
  rcases hc with rfl | rfl | rfl | rfl | rfl
  · exact edited_reported hl hr (by decide) (hpl ▸ rfl) (hpr ▸ rfl) hd he
  · exact removedKey_reported hl hr (hpl ▸ rfl) id (by simp) (hpr ▸ trivial) (hpr ▸ rfl) hd
  · exact addedKey_reported hl hr (hpr ▸ rfl) id (by simp) hrecord (hpl ▸ rfl) he
  · exact addedKey_reported hl hr (hpr ▸ rfl) id (by simp) hrecord (hpl ▸ rfl) he
  · exact addedKey_reported hl hr (hpr ▸ rfl) id (by simp) hrecord (hpl ▸ rfl) he

end Nodes

theorem described_toValue {n : Node} (hn : ∀ s, n ≠ .comment s) : ∃ d, n.toValue.Described d := by
  cases n with
  | element tag attrs children => exact ⟨_, .element tag attrs children⟩
  | text s => exact ⟨_, .text s⟩
  | comment s => exact absurd rfl (hn s)

theorem reported_of_removed {f g : Fragment} {pl pr : Place} {ns ms : List Node} {path : Path}
    {labels labels' : List String} (hl : f.Host pl ns path labels) (hr : g.Host pr ms path labels')
    {j : Nat} {n : Node} (hn : ns[j]? = some n) (hcomment : ∀ s, n ≠ .comment s)
    (hj : ms.length ≤ j) : Reported f.toValue g.toValue labels
      (.removedItem (path ++ [.text "children"]) j n.toValue) := by
  obtain ⟨d, hd⟩ := described_toValue hcomment
  have hitem := hl.leads_child hn
  rw [← List.singleton_append, ← List.append_assoc] at hitem
  exact removedItem_reported hl.leads_children hr.leads_children hitem rfl (by simpa using hj) hd

theorem reported_of_added {f g : Fragment} {pl pr : Place} {ns ms : List Node} {path : Path}
    {labels labels' : List String} (hl : f.Host pl ns path labels) (hr : g.Host pr ms path labels')
    {j : Nat} {m : Node} (hm : ms[j]? = some m) (hcomment : ∀ s, m ≠ .comment s)
    (hj : ns.length ≤ j) : Reported f.toValue g.toValue labels
      (.addedItem (path ++ [.text "children"]) j m.toValue) := by
  obtain ⟨e, he⟩ := described_toValue hcomment
  have hitem := hr.leads_child hm
  rw [← List.singleton_append, ← List.append_assoc] at hitem
  exact addedItem_reported hl.leads_children rfl (by simpa using hj) hitem he

-- Every change below two places that hold children is reported, at any depth, if there are no
-- comments, under the selectors of the elements on the way to it. The induction goes down into the
-- children that both have.
theorem reported_of_hosts {f g : Fragment} (hf : ∀ s, ¬Node.Below (.comment s) f)
    (hg : ∀ s, ¬Node.Below (.comment s) g) {pl pr : Place} {ns ms : List Node} {path : Path}
    {labels labels' : List String} (hl : f.Host pl ns path labels) (hr : g.Host pr ms path labels')
    {c : Change} (hc : c ∈ inItems ignoringParent (path ++ [.text "children"]) 0
      (Node.toValues ns) (Node.toValues ms)) :
    ∃ q ks qs more, f.Host q ks qs more ∧ c.toEntry.path.StaysAt qs ks ∧
      Reported f.toValue g.toValue more c := by
  have hnf : ∀ n ∈ ns, ∀ s, n ≠ .comment s := fun n hn s hs =>
    hf s (hl.below_of_below (.here (hs ▸ hn)))
  have hng : ∀ m ∈ ms, ∀ s, m ≠ .comment s := fun m hm s hs =>
    hg s (hr.below_of_below (.here (hs ▸ hm)))
  rw [Node.toValues_eq_map, Node.toValues_eq_map] at hc
  rcases mem_inItems.mp hc with ⟨j, x, y, hx, hy, hc⟩ | ⟨j, x, hj, hx, rfl⟩ | ⟨j, y, hj, hy, rfl⟩
  · rw [List.getElem?_map] at hx hy
    obtain ⟨n, hn, rfl⟩ := Option.map_eq_some_iff.mp hx
    obtain ⟨m, hm, rfl⟩ := Option.map_eq_some_iff.mp hy
    have hchildl := hl.leads_child hn
    have hchildr := hr.leads_child hm
    have hpath : path ++ [Value.text "children"] ++ [.nat (0 + j)] =
        path ++ [.text "children", .nat j] := by simp
    rw [hpath] at hc
    obtain ⟨rest, hrest⟩ := exists_path_eq hc
    rw [List.append_assoc] at hrest
    match n, m with
    | .element t as cs, .element u bs ds =>
      have hhost := Fragment.Host.element hl hn
      rw [between_element] at hc
      rcases List.mem_append.mp hc with htag | hc
      · refine ⟨_, cs, _, _, hhost, ?_⟩
        rw [mem_ofTexts htag]
        exact ⟨Path.staysAt_step _ _ _, edited_reported hchildl hchildr (by decide) rfl rfl
          (described_element rfl) (described_element rfl)⟩
      rcases List.mem_append.mp hc with hattrs | hchildren
      · exact ⟨_, cs, _, _, hhost, staysAt_of_mem_attrs hattrs,
          reported_of_mem_attrs hchildl hchildr rfl rfl hattrs⟩
      · have hlt : sizeOf cs < sizeOf ns := by
          have := List.sizeOf_lt_of_mem (List.mem_of_getElem? hn)
          simp only [Node.element.sizeOf_spec] at this
          omega
        exact reported_of_hosts hf hg hhost (.element hr hm) hchildren
    | .text s, .text t =>
      exact ⟨pl, ns, path, _, hl.of_text j, hrest ▸ Path.staysAt_of_text hn rest,
        reported_of_mem_texts hchildl hchildr rfl rfl hc⟩
    | .element t as cs, .text s =>
      exact ⟨_, cs, _, _, .element hl hn, staysAt_of_mem_element_text hc,
        reported_of_mem_element_text hchildl hchildr rfl rfl hc⟩
    | .text s, .element t as cs =>
      exact ⟨pl, ns, path, _, hl.of_text j, hrest ▸ Path.staysAt_of_text hn rest,
        reported_of_mem_text_element hchildl hchildr rfl rfl hc⟩
    | .comment s, _ => exact absurd rfl (hnf _ (List.mem_of_getElem? hn) s)
    | _, .comment s => exact absurd rfl (hng _ (List.mem_of_getElem? hm) s)
  · rw [List.getElem?_map] at hx
    obtain ⟨n, hn, rfl⟩ := Option.map_eq_some_iff.mp hx
    have hcomment := hnf n (List.mem_of_getElem? hn)
    rw [Nat.zero_add]
    exact ⟨pl, ns, path, labels, hl, Path.staysAt_step _ _ _,
      reported_of_removed hl hr hn hcomment (by simpa using hj)⟩
  · rw [List.getElem?_map] at hy
    obtain ⟨m, hm, rfl⟩ := Option.map_eq_some_iff.mp hy
    have hcomment := hng m (List.mem_of_getElem? hm)
    rw [Nat.zero_add]
    exact ⟨pl, ns, path, labels, hl, Path.staysAt_step _ _ _,
      reported_of_added hl hr hm hcomment (by simpa using hj)⟩
termination_by sizeOf ns

end Change

namespace Fragment

variable {o : Options} {f g : Fragment} {c : Change}

-- Normal forms hold no comments, so every change between them is reported.
theorem reported_of_mem_changes (hc : c ∈ (f.normal o).changes (g.normal o)) :
    ∃ labels, c.Reported (f.normal o).toValue (g.normal o).toValue labels := by
  have hcomment : ∀ (h : Fragment) (s : String), ¬Node.Below (.comment s) (h.normal o) :=
    fun _ _ hs => Bool.noConfusion (Node.below_settled hs).1
  rw [changes_eq] at hc
  obtain ⟨_, _, _, labels, _, _, hreported⟩ :=
    Change.reported_of_hosts (hcomment f) (hcomment g) .root .root hc
  exact ⟨labels, hreported⟩

-- The first change is the one that is reported.
theorem firstDifference_of_changes {cs : List Change} {r : Report}
    (h : (f.normal o).changes (g.normal o) = c :: cs)
    (hr : Report.ofChange (f.normal o).toValue (g.normal o).toValue c = .ok r) :
    firstDifference o f g = .ok (some r) := by
  rw [firstDifference]
  simp only [h, hr]
  rfl

end Fragment

end MarkupDiff
