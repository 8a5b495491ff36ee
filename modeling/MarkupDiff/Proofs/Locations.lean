import MarkupDiff.Proofs.Node.Tagged
import MarkupDiff.Proofs.Place.Wandering
import MarkupDiff.Proofs.Sameness
import MarkupDiff.Proofs.Tree.Parsing

namespace MarkupDiff

open MarkupDiff.Tree (Root RootLink isLinked areLinked normalizeIgnoring)
open MarkupDiff.Place (walk located location IsRecord Reached)

namespace Tree

mutual

theorem isLinked_toValue (n : Node) : isLinked false n.toValue = true := by
  cases n with
  | element tag attrs children =>
    have hchildren := areLinked_toValues children
    simpa [Node.toValue, isLinked, leadsBack, areChildrenLinked, Value.isText, Value.text?]
      using hchildren
  | text s => simp [Node.toValue, isLinked, leadsBack, areChildrenLinked, Value.isText, Value.text?]
  | comment s =>
    simp [Node.toValue, isLinked, leadsBack, areChildrenLinked, Value.isText, Value.text?]

theorem areLinked_toValues (ns : List Node) : areLinked (Node.toValues ns) = true := by
  cases ns with
  | nil => rfl
  | cons n ns =>
    rw [Node.toValues, areLinked, isLinked_toValue n, areLinked_toValues ns]
    rfl

end

theorem isLinked_recordWith {link : List (Value × Value)} (hlink : RootLink link) (t : Root) :
    isLinked true (t.recordWith link) = true := by
  have hchildren : ∀ ns : List Node, areLinked (Node.toValues ns) = true := areLinked_toValues
  match t with
  | .fragment f =>
    rcases hlink with rfl | rfl <;>
      simpa [Root.recordWith, isLinked, areChildrenLinked, Value.isText, Value.text?]
        using hchildren f
  | .node (.element tag attrs children) =>
    rcases hlink with rfl | rfl <;>
      simpa [Root.recordWith, Node.recordWith, isLinked, areChildrenLinked, Value.isText,
        Value.text?] using hchildren children
  | .node (.text s) | .node (.comment s) =>
    rcases hlink with rfl | rfl <;>
      simp [Root.recordWith, Node.recordWith, isLinked, areChildrenLinked]

-- Every child is linked to the very record that lists it, and whatever path of keys is followed, a
-- walk comes to an end, at a record, and there is something to say about where it leads.
structure Sound (v : Value) : Prop where
  linked : isLinked true v = true
  leadsBack : ∀ path w, (∀ s ∈ path, s.IsKey) → walk v path = .ok w →
    ∀ i list child, w.target.step? "children" = .ok (some list) →
      list.step? i = .ok (some child) → child.step? "parent" = .ok (some w.target)
  walks : ∀ path, (∀ s ∈ path, s.IsKey) → ∃ w, walk v path = .ok w ∧
    located v path = .ok w.target ∧ IsRecord w.target.focus
  locates : ∀ path, (∀ s ∈ path, s.IsKey) → ∃ s, location v path = .ok s ∧ s ≠ ""

theorem sound_recordWith {link : List (Value × Value)} (hlink : RootLink link) {t : Root}
    (htagged : t.Tagged) : Sound (t.recordWith link) := by
  have hroot : Place.Stands t link (.root (t.recordWith link)) t := .root
  have hwalk : ∀ path, (∀ s ∈ path, s.IsKey) → ∃ w, walk (t.recordWith link) path = .ok w ∧
      Reached t link w.target ∧ IsRecord w.target.focus := fun path hpath =>
    (Reached.node hroot).walkFrom_ok hlink (.node hroot) (hroot.isRecord hlink) hpath
  refine ⟨isLinked_recordWith hlink t, ?_, ?_, ?_⟩
  · intro path w hpath hw i list child hlist hchild
    obtain ⟨w', hw', hreached, hrecord⟩ := hwalk path hpath
    obtain rfl := Except.ok.inj (hw.symm.trans hw')
    exact hreached.child_leads_back hlink hrecord hlist hchild
  · intro path hpath
    obtain ⟨w, hw, _, hrecord⟩ := hwalk path hpath
    exact ⟨w, hw, by rw [located, hw]; rfl, hrecord⟩
  · intro path hpath
    obtain ⟨labels, hlabels, hempty⟩ := (Reached.node hroot).selectors_ok hlink htagged hpath
    refine ⟨_, Place.Leads.location_of_selectors hlabels, fun hchain => hempty ?_⟩
    rw [Place.chain_eq_empty_iff.mp hchain]
    exact List.mem_cons_self

theorem sound_toValue {f : Fragment} (htagged : f.Tagged) : Sound f.toValue := by
  have hlink : RootLink [(.text "parent", .null)] := .inr rfl
  have htagged : (Root.fragment f).Tagged := htagged
  exact sound_recordWith hlink htagged

theorem Root.Tagged.normal {t : Root} (h : t.Tagged) (o : Options) : (t.normal o).Tagged := by
  intro tag attrs children hbelow
  have hsettled : ∀ ns, Node.Below (.element tag attrs children)
      (Node.settled o (Node.normals o ns)) → (∀ as cs, Node.Below (.element tag as cs) ns →
        tag ≠ "") → tag ≠ "" := by
    intro ns hbelow htags
    obtain ⟨as, cs, hbelow⟩ := Node.below_of_below_settled hbelow
    exact htags as cs hbelow
  match t with
  | .fragment f => exact hsettled f hbelow (h tag)
  | .node (.element t as cs) =>
    rcases Node.below_element_cons.mp hbelow with heq | hinside | hnone
    · obtain ⟨rfl, -, -⟩ := Node.element.inj heq
      exact h tag as cs (.here List.mem_cons_self)
    · exact hsettled cs hinside fun bs ds hm => h tag bs ds (.inside List.mem_cons_self hm)
    · exact absurd hnone (Node.not_below_nil _)
  | .node (.text s) | .node (.comment s) => exact h tag attrs children hbelow

end Tree

theorem Fragment.tagged_of_ofConfigured {v config : Value} {f : Fragment}
    (h : Fragment.ofConfigured v config = .ok f) : f.Tagged := by
  unfold Fragment.ofConfigured at h
  cases hconfig : Options.resolve config with
  | error fault => simp [hconfig, bind, Except.bind] at h
  | ok o =>
    simp only [hconfig, bind, Except.bind, Fragment.ofValue, pure, Except.pure] at h
    cases hmarkup : Rendering.markupOf v with
    | error fault => simp [hmarkup] at h
    | ok markup =>
      cases hread : Fragment.ofMarkup markup with
      | error fault => simp [hmarkup, hread] at h
      | ok g =>
        simp only [hmarkup, hread, Except.ok.injEq] at h
        subst h
        have htagged : (Root.fragment g).Tagged := Fragment.tagged_of_ofMarkup hread
        exact htagged.normal o

-- A tree that is read from markup or made from a value is sound, also if its records are linked in a
-- pass of its own. So is a tree once it has been normalized, whatever its records have led back to
-- before, if it is nobody's child and has no empty tags.
theorem locating_never_fails :
    (∀ markup f, Fragment.ofMarkup markup = .ok f → Tree.Sound f.toValue) ∧
    (∀ markup v, Tree.ofMarkup markup = .ok v → Tree.Sound v) ∧
    (∀ v config f, Fragment.ofConfigured v config = .ok f → Tree.Sound f.toValue) ∧
    ∀ (tags v : Value) (o : Options) (link : List (Value × Value)) (t : Root),
      Options.ofTags tags = .ok o → RootLink link → t.Tagged → t.Recorded link v →
        ∃ w, normalizeIgnoring tags v = ⟨w, none⟩ ∧ Tree.Sound w := by
  have hread : ∀ markup f, Fragment.ofMarkup markup = .ok f → Tree.Sound f.toValue :=
    fun markup f h => Tree.sound_toValue (Fragment.tagged_of_ofMarkup h)
  refine ⟨hread, fun markup v h => ?_,
    fun v config f h => Tree.sound_toValue (Fragment.tagged_of_ofConfigured h), ?_⟩
  · rw [Tree.ofMarkup_eq] at h
    cases hf : Fragment.ofMarkup markup with
    | error fault => simp [hf, Except.map] at h
    | ok f =>
      simp only [hf, Except.map, Except.ok.injEq] at h
      exact h ▸ hread markup f hf
  · intro tags v o link t htags hlink htagged hv
    have hnormalized := Tree.normalizeIgnoring_eq htags (hlink.imp id fun h => ⟨_, h⟩) hv
    exact ⟨_, hnormalized, Tree.sound_recordWith hlink (htagged.normal o)⟩

-- One paragraph is linked to a text, the text in it to an empty record, and the other paragraph to
-- nothing at all. Once this has been normalized, both lead back to where they are listed.
theorem sound_of_stale_links :
    let page : Value := .record [("type", "fragment"), ("children", .list [
      .record [("type", "element"), ("tag", "p"), ("attrs", .list []), ("children", .list [
        .record [("type", "text"), ("content", "a"), ("parent", .record [])]]),
        ("parent", "body")],
      .record [("type", "element"), ("tag", "p"), ("attrs", .list []), ("children", .list [])]])]
    let t : Root := .fragment [.element "p" [] [.text "a"], .element "p" [] []]
    let f : Fragment := [.text "a", .comment "b", .text "c"]
    Fragment.ofMarkup "a<!--b-->c" = .ok f ∧ Tree.ofMarkup "a<!--b-->c" = .ok f.toValue ∧
      Tree.Sound f.toValue ∧
      Fragment.ofConfigured "ac" .null = .ok [.text "ac"] ∧
      Tree.Sound (Fragment.toValue [.text "ac"]) ∧ t.Tagged ∧ t.Recorded [] page ∧
      ∃ w, normalizeIgnoring (.list ["svg"]) page = ⟨w, none⟩ ∧ Tree.Sound w := by
  intro page t f
  have hread : Fragment.ofMarkup "a<!--b-->c" = .ok f := by
    have hread := read_commented
    rwa [Fragment.read_text, Markup.sanitize_eq_self rfl rfl] at hread
  have hparsed : Tree.ofMarkup "a<!--b-->c" = .ok f.toValue := by
    rw [Tree.ofMarkup_eq, hread]
    rfl
  have hmade : Fragment.ofConfigured "ac" .null = .ok [.text "ac"] := by
    change Fragment.ofValue {} "ac" = _
    rw [Fragment.ofValue_eq, read_plain]
    rfl
  have htags : Options.ofTags (.list ["svg"]) = .ok ⟨["svg"]⟩ := by rfl
  have htagged : t.Tagged := by
    intro tag attrs children hbelow
    have hp : tag = "p" ∧ attrs = [] ∧ children = [.text "a"] ∨
        tag = "p" ∧ attrs = [] ∧ children = [] := by
      simpa [t, Root.nodes] using hbelow
    rcases hp with ⟨rfl, _⟩ | ⟨rfl, _⟩ <;> decide
  have hrecorded : t.Recorded [] page := by
    refine ⟨_, ⟨_, _, [(.text "parent", "body")], rfl, .inr ⟨_, rfl⟩, ⟨_, ⟨_, _,
      [(.text "parent", .record [])], rfl, .inr ⟨_, rfl⟩, rfl, rfl⟩, rfl⟩, _, _, [], rfl, .inl rfl,
      ⟨_, rfl, rfl⟩, rfl⟩, rfl⟩
  obtain ⟨-, hstepwise, hconfigured, hnormalized⟩ := locating_never_fails
  exact ⟨hread, hparsed, hstepwise _ _ hparsed, hmade, hconfigured _ _ _ hmade, htagged, hrecorded,
    hnormalized _ _ _ _ t htags (.inl rfl) htagged hrecorded⟩

end MarkupDiff
