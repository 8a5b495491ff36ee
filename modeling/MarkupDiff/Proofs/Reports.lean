import MarkupDiff.Proofs.Difference.Objects
import MarkupDiff.Proofs.Markup.RoundTrip
import MarkupDiff.Proofs.Node.Tagged

namespace MarkupDiff

-- The path stays in an outermost element that nothing selects: its tag is empty, it has neither an
-- id nor class names, and nothing beside it has an empty tag.
def Fragment.StaysUnselected (f : Fragment) (path : Path) : Prop :=
  ∃ i attrs children, f[i]? = some (.element "" attrs children) ∧
    Node.selectorText f i "" attrs = "" ∧ path.StaysAt [.text "children", .nat i] children

theorem Fragment.Tagged.not_staysUnselected {o : Options} {f : Fragment} {path : Path}
    (h : f.Tagged) : ¬(f.normal o).StaysUnselected path := by
  rintro ⟨i, attrs, children, hi, -⟩
  obtain ⟨as, cs, hbelow⟩ := Node.below_of_below_settled (.here (List.mem_of_getElem? hi))
  exact h "" as cs hbelow rfl

theorem Fragment.Host.chain_eq_empty_iff {f : Fragment} {p : Place} {ns : List Node}
    {above path : Path} {labels : List String} (h : Host f p ns above labels)
    (hstays : path.StaysAt above ns) : Place.chain labels = "" ↔ f.StaysUnselected path := by
  rw [Place.chain_eq_empty_iff, h.labels_eq_singleton_iff hstays]
  constructor
  · rintro ⟨i, tag, attrs, children, hi, hselector, hpath⟩
    obtain rfl := Node.tag_eq_empty_of_selectorText hselector
    exact ⟨i, attrs, children, hi, hselector, hpath⟩
  · rintro ⟨i, attrs, children, hi, hselector, hpath⟩
    exact ⟨i, "", attrs, children, hi, hselector, hpath⟩

-- Every change between two fragments in normal form, not just the first one, is reported. What its
-- path leads to on either side is what it is about, and the report calls it by what it is. The
-- location is empty exactly if the path stays in an outermost element that nothing selects. It never
-- is where no tag is empty, as in all that is read from markup.
theorem report_names_objects {o : Options} {f g : Fragment} {c : Change}
    (hc : c ∈ (f.normal o).changes (g.normal o)) :
    (∃ old new report, Place.located (f.normal o).toValue c.fullPath = .ok old ∧
      Place.located (g.normal o).toValue c.fullPath = .ok new ∧
      Report.ofChange (f.normal o).toValue (g.normal o).toValue c = .ok report ∧
      c.About old new ∧ c.Told old.focus new.focus report.message ∧
      (report.path = "" ↔ (f.normal o).StaysUnselected c.toEntry.path) ∧
      (f.Tagged → report.path ≠ "")) ∧
    ∀ markup, Fragment.ofMarkup markup = .ok f → f.Tagged := by
  refine ⟨?_, fun _ => Fragment.tagged_of_ofMarkup⟩
  have hcomment : ∀ (h : Fragment) (s : String), ¬Node.Below (.comment s) (h.normal o) :=
    fun _ _ hs => Bool.noConfusion (Node.below_settled hs).1
  rw [Fragment.changes_eq] at hc
  obtain ⟨q, ks, qs, labels, hq, hstays, old, new, message, hold, hnew, hreport, habout, htold⟩ :=
    Change.reported_of_hosts (hcomment f) (hcomment g) .root .root hc
  have hempty := hq.chain_eq_empty_iff hstays
  exact ⟨old, new, _, hold, hnew, hreport, habout, htold, hempty,
    fun htagged => mt hempty.mp htagged.not_staysUnselected⟩

theorem Attr.sorted_nil : Attr.sorted [] = [] := by
  simp [Attr.sorted]

-- The content of a paragraph changes, and a second paragraph is gone.
theorem report_names_paragraph :
    let f : Fragment := [.element "p" [] [.text "a"], .element "p" [] []]
    let g : Fragment := [.element "p" [] [.text "b"]]
    let left := (Fragment.normal ⟨[]⟩ f).toValue
    let right := (Fragment.normal ⟨[]⟩ g).toValue
    let c : Change := .removedItem [.text "children"] 1 (Node.element "p" [] []).toValue
    c ∈ (Fragment.normal ⟨[]⟩ f).changes (Fragment.normal ⟨[]⟩ g) ∧
    Fragment.ofMarkup "<p>a</p><p></p>" = .ok f ∧ f.Tagged ∧
    ∃ old new report, Place.located left c.fullPath = .ok old ∧
      Place.located right c.fullPath = .ok new ∧ Report.ofChange left right c = .ok report ∧
      c.About old new ∧ c.Told old.focus new.focus report.message ∧ report.path ≠ "" := by
  intro f g left right c
  have hchanges : (Fragment.normal ⟨[]⟩ f).changes (Fragment.normal ⟨[]⟩ g) =
      [.edited [.text "children", .nat 0, .text "children", .nat 0, .text "content"] "a" "b",
        c] := by
    have hf : Fragment.normal ⟨[]⟩ f = f := by
      simp only [f, Fragment.normal, Node.normals, Node.normal, Attr.sorted_nil]
      rfl
    have hg : Fragment.normal ⟨[]⟩ g = g := by
      simp only [g, Fragment.normal, Node.normals, Node.normal, Attr.sorted_nil]
      rfl
    rw [hf, hg, Fragment.changes_eq]
    rfl
  have hc := hchanges ▸ List.mem_cons_of_mem _ List.mem_cons_self
  have hread : Fragment.ofMarkup "<p>a</p><p></p>" = .ok f := by
    have hspellable : Markup.Item.AllSpellable
        [.element "p" [] [.text "a"], .element "p" [] []] :=
      ⟨Markup.Item.spellable_paragraph ⟨trivial, trivial⟩,
        Markup.Item.spellable_paragraph trivial, trivial⟩
    rw [Fragment.ofMarkup, Markup.Item.items_of_spelling hspellable rfl rfl]
    rfl
  obtain ⟨hreported, hofMarkup⟩ := report_names_objects hc
  have htagged := hofMarkup _ hread
  obtain ⟨old, new, report, hold, hnew, hreport, habout, htold, -, hnonempty⟩ := hreported
  exact ⟨hc, hread, htagged, old, new, report, hold, hnew, hreport, habout, htold,
    hnonempty htagged⟩

-- An element that nothing selects becomes a paragraph, and the location is empty.
theorem report_without_location :
    let f : Fragment := [.element "" [] [.text "a"]]
    let g : Fragment := [.element "p" [] [.text "a"]]
    let c : Change := .edited [.text "children", .nat 0, .text "tag"] "" "p"
    c ∈ (Fragment.normal ⟨[]⟩ f).changes (Fragment.normal ⟨[]⟩ g) ∧
    Report.ofChange (Fragment.normal ⟨[]⟩ f).toValue (Fragment.normal ⟨[]⟩ g).toValue c =
      .ok ⟨"tag <> has changed to tag <p>", ""⟩ := by
  intro f g c
  have hf : Fragment.normal ⟨[]⟩ f = f := by
    simp only [f, Fragment.normal, Node.normals, Node.normal, Attr.sorted_nil]
    rfl
  have hg : Fragment.normal ⟨[]⟩ g = g := by
    simp only [g, Fragment.normal, Node.normals, Node.normal, Attr.sorted_nil]
    rfl
  rw [hf, hg, Fragment.changes_eq]
  exact ⟨List.mem_cons_self, rfl⟩

end MarkupDiff
