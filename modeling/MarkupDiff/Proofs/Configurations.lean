import MarkupDiff.Proofs.NormalForms
import MarkupDiff.Proofs.Options.Resolution

namespace MarkupDiff

open MarkupDiff.Tree (Root normalizeIgnoring)

-- The tree of a value, with the tags to ignore as they are given to the normalization.
def Fragment.treeIgnoring (tags v : Value) : Except Fault Value := do
  (normalizeIgnoring tags (← Fragment.read v).toValue).result

-- A comparison step by step: two trees, each of which is normalized once more, and the first change
-- between them. Each step is given the tags to ignore.
def diffIgnoring (tags left right : Value) : Except Fault (Option Report) := do
  let l ← Fragment.treeIgnoring tags left
  let r ← Fragment.treeIgnoring tags right
  let l ← (normalizeIgnoring tags l).result
  let r ← (normalizeIgnoring tags r).result
  match structuralDiff l r ignoringParent with
  | [] => return none
  | c :: _ => return some (← Report.ofChange l r c)

theorem Tree.normalizeIgnoring_toValue {tags : Value} {o : Options}
    (htags : Options.ofTags tags = .ok o) (f : Fragment) :
    normalizeIgnoring tags f.toValue = ⟨(f.normal o).toValue, none⟩ :=
  normalizeIgnoring_eq htags (.inr ⟨_, rfl⟩)
    (Root.recorded_recordWith [(.text "parent", .null)] (.fragment f))

theorem Fragment.treeIgnoring_eq {tags : Value} {o : Options} (htags : Options.ofTags tags = .ok o)
    (v : Value) : treeIgnoring tags v = (Fragment.read v).map fun f => (f.normal o).toValue := by
  rw [treeIgnoring]
  cases Fragment.read v with
  | error fault => rfl
  | ok f =>
    simp only [bind, Except.bind, Tree.normalizeIgnoring_toValue htags]
    rfl

-- The second normalization changes nothing, and both leave out the same elements.
theorem markupDiff_eq_diffIgnoring {tags config : Value} {o : Options}
    (htags : Options.ofTags tags = .ok o) (hconfig : Options.resolve config = .ok o)
    (left right : Value) : markupDiff left right config = diffIgnoring tags left right := by
  rw [markupDiff, diffIgnoring, hconfig]
  simp only [Fragment.treeIgnoring_eq htags, Fragment.ofValue_eq]
  cases Fragment.read left with
  | error fault => rfl
  | ok f =>
    cases Fragment.read right with
    | error fault => rfl
    | ok g =>
      have hagain : ∀ h : Fragment, (normalizeIgnoring tags (h.normal o).toValue).result =
          .ok (h.normal o).toValue := by
        intro h
        rw [Tree.normalizeIgnoring_toValue htags, Fragment.normal_normal]
        rfl
      simp only [Except.map, bind, Except.bind, hagain, Fragment.firstDifference_normal]
      rw [Fragment.firstChange, Fragment.changes]
      cases structuralDiff (f.normal o).toValue (g.normal o).toValue ignoringParent with
      | nil => rfl
      | cons c cs => cases Report.ofChange (f.normal o).toValue (g.normal o).toValue c <;> rfl

-- What is given as options is taken for what it says, and for the same thing each time. A record
-- comes to what its entries say in their order, and where it is accepted it names tags. Naming the
-- tags once more gives them again, so that reading a value, normalizing a tree and both rounds of a
-- comparison leave out the same elements. Configurations whose tags differ in nothing but their
-- order, in repetitions, case and blanks, and in the spelling of the option, compare alike.
theorem configurations_are_stable :
    (∀ es r, Options.resolve (.record es) = r ↔ Options.Resolves es r) ∧
    (∀ es o, Options.resolve (.record es) = .ok o →
      ∃ names, Options.Configures (.record es) names) ∧
    (∀ v w items ts, Options.tagNames v = .ok ts → Options.Yields w items →
      (∀ n, n ∈ items.map (·.plain) ↔ n ∈ ts) → Options.tagNames w = .ok ts) ∧
    (∀ config names o tags items, Options.Configures config names →
      Options.resolve config = .ok o → Options.Yields tags items →
      (∀ n, n ∈ items.map (·.plain) ↔ n ∈ o.ignoredTags) →
        (∀ tree, normalizeIgnoring tags tree = Tree.normalize o tree) ∧
        (∀ v, (Fragment.ofConfigured v config).map Fragment.toValue =
          Fragment.treeIgnoring tags v) ∧
        ∀ left right, markupDiff left right config = diffIgnoring tags left right) ∧
    ∀ config config' names names', Options.Configures config names →
      Options.Configures config' names' → Options.Alike names names' →
        ∃ o, Options.resolve config = .ok o ∧ Options.resolve config' = .ok o ∧
          ∀ left right, markupDiff left right config = markupDiff left right config' := by
  refine ⟨fun es r => Options.resolve_record_iff, fun es o => Options.exists_configures, ?_, ?_, ?_⟩
  · intro v w items ts hts hw hmem
    obtain ⟨names, rfl⟩ := Options.exists_namedTags hts
    exact (Options.tagNames_of_yields hw).trans (congrArg _ (Options.namedTags_of_mem_iff hmem))
  · intro config names o tags items hconfigures hconfig htags hmem
    obtain rfl := Except.ok.inj (hconfig.symm.trans hconfigures.resolve_eq)
    have hagain := Options.ofTags_again htags hmem
    refine ⟨fun tree => by rw [normalizeIgnoring, hagain], fun v => ?_,
      markupDiff_eq_diffIgnoring hagain hconfig⟩
    rw [Fragment.treeIgnoring_eq hagain, Fragment.ofConfigured, hconfig]
    simp only [bind, Except.bind, Fragment.ofValue_eq]
    cases Fragment.read v <;> rfl
  · intro config config' names names' hconfig hconfig' halike
    have hresolve := hconfig.resolve_eq
    have hresolve' := hconfig'.resolve_eq
    rw [← halike.namedTags_eq] at hresolve'
    refine ⟨_, hresolve, hresolve', fun left right => ?_⟩
    rw [markupDiff, markupDiff, hresolve, hresolve']

-- A record names one tag in upper case after a blank, and a blank tag, options name it as it is, and
-- what they come to is the set of that tag.
theorem configurations_of_bold :
    let config : Value := .record [("ignoredTags", .null), ("ignored_tags", .list [" B", ""])]
    let config' : Value := .options ["b"]
    Options.resolve config = .ok ⟨["b"]⟩ ∧ Options.Configures config [" B", ""] ∧
      Options.Configures config' ["b"] ∧ Options.Alike [" B", ""] ["b"] ∧
      Options.tagNames (.set ["b"]) = .ok ["b"] ∧
      (∀ left right, markupDiff left right config = diffIgnoring (.set ["b"]) left right) ∧
      ∀ left right, markupDiff left right config = markupDiff left right config' := by
  intro config config'
  obtain ⟨-, -, hagain, hrounds, halike⟩ := configurations_are_stable
  have hconfig : Options.resolve config = .ok ⟨["b"]⟩ := rfl
  have hknown : ∀ e ∈ [((.text "ignoredTags", .null) : Value × Value)], Options.NamesTags e.1 := by
    simp [Options.NamesTags, Value.text?]
  have hconfigures : Options.Configures config [" B", ""] :=
    .record hknown (.inl rfl) (.items (.list [" B", ""]))
  have hconfigures' : Options.Configures config' ["b"] := .options (.items (.list ["b"])) rfl
  have hnames : Options.Alike [" B", ""] ["b"] := by
    have hblanks : Options.Move [" B", ""] ["B", ""] := .blanks _ rfl
    have hcase : Options.Move ["B", ""] ["b", ""] := .case _ rfl
    have horder : Options.Move ["b", ""] ["", "b"] := .order (List.Perm.swap _ _ _)
    have hblank : Options.Move ["", "b"] ["b"] := .blank _ rfl
    exact (Relation.EqvGen.rel _ _ hblanks).trans _ _ _ ((Relation.EqvGen.rel _ _ hcase).trans _ _ _
      ((Relation.EqvGen.rel _ _ horder).trans _ _ _ (.rel _ _ hblank)))
  have htags : Options.Yields (.set ["b"]) ["b"] := .set _
  have hmem : ∀ n, n ∈ ["b"].map Value.plain ↔ n ∈ ["b"] := fun n => Iff.rfl
  obtain ⟨o, -, -, hsame⟩ := halike config config' _ _ hconfigures hconfigures' hnames
  exact ⟨hconfig, hconfigures, hconfigures', hnames,
    hagain (.list ["b"]) (.set ["b"]) ["b"] ["b"] rfl htags hmem,
    (hrounds config _ _ _ _ hconfigures hconfig htags hmem).2.2, hsame⟩

end MarkupDiff
