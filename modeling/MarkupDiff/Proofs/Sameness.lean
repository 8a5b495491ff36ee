import MarkupDiff.Proofs.Difference.TreeChanges
import MarkupDiff.Proofs.Markup.RoundTrip
import MarkupDiff.Proofs.Node.Sameness

namespace MarkupDiff

-- The fragment that a value stands for, as it is read.
def Fragment.read (v : Value) : Except Fault Fragment := do
  Fragment.ofMarkup (← Rendering.markupOf v)

theorem Fragment.ofValue_eq (o : Options) (v : Value) :
    Fragment.ofValue o v = (Fragment.read v).map (·.normal o) := by
  simp only [ofValue, read]
  cases Rendering.markupOf v with
  | error fault => rfl
  | ok markup =>
    simp only [bind, Except.bind]
    cases Fragment.ofMarkup markup <;> rfl

theorem Fragment.ofConfigured_eq {v config : Value} {o : Options} {f : Fragment}
    (hconfig : Options.resolve config = .ok o) (hf : Fragment.read v = .ok f) :
    Fragment.ofConfigured v config = .ok (f.normal o) := by
  simp only [ofConfigured, hconfig, bind, Except.bind, ofValue_eq, hf, Except.map]

theorem Fragment.firstDifference_eq_none_iff {o : Options} {f g : Fragment} :
    Fragment.firstDifference o f g = .ok none ↔ f.normal o = g.normal o := by
  rw [← Fragment.changes_eq_nil_iff, firstDifference]
  cases hc : (f.normal o).changes (g.normal o) with
  | nil => simp
  | cons c cs =>
    simp only [reduceCtorEq, iff_false]
    cases Report.ofChange (Fragment.toValue (f.normal o)) (Fragment.toValue (g.normal o)) c <;>
      simp [Except.map]

theorem markupDiff_eq {config left right : Value} {o : Options} {f g : Fragment}
    (hconfig : Options.resolve config = .ok o) (hf : Fragment.read left = .ok f)
    (hg : Fragment.read right = .ok g) :
    markupDiff left right config = Fragment.firstDifference o (f.normal o) (g.normal o) := by
  simp only [markupDiff, hconfig, Fragment.ofValue_eq, hf, hg]
  rfl

theorem markupDiff_eq_none_iff {config left right : Value} {o : Options} {f g : Fragment}
    (hconfig : Options.resolve config = .ok o) (hf : Fragment.read left = .ok f)
    (hg : Fragment.read right = .ok g) :
    markupDiff left right config = .ok none ↔ f.normal o = g.normal o := by
  rw [markupDiff_eq hconfig hf hg, Fragment.firstDifference_eq_none_iff, Fragment.normal_normal,
    Fragment.normal_normal]

-- Comparing two values as markup finds no difference exactly when the fragments that are read from
-- them mean the same, and so does comparing two fragments in normal form.
theorem markupDiff_eq_none_iff_same {config : Value} {o : Options}
    (hconfig : Options.resolve config = .ok o) :
    (∀ (left right : Value) (f g : Fragment), Fragment.read left = .ok f →
      Fragment.read right = .ok g →
      (markupDiff left right config = .ok none ↔ Fragment.Same o.prunedTags f g)) ∧
    ∀ f g : Fragment, (f.normal o).changes (g.normal o) = [] ↔
      Fragment.Same o.prunedTags f g := by
  constructor
  · intro left right f g hf hg
    rw [markupDiff_eq_none_iff hconfig hf hg, Fragment.same_iff_normal_eq]
  · intro f g
    rw [Fragment.changes_eq_nil_iff, Fragment.same_iff_normal_eq]

theorem Fragment.read_text (s : String) :
    Fragment.read (.text s) = Fragment.ofMarkup (Markup.sanitize s) := rfl

-- A text is read as the document that it spells out.
theorem Fragment.read_of_spelling {s : String} {is : List Markup.Item}
    (h : Markup.Item.AllSpellable is) (hspelling : Markup.Item.spellingAll false is = s.toList)
    (hjoined : Markup.Item.joinedAll false [] is = is) (hclean : Markup.sanitize s = s) :
    Fragment.read (.text s) = .ok (Node.ofItems is) := by
  rw [read_text, hclean, ofMarkup, Markup.Item.items_of_spelling h hspelling hjoined]
  rfl

theorem read_commented :
    Fragment.read "a<!--b-->c" = .ok [.text "a", .comment "b", .text "c"] := by
  have hspellable : Markup.Item.AllSpellable [.text "a", .aside .comment "b", .text "c"] :=
    ⟨trivial, ⟨Markup.Construct.fits_comment_of_notMem (by decide), by decide⟩, trivial, trivial⟩
  exact Fragment.read_of_spelling hspellable rfl rfl (Markup.sanitize_eq_self rfl rfl)

theorem read_plain : Fragment.read "ac" = .ok [.text "ac"] := by
  have hspellable : Markup.Item.AllSpellable [.text "ac"] := ⟨trivial, trivial⟩
  exact Fragment.read_of_spelling hspellable rfl rfl (Markup.sanitize_eq_self rfl rfl)

-- A comment between two texts goes unseen, and so it does in the fragments themselves.
theorem markupDiff_commented :
    markupDiff "a<!--b-->c" "ac" (.record [("ignored_tags", .list ["SVG"])]) = .ok none ∧
      (Fragment.normal ⟨["svg"]⟩ [.text "a", .comment "b", .text "c"]).changes
        (Fragment.normal ⟨["svg"]⟩ [.text "ac"]) = [] := by
  have hconfig : Options.resolve (.record [("ignored_tags", .list ["SVG"])]) = .ok ⟨["svg"]⟩ := by
    rfl
  have hsame : Fragment.Same (Options.prunedTags ⟨["svg"]⟩)
      [.text "a", .comment "b", .text "c"] [.text "ac"] :=
    (Fragment.Same.of_move (.ignored [.text "a"] [.text "c"] (.comment "b"))).trans
      (Fragment.Same.of_move (.joined [] [] "a" "c"))
  have hiff := markupDiff_eq_none_iff_same hconfig
  exact ⟨(hiff.1 _ _ _ _ read_commented read_plain).mpr hsame, (hiff.2 _ _).mpr hsame⟩

end MarkupDiff
