import MarkupDiff.Proofs.Difference.BlankEdits
import MarkupDiff.Proofs.Node.BlanksApart
import MarkupDiff.Proofs.Sameness

namespace MarkupDiff

open Markup (Item sanitize_eq_self)
open Markup.Item (AllSpellable)
open Node (AllWorded unblankedAll)

theorem Fragment.allWorded_of_read {v : Value} {f : Fragment} (h : Fragment.read v = .ok f) :
    AllWorded f := by
  cases hmarkup : Rendering.markupOf v with
  | error fault => simp [read, hmarkup, bind, Except.bind] at h
  | ok markup =>
    cases hitems : Markup.items markup with
    | error fault => simp [read, hmarkup, bind, Except.bind, ofMarkup, hitems, Except.map] at h
    | ok is =>
      have hread : Fragment.read v = .ok (Node.ofItems is) := by
        simp [read, hmarkup, bind, Except.bind, ofMarkup, hitems, Except.map]
      rw [← Except.ok.inj (hread.symm.trans h)]
      exact Node.allWorded_ofItems is (Markup.allProper_of_items hitems)

section Widening

variable {o o' : Options} {f g : Fragment} (hmore : o.ignoredTags ⊆ o'.ignoredTags)
  (hsame : f.normal o = g.normal o)

include hmore hsame

theorem Fragment.unblankedAll_normal_eq :
    unblankedAll (f.normal o') = unblankedAll (g.normal o') := by
  rw [← unblankedAll_normal_normal hmore f, hsame, unblankedAll_normal_normal hmore g]

theorem Fragment.normal_eq_iff_of_blanksApart (hf : AllWorded f) (hg : AllWorded g)
    (hapart : f.BlanksApart o o' ∨ g.BlanksApart o o') :
    f.normal o' = g.normal o' ↔ f.BlanksApart o o' ∧ g.BlanksApart o o' := by
  rw [← normal_normal_eq_iff hmore hf, ← normal_normal_eq_iff hmore hg] at hapart ⊢
  rw [hsame] at hapart ⊢
  constructor
  · intro heq
    rw [heq] at hapart ⊢
    exact ⟨hapart.elim id id, hapart.elim id id⟩
  · rintro ⟨hleft, hright⟩
    exact hleft.symm.trans hright

end Widening

-- Where two values show no difference, they show none when more is ignored, or the report is that a
-- text has changed in its blanks. If in one of them no blank text is brought together with a text
-- that is not blank, they show no difference exactly when this is so in the other one too.
theorem ignoring_more_shows_blanks_only {config config' left right : Value} {o o' : Options}
    {f g : Fragment} (hconfig : Options.resolve config = .ok o)
    (hconfig' : Options.resolve config' = .ok o') (hmore : o.ignoredTags ⊆ o'.ignoredTags)
    (hf : Fragment.read left = .ok f) (hg : Fragment.read right = .ok g)
    (hnone : markupDiff left right config = .ok none) :
    (markupDiff left right config' = .ok none ∨ ∃ s t path, Change.BlanksDiffer s t ∧
      markupDiff left right config' = .ok (some ⟨Change.textChanged s t, path⟩)) ∧
    (f.BlanksApart o o' ∨ g.BlanksApart o o' →
      (markupDiff left right config' = .ok none ↔ f.BlanksApart o o' ∧ g.BlanksApart o o')) := by
  have hsame := (markupDiff_eq_none_iff hconfig hf hg).mp hnone
  constructor
  · rw [markupDiff_eq hconfig' hf hg]
    apply Fragment.firstDifference_of_unblanked
    rw [Fragment.normal_normal, Fragment.normal_normal]
    exact Fragment.unblankedAll_normal_eq hmore hsame
  · intro hapart
    rw [markupDiff_eq_none_iff hconfig' hf hg]
    exact Fragment.normal_eq_iff_of_blanksApart hmore hsame (Fragment.allWorded_of_read hf)
      (Fragment.allWorded_of_read hg) hapart

theorem read_bold_between : Fragment.read "x<b></b>y" =
    .ok [.text "x", .element "b" [] [], .text "y"] := by
  have hspellable : AllSpellable [.text "x", .element "b" [] [], .text "y"] :=
    ⟨trivial, Item.spellable_bold trivial, trivial, trivial⟩
  exact Fragment.read_of_spelling hspellable rfl rfl (sanitize_eq_self rfl rfl)

theorem read_bold_and_comment_between : Fragment.read "x<b></b><!--c-->y" =
    .ok [.text "x", .element "b" [] [], .comment "c", .text "y"] := by
  have hspellable :
      AllSpellable [.text "x", .element "b" [] [], .aside .comment "c", .text "y"] :=
    ⟨trivial, Item.spellable_bold trivial, ⟨Markup.Construct.fits_comment_of_notMem (by decide), by decide⟩,
      trivial, trivial⟩
  exact Fragment.read_of_spelling hspellable rfl rfl (sanitize_eq_self rfl rfl)

theorem resolve_ignoring_none :
    Options.resolve (.record [("ignored_tags", .list [])]) = .ok ⟨[]⟩ := rfl

theorem resolve_ignoring_bold :
    Options.resolve (.record [("ignored_tags", .list ["b"])]) = .ok ⟨["b"]⟩ := rfl

-- Two texts come together in both values, and neither is blank.
theorem markupDiff_ignoring_bold :
    markupDiff "x<b></b>y" "x<b></b><!--c-->y" (.record [("ignored_tags", .list [])]) = .ok none ∧
      markupDiff "x<b></b>y" "x<b></b><!--c-->y" (.record [("ignored_tags", .list ["b"])]) =
        .ok none := by
  have hnone : markupDiff "x<b></b>y" "x<b></b><!--c-->y" (.record [("ignored_tags", .list [])]) =
      .ok none := by
    rw [markupDiff_eq_none_iff resolve_ignoring_none read_bold_between
      read_bold_and_comment_between]
    rfl
  have hleft : Fragment.BlanksApart ⟨[]⟩ ⟨["b"]⟩ [.text "x", .element "b" [] [], .text "y"] :=
    ⟨List.isChain_pair.mpr fun _ _ => rfl, trivial, fun _ => ⟨List.isChain_nil, trivial⟩, trivial,
      trivial⟩
  have hright : Fragment.BlanksApart ⟨[]⟩ ⟨["b"]⟩
      [.text "x", .element "b" [] [], .comment "c", .text "y"] :=
    ⟨List.isChain_pair.mpr fun _ _ => rfl, trivial, fun _ => ⟨List.isChain_nil, trivial⟩, trivial,
      trivial, trivial⟩
  have hmore := ignoring_more_shows_blanks_only resolve_ignoring_none resolve_ignoring_bold
    (List.nil_subset _) read_bold_between read_bold_and_comment_between hnone
  exact ⟨hnone, (hmore.2 (.inl hleft)).mpr ⟨hleft, hright⟩⟩

theorem read_blank_between : Fragment.read "x<b></b> <b></b>y" =
    .ok [.text "x", .element "b" [] [], .text " ", .element "b" [] [], .text "y"] := by
  have hspellable :
      AllSpellable [.text "x", .element "b" [] [], .text " ", .element "b" [] [], .text "y"] :=
    ⟨trivial, Item.spellable_bold trivial, trivial, Item.spellable_bold trivial, trivial, trivial⟩
  exact Fragment.read_of_spelling hspellable rfl rfl (sanitize_eq_self rfl rfl)

theorem read_nothing_between : Fragment.read "x<b></b><b></b>y" =
    .ok [.text "x", .element "b" [] [], .element "b" [] [], .text "y"] := by
  have hspellable :
      AllSpellable [.text "x", .element "b" [] [], .element "b" [] [], .text "y"] :=
    ⟨trivial, Item.spellable_bold trivial, Item.spellable_bold trivial, trivial, trivial⟩
  exact Fragment.read_of_spelling hspellable rfl rfl (sanitize_eq_self rfl rfl)

-- A blank text does not count between two elements, and does once both of them are ignored.
theorem markupDiff_blank_between_bold :
    markupDiff "x<b></b> <b></b>y" "x<b></b><b></b>y" (.record [("ignored_tags", .list [])]) =
        .ok none ∧
      markupDiff "x<b></b> <b></b>y" "x<b></b><b></b>y" (.record [("ignored_tags", .list ["b"])]) ≠
        .ok none := by
  constructor
  · rw [markupDiff_eq_none_iff resolve_ignoring_none read_blank_between read_nothing_between]
    rfl
  · have hleft : Fragment.normal ⟨["b"]⟩ [.text "x", .element "b" [] [], .text " ",
        .element "b" [] [], .text "y"] = [.text "x y"] := rfl
    have hright : Fragment.normal ⟨["b"]⟩ [.text "x", .element "b" [] [], .element "b" [] [],
        .text "y"] = [.text "xy"] := rfl
    rw [ne_eq, markupDiff_eq_none_iff resolve_ignoring_bold read_blank_between
      read_nothing_between, hleft, hright]
    simp

end MarkupDiff
