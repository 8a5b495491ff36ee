import MarkupDiff.Proofs.Markup.RoundTrip
import MarkupDiff.Proofs.Rendering.Leaves

namespace MarkupDiff

open Markup (items sanitize sanitize_eq_self)
open Markup.Item (printedAll)
open Rendering (joinedMarkup joinedMarkup_eq_ok_iff joinedMarkup_eq_of_rearranged markupOf)

namespace Rendering

theorem markupOf_eq {v : Value} (htext : v.text? = none) :
    markupOf v = (joinedMarkup v).bind fun s =>
      (items s).map fun is => sanitize (printedAll false is) := by
  rw [markupOf, htext]
  simp only [rendered]
  cases joinedMarkup v with
  | error fault => rfl
  | ok s =>
    simp only [bind, Except.bind]
    cases items s <;> rfl

theorem markupOf_eq_of_spells {v : Value} {s : String} (htext : v.text? = none) (h : v.Spells s) :
    markupOf v = (items s).map fun is => sanitize (printedAll false is) := by
  rw [markupOf_eq htext, joinedMarkup_eq_ok_iff.mpr h]
  rfl

end Rendering

theorem Value.spells_markup (s : String) : Value.Spells (.list [.markup s]) s :=
  ⟨[s], .cons (.markup s) .nil, by simp [String.join]⟩

-- Rendering joins the markup of what is nested in a value and reads it when it is all together, as
-- if it had been one piece from the start. Where some of it cannot be made, rendering fails. So it
-- does not count how markup is arranged and cut, also next to what fails.
theorem rendering_joins_leaves {v : Value} (htext : v.text? = none) :
    (∀ s, v.Spells s → markupOf v = markupOf (.list [.markup s]) ∧
      markupOf v = (items s).map fun is => sanitize (printedAll false is)) ∧
    ((∃ s, v.Spells s) ∨ ∃ fault, markupOf v = .error fault) ∧
    ∀ w, w.text? = none → v.Rearranged w → markupOf v = markupOf w := by
  refine ⟨fun s h => ?_, ?_, fun w htext' h => ?_⟩
  · have hv := Rendering.markupOf_eq_of_spells htext h
    exact ⟨hv.trans (Rendering.markupOf_eq_of_spells rfl (Value.spells_markup s)).symm, hv⟩
  · cases hjoined : joinedMarkup v with
    | error fault => exact .inr ⟨fault, by rw [Rendering.markupOf_eq htext, hjoined]; rfl⟩
    | ok s => exact .inl ⟨s, joinedMarkup_eq_ok_iff.mp hjoined⟩
  · rw [Rendering.markupOf_eq htext, Rendering.markupOf_eq htext', joinedMarkup_eq_of_rearranged h]

theorem items_across_pieces : items "<p>a<!--b-->&lt;&amp;amp;</p>" =
    .ok [.element "p" [] [.text "a", .aside .comment "b", .text "<&amp;"]] := by
  let is : List Markup.Item := [.element "p" [] [.text "a", .aside .comment "b", .text "<&amp;"]]
  have hchildren : Markup.Item.AllSpellable [.text "a", .aside .comment "b", .text "<&amp;"] :=
    ⟨trivial, ⟨Markup.Construct.fits_comment_of_notMem (by decide), by decide⟩, trivial, trivial⟩
  have hspellable : Markup.Item.AllSpellable is :=
    ⟨Markup.Item.spellable_paragraph hchildren, trivial⟩
  exact Markup.Item.items_of_spelling hspellable rfl rfl

-- A tag, a comment and a reference come about across several items, and a text between two pieces
-- of markup stays text.
theorem rendering_joins_pieces :
    let inside : List Value := [.list [.markup "p>a<!--b-", .template 0 (.writes "->&l")],
      .selfRendering 0 "t;", "&"]
    let v : Value := .tuple (.markup "<" :: .null :: inside ++ [.markup "amp;</p>"])
    let w : Value := .list (.markup "<" :: inside ++ [.markup "am", .markup "p;</p>"])
    v.text? = none ∧ w.text? = none ∧ v.Spells "<p>a<!--b-->&lt;&amp;amp;</p>" ∧ v.Rearranged w ∧
      markupOf v = .ok "<p>a<!--b-->&lt;&amp;amp;</p>" ∧
      markupOf w = .ok "<p>a<!--b-->&lt;&amp;amp;</p>" := by
  intro inside v w
  have hspells : v.Spells "<p>a<!--b-->&lt;&amp;amp;</p>" := by
    refine ⟨["<", "p>a<!--b-", "->&l", "t;", "&amp;", "amp;</p>"], ?_, by decide⟩
    exact .cons (.markup _) (.cons (.markup _) (.cons (.template 0 _)
      (.cons (.selfRendering 0 _) (.cons (.other rfl) (.cons (.markup _) .nil)))))
  have hrearranged : v.Rearranged w := by
    have hsequence := Value.Move.sequence (.markup "<" :: .null :: inside ++ [.markup "amp;</p>"])
    have hnull := Value.Move.null [.markup "<"] (inside ++ [.markup "amp;</p>"])
    have hcut := Value.Move.cut (.markup "<" :: inside) ["am", "p;</p>"] []
    exact (Relation.EqvGen.rel _ _ hsequence).trans _ _ _
      (((Relation.EqvGen.rel _ _ hnull).symm _ _).trans _ _ _ (.rel _ _ hcut))
  obtain ⟨hjoins, -, hmoves⟩ := rendering_joins_leaves (v := v) rfl
  have hmarkup : markupOf v = .ok "<p>a<!--b-->&lt;&amp;amp;</p>" := by
    have hprinted : printedAll false
        [.element "p" [] [.text "a", .aside .comment "b", .text "<&amp;"]] =
          "<p>a<!--b-->&lt;&amp;amp;</p>" := by cbv
    rw [(hjoins _ hspells).2, items_across_pieces, Except.map, hprinted, sanitize_eq_self rfl rfl]
  exact ⟨rfl, rfl, hspells, hrearranged, hmarkup, (hmoves w rfl hrearranged).symm.trans hmarkup⟩

end MarkupDiff
