import MarkupDiff.Proofs.Node.Plain
import MarkupDiff.Proofs.Node.Respelling
import MarkupDiff.Proofs.Sameness

namespace MarkupDiff

open Markup (Item items sanitize allProper_of_items sanitize_eq_self withoutMarkers_eq_self)
open Markup.Item (printedAll unmarkedAll respelled trimmed PlainDocument WritableDocument)

theorem Rendering.joinedMarkup_markup (s : String) :
    Rendering.joinedMarkup (.list [.markup s]) = .ok s := by
  simp [joinedMarkup, leaves, leavesAll, leafMarkup, bind, Except.bind, pure, Except.pure]

theorem Fragment.read_markup {s : String} {is : List Item} (h : items s = .ok is) :
    Fragment.read (.list [.markup s]) = Fragment.ofMarkup (sanitize (printedAll false is)) := by
  have hrendered : Rendering.rendered (.list [.markup s]) = .ok (printedAll false is) := by
    simp [Rendering.rendered, Rendering.joinedMarkup_markup, bind, Except.bind, pure, Except.pure,
      h]
  have htext : Value.text? (.list [.markup s]) = none := rfl
  simp [Fragment.read, Rendering.markupOf, htext, hrendered, bind, Except.bind, Except.map]

variable {config : Value} {o : Options} {s : String} {is js : List Item}

-- Markup on its own is read as the document respelled, up to what does not count.
theorem markupDiff_markup_eq_none_iff (hconfig : Options.resolve config = .ok o)
    (hread : items s = .ok is) (hclean : items (sanitize s) = .ok js)
    (hwritable : WritableDocument (unmarkedAll false is)) :
    markupDiff (.list [.markup s]) (.text s) config = .ok none ↔
      Fragment.Same o.prunedTags (Node.ofItems (respelled is)) (Node.ofItems js) := by
  have hprinted := Item.items_sanitize_printedAll (allProper_of_items hread) hwritable
  have hleft := Fragment.read_markup hread
  rw [Fragment.ofMarkup, hprinted] at hleft
  have hright := Fragment.read_text s
  rw [Fragment.ofMarkup, hclean] at hright
  rw [markupDiff_eq_none_iff hconfig hleft hright, Fragment.normal_respelled hwritable.items,
    Fragment.same_iff_normal_eq]

theorem Fragment.same_respelled_of_plain (h : items s = .ok is)
    (hwritable : WritableDocument (unmarkedAll false is))
    (hplain : PlainDocument (trimmed (unmarkedAll false is))) :
    Fragment.Same o.prunedTags (Node.ofItems (respelled is))
      (Node.ofItems (trimmed (unmarkedAll false is))) := by
  have hproper := Item.allProper_unmarkedAll false is (allProper_of_items h) hwritable.items
  exact Fragment.same_iff_normal_eq.mpr (Fragment.normal_respelled_of_plain hproper hplain)

theorem Fragment.same_unmarkedAll (is : List Item) :
    Fragment.Same o.prunedTags (Node.ofItems (unmarkedAll false is)) (Node.ofItems is) :=
  Fragment.same_iff_normal_eq.mpr (Fragment.normal_unmarkedAll is)

-- Markup that can be written out and the same text on its own show no difference exactly when the
-- document respelled means the same as the one that is read from the text without markers and
-- without the blanks around it. Where the document is plain, respelling does no more than take out
-- markers and the blanks around it. So a plain document without either shows no difference.
theorem rendering_agrees_iff (hconfig : Options.resolve config = .ok o)
    (hread : items s = .ok is) (hclean : items (sanitize s) = .ok js)
    (hwritable : WritableDocument (unmarkedAll false is)) :
    (markupDiff (.list [.markup s]) (.text s) config = .ok none ↔
      Fragment.Same o.prunedTags (Node.ofItems (respelled is)) (Node.ofItems js)) ∧
    (PlainDocument (trimmed (unmarkedAll false is)) →
      (markupDiff (.list [.markup s]) (.text s) config = .ok none ↔
        Fragment.Same o.prunedTags (Node.ofItems (trimmed (unmarkedAll false is)))
          (Node.ofItems js))) ∧
    (PlainDocument (unmarkedAll false is) → trimmed (unmarkedAll false is) = unmarkedAll false is →
      sanitize s = s → markupDiff (.list [.markup s]) (.text s) config = .ok none) := by
  have hiff := markupDiff_markup_eq_none_iff hconfig hread hclean hwritable
  have hplain := Fragment.same_respelled_of_plain (o := o) hread hwritable
  refine ⟨hiff, fun hp => ⟨fun h => ?_, fun h => ?_⟩, fun hp htrimmed hclean' => ?_⟩
  · exact (hplain hp).symm.trans (hiff.mp h)
  · exact hiff.mpr ((hplain hp).trans h)
  · rw [hclean', hread] at hclean
    obtain rfl := Except.ok.inj hclean
    rw [htrimmed] at hplain
    exact hiff.mpr ((hplain hp).trans (Fragment.same_unmarkedAll is))

-- A document type ends a line, and the text after it goes on from there.
theorem markupDiff_doctype :
    markupDiff (.list [.markup "<!DOCTYPE html>x"]) (.text "<!DOCTYPE html>x") ≠ .ok none := by
  let is : List Item := [.aside .doctype "html", .text "x"]
  have hread : items "<!DOCTYPE html>x" = .ok is := by
    have hspellable : Item.AllSpellable is :=
      ⟨⟨(by decide : '>' ∉ "html".toList), by decide⟩, trivial, trivial⟩
    exact Item.items_of_spelling hspellable rfl rfl
  have hclean : sanitize "<!DOCTYPE html>x" = "<!DOCTYPE html>x" := sanitize_eq_self rfl rfl
  have hwritable : WritableDocument is := by
    refine ⟨?_, by rw [Item.toList_printedAll]; exact withoutMarkers_eq_self rfl⟩
    rintro i (hi | ⟨helement, _⟩)
    · simp only [is, List.mem_cons, List.not_mem_nil, or_false] at hi
      rcases hi with rfl | rfl
      · exact fun h => absurd h (by decide)
      · trivial
    · simp [is] at helement
  have hleft : Fragment.normal ⟨[]⟩ (Node.ofItems (respelled is)) = [.text "\nx"] := rfl
  have hright : Fragment.normal ⟨[]⟩ (Node.ofItems is) = [.text "x"] := rfl
  have hconfig : Options.resolve .null = .ok ⟨[]⟩ := rfl
  rw [ne_eq, markupDiff_markup_eq_none_iff hconfig hread (hclean ▸ hread) hwritable,
    Fragment.same_iff_normal_eq, hleft, hright]
  simp

theorem items_page : items "<!DOCTYPE html>\n<p>a&amp;b</p>" =
    .ok [.aside .doctype "html", .text "\n", .element "p" [] [.text "a&b"]] := by
  let is : List Item := [.aside .doctype "html", .text "\n", .element "p" [] [.text "a&b"]]
  have hspellable : Item.AllSpellable is :=
    ⟨⟨(by decide : '>' ∉ "html".toList), by decide⟩, trivial,
      Item.spellable_paragraph ⟨trivial, trivial⟩, trivial⟩
  exact Item.items_of_spelling hspellable rfl rfl

theorem writableDocument_page : WritableDocument
    [.aside .doctype "html", .text "\n", .element "p" [] [.text "a&b"]] := by
  constructor
  · rintro i (hi | ⟨helement, hi⟩)
    · simp only [List.mem_cons, List.not_mem_nil, or_false] at hi
      rcases hi with rfl | rfl | rfl
      · exact fun h => absurd h (by decide)
      · trivial
      · exact ⟨by decide +kernel, by simp, fun h => absurd h (by decide)⟩
    · simp only [List.mem_cons, List.not_mem_nil, or_false, reduceCtorEq, false_or,
        Item.element.injEq] at helement
      obtain ⟨rfl, rfl, rfl⟩ := helement
      rcases hi with hi | ⟨helement, _⟩
      · rw [List.mem_singleton.mp hi]
        trivial
      · simp at helement
  · have hattrs : Item.spelledAttrs "p" [] = [] := by
      simp [Item.spelledAttrs, Markup.encodingAttrs]
    simp only [Item.toList_printedAll, Item.mapAttrsAll, Item.mapAttrs, hattrs]
    exact withoutMarkers_eq_self rfl

-- The line that ends after a document type goes unseen where all texts beside it are blank.
theorem markupDiff_page :
    markupDiff (.list [.markup "<!DOCTYPE html>\n<p>a&amp;b</p>"])
      (.text "<!DOCTYPE html>\n<p>a&amp;b</p>") = .ok none := by
  let is : List Item := [.aside .doctype "html", .text "\n", .element "p" [] [.text "a&b"]]
  have hclean : sanitize "<!DOCTYPE html>\n<p>a&amp;b</p>" = "<!DOCTYPE html>\n<p>a&amp;b</p>" :=
    sanitize_eq_self rfl rfl
  have hunmarked : unmarkedAll false is = is := rfl
  have hplain : PlainDocument is := by
    refine ⟨.inl fun s hs => ?_, trivial, trivial,
      ⟨rfl, .inr ⟨by simp, fun _ => List.isChain_singleton _⟩, trivial, trivial⟩, trivial⟩
    simp only [is, List.mem_cons, List.not_mem_nil, or_false, reduceCtorEq, false_or,
      Item.text.injEq] at hs
    subst hs
    rfl
  have hconfig : Options.resolve .null = .ok ⟨[]⟩ := rfl
  have hagrees := rendering_agrees_iff hconfig items_page (hclean ▸ items_page)
    (hunmarked ▸ writableDocument_page)
  exact hagrees.2.2 (hunmarked ▸ hplain) rfl hclean

end MarkupDiff
