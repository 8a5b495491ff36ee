import MarkupDiff.Proofs.Sameness

namespace MarkupDiff

open Markup (HasNoMarker hasNoMarker_of_notMem Item escapedChar eraseMarkers sanitize)
open Markup.Item (joinedAll spelling spellingAll)

-- Something that is written into a text and does not count: a comment or a script.
inductive Interruption
  | comment (content : String)
  | script (content : String)

namespace Interruption

def content : Interruption → String
  | comment b => b
  | script b => b

def markup : Interruption → String
  | comment b => "<!--" ++ b ++ "-->"
  | script b => "<script>" ++ b ++ "</script>"

def item : Interruption → Item
  | comment b => .aside .comment b
  | script b => .element "script" [] [.text b]

-- There is some content, and no mark in it.
structure IsPlain (c : Interruption) : Prop where
  ne_nil : c.content.toList ≠ []
  marks : ∀ m ∈ c.content.toList, m ≠ '-' ∧ m ≠ '<' ∧ m ≠ '>'

end Interruption

-- Text that is written as it is.
def Unescaped (s : String) : Prop :=
  ∀ m ∈ s.toList, m ≠ '<' ∧ m ≠ '>' ∧ m ≠ '&'

theorem Unescaped.flatMap_escapedChar {s : String} (h : Unescaped s) :
    s.toList.flatMap escapedChar = s.toList := by
  have hchar : ∀ m ∈ s.toList, escapedChar m = [m] := by
    intro m hm
    obtain ⟨hopen, hclose, hamp⟩ := h m hm
    unfold escapedChar
    split <;> simp_all
  rw [List.flatMap_congr hchar, List.flatMap_singleton']

theorem Unescaped.hasNoMarker {s : String} (h : Unescaped s) : HasNoMarker s.toList :=
  hasNoMarker_of_notMem fun hmem => (h '<' hmem).1 rfl

theorem isProper_script : Markup.Tag.IsProper "script" [] :=
  ⟨⟨by decide +kernel, ⟨'s', rfl, rfl⟩, List.all_eq_true.mp rfl⟩, by simp, by simp⟩

namespace Interruption

variable {c : Interruption}

theorem toList_markup (c : Interruption) : c.markup.toList = spelling false c.item := by
  cases c with
  | comment b => simp [markup, item, spelling, Item.asideSpelling]
  | script b =>
    have hraw : "script" ∈ Markup.Scan.rawElements := by decide
    simp [markup, item, spelling, spellingAll, hraw]

theorem IsPlain.hasNoMarker (h : c.IsPlain) : HasNoMarker c.markup.toList := by
  cases c with
  | comment b =>
    obtain ⟨m, ms, hb⟩ := List.exists_cons_of_ne_nil h.ne_nil
    have hb : b.toList = m :: ms := hb
    obtain ⟨hdash, hbracket, -⟩ := h.marks m (by rw [content, hb]; exact List.mem_cons_self)
    have hopen : '<' ∉ b.toList := fun hmem => (h.marks '<' hmem).2.1 rfl
    have hbegin : HasNoMarker ['<', '!', '-', '-', m] := by
      intro rest
      simp [eraseMarkers, hdash, hbracket]
    have hend : HasNoMarker (ms ++ "-->".toList) :=
      hasNoMarker_of_notMem (by rw [hb] at hopen; simp_all)
    have hsplit : (comment b).markup.toList = ['<', '!', '-', '-', m] ++ (ms ++ "-->".toList) := by
      simp [markup, hb]
    rw [hsplit]
    exact hbegin.append hend
  | script b =>
    have hbegin : HasNoMarker "<script>".toList := fun _ => rfl
    have hend : HasNoMarker "</script>".toList := fun _ => rfl
    have hcontent : HasNoMarker b.toList :=
      hasNoMarker_of_notMem fun hmem => (h.marks '<' hmem).2.1 rfl
    rw [markup, String.toList_append, String.toList_append]
    exact (hbegin.append hcontent).append hend

theorem IsPlain.spellable (h : c.IsPlain) : c.item.Spellable := by
  cases c with
  | comment b =>
    exact ⟨Markup.Construct.fits_comment_of_notMem fun hmem => (h.marks '>' hmem).2.2 rfl,
      by decide⟩
  | script b =>
    refine ⟨isProper_script, by decide +kernel, fun hvoid => absurd hvoid (by decide), fun _ => ?_,
      trivial, trivial⟩
    exact .inr ⟨b, rfl, Markup.Scan.rawText_of_notMem fun hmem => (h.marks '<' hmem).2.1 rfl⟩

end Interruption

-- A paragraph is read as what its spelling stands for.
theorem Fragment.read_paragraph {inside : String} {children : List Item}
    (h : Item.AllSpellable children) (hmarkers : HasNoMarker inside.toList)
    (hinside : inside.toList = spellingAll false children) :
    Fragment.read (.text ("<p>" ++ inside ++ "</p>")) =
      .ok [.element "p" [] (Node.ofItems (joinedAll false [] children))] := by
  have hvoid : "p" ∉ Markup.voidElements := by decide
  have hraw : "p" ∉ Markup.Scan.rawElements := by decide
  have hspellable : Item.AllSpellable [.element "p" [] children] :=
    ⟨Item.spellable_paragraph h, trivial⟩
  have hspelling : ("<p>" ++ inside ++ "</p>").toList =
      spellingAll false [.element "p" [] children] := by
    simp [spellingAll, spelling, hraw, hvoid, hinside]
  have hunmarked : eraseMarkers ("<p>" ++ inside ++ "</p>").toList =
      ("<p>" ++ inside ++ "</p>").toList := by
    have hbegin : HasNoMarker "<p>".toList := fun _ => rfl
    have hend : HasNoMarker "</p>".toList := fun _ => rfl
    rw [String.toList_append, String.toList_append]
    exact ((hbegin.append hmarkers).append hend).eraseMarkers_eq
  have hclean : sanitize ("<p>" ++ inside ++ "</p>") = "<p>" ++ inside ++ "</p>" := by
    refine Markup.sanitize_eq_self hunmarked ?_
    rw [hspelling, Item.strip_spellingAll]
    rfl
  have hitems := Item.items_spellingAll hspellable
  rw [← hspelling, String.ofList_toList] at hitems
  rw [Fragment.read_text, hclean, Fragment.ofMarkup, hitems]
  rfl

end MarkupDiff
