import MarkupDiff.Proofs.PlainValues

namespace MarkupDiff

namespace Markup

open Item (joinedAll settledItems)
open Scan (fed fed_plain isPlain)

theorem fed_bare (b : Builder) {text : List Char} (h : ∀ c ∈ text, isPlain c = true) :
    fed b .markup text = .ok (b.extend text, .markup, []) := by
  induction text generalizing b with
  | nil => exact Scan.fed_nil b .markup
  | cons c text ih =>
    rw [fed_plain b (h c List.mem_cons_self), ih _ fun d hd => h d (List.mem_cons_of_mem _ hd),
      ← Builder.extend_append, List.singleton_append]

-- Running text is read as it is.
theorem items_bare {cs : List Char} (h : ∀ c ∈ cs, isPlain c = true) :
    items (.ofList cs) = .ok (settledItems false cs) := by
  have hfed : fed {} .markup cs = .ok (Builder.takeAll {} [.text (.ofList cs)], .markup, []) := by
    have htake : Builder.takeAll {} [.text (.ofList cs)] = Builder.extend {} cs := by
      change Builder.extend {} (String.ofList cs).toList = _
      rw [String.toList_ofList]
    rw [htake]
    exact fed_bare {} h
  rw [Item.items_of_fed hfed, joinedAll, joinedAll, List.nil_append, String.toList_ofList]

end Markup

variable {s : String}

-- Text without marks is read without the blanks around it.
theorem Fragment.read_bare (hbracket : '<' ∉ s.toList) (hamp : '&' ∉ s.toList) :
    Fragment.read (.text s) = .ok (if stripped s = "" then [] else [.text (stripped s)]) := by
  have hclean : Markup.sanitize s = stripped s := by
    have hmarkers := (Markup.hasNoMarker_of_notMem hbracket).eraseMarkers_eq
    rw [Markup.sanitize, Markup.withoutMarkers_eq_self hmarkers, stripped]
  have hplain : ∀ c ∈ Text.strip s.toList, Markup.Scan.isPlain c = true := by
    intro c hc
    have hmem : c ∈ s.toList :=
      (List.dropWhile_suffix _).subset ((List.rdropWhile_prefix _ _).subset hc)
    have hless : c ≠ '<' := fun h => hbracket (h ▸ hmem)
    have hand : c ≠ '&' := fun h => hamp (h ▸ hmem)
    simp [Markup.Scan.isPlain, hless, hand]
  rw [read_text, hclean, ofMarkup, stripped, Markup.items_bare hplain]
  exact congrArg Except.ok (ofItems_settledItems_strip s)

theorem Fragment.ofConfigured_bare {config : Value} {o : Options}
    (hconfig : Options.resolve config = .ok o) (hbracket : '<' ∉ s.toList)
    (hamp : '&' ∉ s.toList) : Fragment.ofConfigured (.text s) config =
      .ok (if stripped s = "" then [] else [.text (stripped s)]) := by
  rw [ofConfigured_eq hconfig (read_bare hbracket hamp), normal_stripped]

-- Text without marks is one text, or nothing if it is blank: itself without the blanks around it,
-- of whatever script. So it is kept as it is exactly when no blank stands at its ends.
theorem bare_text_loses_blank_ends {config : Value} {o : Options}
    (hconfig : Options.resolve config = .ok o) (hbracket : '<' ∉ s.toList)
    (hamp : '&' ∉ s.toList) :
    Fragment.ofConfigured (.text s) config =
        .ok (if stripped s = "" then [] else [.text (stripped s)]) ∧
      (Fragment.ofConfigured (.text s) config = .ok [.text s] ↔
        s ≠ "" ∧ Text.EndsWithout Text.isBlank s.toList) := by
  have hread := Fragment.ofConfigured_bare hconfig hbracket hamp
  have hkept : stripped s = s ↔ Text.EndsWithout Text.isBlank s.toList := by
    rw [← Text.strip_eq_self_iff, stripped, ← String.toList_inj, String.toList_ofList]
  refine ⟨hread, ?_⟩
  rw [hread, ← hkept]
  by_cases hempty : stripped s = ""
  · rw [if_pos hempty, hempty]
    exact iff_of_false (by simp) fun h => h.1 h.2.symm
  · rw [if_neg hempty]
    constructor
    · intro h
      obtain ⟨hs, -⟩ := List.cons.inj (Except.ok.inj h)
      have hs := Node.text.inj hs
      exact ⟨hs ▸ hempty, hs⟩
    · rintro ⟨-, hs⟩
      rw [hs]

-- A no-break space inside a text is kept, and so is a bracket that opens nothing.
theorem bare_text_with_no_break_space :
    Options.resolve (.record [("ignored_tags", .list ["svg"])]) = .ok ⟨["svg"]⟩ ∧
      Fragment.ofConfigured "a\u00a0> b" (.record [("ignored_tags", .list ["svg"])]) =
        .ok [.text "a\u00a0> b"] := by
  have hconfig : Options.resolve (.record [("ignored_tags", .list ["svg"])]) = .ok ⟨["svg"]⟩ := rfl
  have hkept := (bare_text_loses_blank_ends (s := "a\u00a0> b") hconfig (by simp) (by simp)).2
  refine ⟨hconfig, hkept.mpr ⟨by simp, ?_⟩⟩
  simp [Text.EndsWithout, Text.isBlank]

-- A no-break space is no blank of markup. At the beginning of a text it is lost all the same.
theorem bare_text_after_no_break_space :
    let s := "\u00a0x"
    s ≠ "" ∧ '<' ∉ s.toList ∧ '&' ∉ s.toList ∧ Text.EndsWithout Text.isMarkupBlank s.toList ∧
      Fragment.ofConfigured (.text s) .null = .ok [.text "x"] := by
  intro s
  have hbracket : '<' ∉ s.toList := by simp [s]
  have hamp : '&' ∉ s.toList := by simp [s]
  have hstripped : stripped s = "x" := by decide +kernel
  refine ⟨by simp [s], hbracket, hamp, by simp [s, Text.EndsWithout, Text.isMarkupBlank], ?_⟩
  rw [Fragment.ofConfigured_bare (o := {}) rfl hbracket hamp, hstripped]
  rfl

end MarkupDiff
