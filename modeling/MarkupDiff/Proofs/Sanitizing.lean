import MarkupDiff.Proofs.Markup.Markers
import MarkupDiff.Proofs.Text.Strip

namespace MarkupDiff.Markup

open Text (EndsWithout isBlank strip)

theorem toList_sanitize (s : String) : (sanitize s).toList = strip (withoutMarkers s.toList) :=
  String.toList_ofList

-- Stripping what has no marker brings none about.
theorem not_isInfix_sanitize (s : String) : ¬marker <:+: (sanitize s).toList := by
  rw [toList_sanitize]
  exact fun h => not_isInfix_withoutMarkers s.toList (h.trans (Text.strip_isInfix _))

theorem sanitize_sanitize (s : String) : sanitize (sanitize s) = sanitize s := by
  refine sanitize_eq_self (eraseMarkers_eq_self_iff.mpr (not_isInfix_sanitize s)) ?_
  rw [toList_sanitize, Text.strip_strip]

theorem sanitize_append_marker (a b : String) :
    sanitize (a ++ "<!---->" ++ b) = sanitize (a ++ b) := by
  have hmarker : "<!---->".toList = marker := rfl
  rw [sanitize, sanitize, String.toList_append, String.toList_append, String.toList_append, hmarker,
    withoutMarkers_append_marker]

theorem notMem_marker_of_isBlank {c : Char} (h : isBlank c = true) : c ∉ marker := by
  intro hc
  have hmarker : marker.all (fun d => !isBlank d) = true := by rfl
  have hnot := List.all_eq_true.mp hmarker c hc
  rw [h] at hnot
  exact Bool.noConfusion hnot

theorem sanitize_append_blanks {u v : String} (hu : ∀ c ∈ u.toList, isBlank c = true)
    (hv : ∀ c ∈ v.toList, isBlank c = true) (s : String) :
    sanitize (u ++ s ++ v) = sanitize s := by
  rw [sanitize, sanitize, String.toList_append, String.toList_append,
    withoutMarkers_append_of_notMem (fun c hc => notMem_marker_of_isBlank (hu c hc))
      (fun c hc => notMem_marker_of_isBlank (hv c hc)),
    Text.strip_append_blanks hu hv]

-- Sanitized markup is the one normal form of a text. Erasing all markers at once comes to an end
-- after some rounds, and taking out single ones does so in any order, always with the same rest,
-- which is stripped of the blanks at its ends. So markers and blanks around a text do not count.
theorem sanitizing_reaches_normal_form (s : String) :
    (∃ n, eraseMarkers (eraseMarkers^[n] s.toList) = eraseMarkers^[n] s.toList ∧
      (sanitize s).toList = strip (eraseMarkers^[n] s.toList)) ∧
    (¬marker <:+: (sanitize s).toList ∧ EndsWithout isBlank (sanitize s).toList) ∧
    (WellFounded (fun rest cs => TakesOut cs rest) ∧ (∃ rest, Unmarks s.toList rest) ∧
      ∀ rest, Unmarks s.toList rest → (sanitize s).toList = strip rest) ∧
    sanitize (sanitize s) = sanitize s ∧
    (∀ a b, sanitize (a ++ "<!---->" ++ b) = sanitize (a ++ b)) ∧
    ∀ u v : String, (∀ c ∈ u.toList, isBlank c = true) → (∀ c ∈ v.toList, isBlank c = true) →
      sanitize (u ++ s ++ v) = sanitize s := by
  refine ⟨?_, ⟨not_isInfix_sanitize s, ?_⟩, ⟨wellFounded_takesOut, ?_, ?_⟩, sanitize_sanitize s,
    sanitize_append_marker, fun _ _ hu hv => sanitize_append_blanks hu hv s⟩
  · obtain ⟨n, hn⟩ := exists_iterate_eraseMarkers s.toList
    exact ⟨n, by rw [hn, eraseMarkers_withoutMarkers], by rw [hn, toList_sanitize]⟩
  · rw [toList_sanitize]
    exact Text.endsWithout_strip _
  · exact ⟨_, unmarks_iff.mpr rfl⟩
  · intro rest hrest
    rw [toList_sanitize, unmarks_iff.mp hrest]

-- A marker that only comes about when another one is taken out, in the midst of blanks.
theorem sanitize_nested_marker :
    let s := "a<!-<!---->--->b"
    (∀ c ∈ "\u00a0\n".toList, isBlank c = true) ∧ (∀ c ∈ "\t".toList, isBlank c = true) ∧
      Unmarks s.toList "ab".toList ∧ sanitize ("\u00a0\n" ++ s ++ "\t") = "ab" := by
  intro s
  have hfront : ∀ c ∈ "\u00a0\n".toList, isBlank c = true := List.all_eq_true.mp rfl
  have hback : ∀ c ∈ "\t".toList, isBlank c = true := List.all_eq_true.mp rfl
  have hinner : TakesOut s.toList "a<!---->b".toList := by
    simpa [s, marker] using TakesOut.marker "a<!-".toList "--->b".toList
  have houter : TakesOut "a<!---->b".toList "ab".toList := by
    simpa [marker] using TakesOut.marker "a".toList "b".toList
  have hout : Unmarks s.toList "ab".toList := ⟨.tail (.single hinner) houter, by decide⟩
  obtain ⟨-, -, ⟨-, -, hunique⟩, -, -, hblanks⟩ := sanitizing_reaches_normal_form s
  refine ⟨hfront, hback, hout, ?_⟩
  rw [hblanks _ _ hfront hback, ← String.toList_inj, hunique _ hout]
  decide

end MarkupDiff.Markup
