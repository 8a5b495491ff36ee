import MarkupDiff.Proofs.Markup.RoundTrip
import MarkupDiff.Proofs.Text.Strip
import MarkupDiff.Rendering.Value

namespace MarkupDiff

namespace Markup

open Text (isBlank isMarkupBlank strip)
open Item (joinedAll settledItems printedAll spellingAll)

-- What is shown of text that has come together: it is settled, but there may be none.
def settledShown (cs : List Char) : List Char :=
  if cs.isEmpty then [] else settledText false cs

-- Blank text that is settled stays blank, and other text is settled already.
theorem strip_settledShown (cs : List Char) : strip (settledShown cs) = strip cs := by
  unfold settledShown settledText
  cases hcs : cs.isEmpty with
  | true => rw [if_pos rfl, List.isEmpty_iff.mp hcs]
  | false =>
    rw [if_neg Bool.false_ne_true]
    cases hall : cs.all isMarkupBlank with
    | false => rfl
    | true =>
      have hblank : strip cs = [] := Text.strip_eq_nil_of_all fun c hc =>
        Text.isBlank_of_isMarkupBlank (List.all_eq_true.mp hall c hc)
      rw [hblank]
      simp only [Bool.not_false, Bool.and_self, if_true]
      split <;> rfl

theorem settledItems_strip (cs : List Char) :
    settledItems false (strip cs) =
      if (strip cs).isEmpty then [] else [.text (.ofList (strip cs))] := by
  unfold settledItems
  split
  · rfl
  · rename_i hne
    rw [settledText, Text.all_isMarkupBlank_strip (by simpa using hne)]
    rfl

theorem printedAll_settledItems (cs : List Char) :
    printedAll false (settledItems false cs) = .ofList ((settledShown cs).flatMap escapedChar) := by
  unfold settledItems settledShown
  split
  · rfl
  · simp [printedAll, Item.printed, escaped]

theorem notMem_flatMap_escapedChar (cs : List Char) : '<' ∉ cs.flatMap escapedChar := by
  intro hmem
  obtain ⟨c, _, hc⟩ := List.mem_flatMap.mp hmem
  unfold escapedChar at hc
  split at hc
  · exact absurd hc (by decide)
  · exact absurd hc (by decide)
  · exact absurd hc (by decide)
  · rename_i hne _
    exact hne (List.mem_singleton.mp hc).symm

theorem strip_flatMap_escapedChar (cs : List Char) :
    strip (cs.flatMap escapedChar) = (strip cs).flatMap escapedChar := by
  rw [Text.strip_eq, Item.dropWhile_flatMap_escapedChar, Item.rdropWhile_flatMap_escapedChar]
  rfl

-- Escaped text is read back without the blanks around it.
theorem items_sanitize_escaped (cs : List Char) :
    items (sanitize (.ofList (cs.flatMap escapedChar))) = .ok (settledItems false (strip cs)) := by
  have hmarkers := (hasNoMarker_of_notMem (notMem_flatMap_escapedChar cs)).eraseMarkers_eq
  have hspellable : Item.AllSpellable [.text (.ofList (strip cs))] := ⟨trivial, trivial⟩
  have hspelling : spellingAll false [.text (.ofList (strip cs))] =
      (strip cs).flatMap escapedChar := by
    simp [spellingAll, Item.spelling]
  have hread := Item.items_spellingAll hspellable
  rw [hspelling] at hread
  rw [sanitize, String.toList_ofList, withoutMarkers_eq_self hmarkers, strip_flatMap_escapedChar,
    hread, joinedAll, joinedAll, List.nil_append, String.toList_ofList]

end Markup

namespace Rendering

open Markup (Builder items)
open Markup.Item (joinedAll settledItems)
open Markup.Scan (fed fed_next fed_plain fed_escapedChar isPlain step)

-- Text that becomes markup is read back character by character, whatever stands next to it.
theorem fed_safeChar (b : Builder) (c : Char) (rest : List Char) :
    fed b .markup (safeChar c ++ rest) = fed (b.extend [c]) .markup rest := by
  unfold safeChar
  split
  · exact fed_escapedChar b '&' rest
  · exact fed_escapedChar b '<' rest
  · exact fed_escapedChar b '>' rest
  · have hstep : step false .markup '&' ("#39;".toList ++ rest) = .next [.data ['\'']] .markup rest :=
      rfl
    exact fed_next hstep
  · have hstep : step false .markup '&' ("#34;".toList ++ rest) = .next [.data ['"']] .markup rest :=
      rfl
    exact fed_next hstep
  · rename_i hamp hless _ _ _
    have hplain : isPlain c = true := by
      simp only [isPlain, Bool.and_eq_true, bne_iff_ne]
      exact ⟨hless, hamp⟩
    exact fed_plain b hplain rest

theorem items_safe (s : String) : items (safe s) = .ok (settledItems false s.toList) := by
  have hfed : fed {} .markup (s.toList.flatMap safeChar) =
      .ok (Builder.takeAll {} [.text s], .markup, []) := by
    have hfed := Markup.Scan.fed_flatMap fed_safeChar {} s.toList []
    rwa [List.append_nil, Markup.Scan.fed_nil] at hfed
  rw [safe, Markup.Item.items_of_fed hfed, joinedAll, joinedAll, List.nil_append]

theorem safe_append (s t : String) : safe (s ++ t) = safe s ++ safe t := by
  simp [safe]

end Rendering

end MarkupDiff
