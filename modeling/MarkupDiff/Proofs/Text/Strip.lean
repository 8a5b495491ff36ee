import MarkupDiff.Text.Blank
import Mathlib.Data.List.DropRight

namespace MarkupDiff.Text

theorem strip_eq (cs : List Char) : strip cs = (cs.dropWhile isBlank).rdropWhile isBlank := rfl

-- The last character of a text without blanks around it is none.
theorem all_isMarkupBlank_strip {cs : List Char} (h : strip cs ≠ []) :
    (strip cs).all isMarkupBlank = false := by
  have hlast := List.rdropWhile_last_not isBlank (cs.dropWhile isBlank) h
  rw [← Bool.not_eq_true, List.all_eq_true]
  exact fun hall => hlast (isBlank_of_isMarkupBlank (hall _ (List.getLast_mem h)))

theorem strip_eq_nil_of_all {cs : List Char} (h : ∀ c ∈ cs, isBlank c = true) : strip cs = [] := by
  rw [strip_eq, List.dropWhile_eq_nil_iff.mpr h]
  rfl

-- No character of a kind stands at either end of the text.
def EndsWithout (p : Char → Bool) (cs : List Char) : Prop :=
  (∀ c ∈ cs.head?, p c = false) ∧ ∀ c ∈ cs.getLast?, p c = false

theorem dropWhile_eq_self_iff_head? {p : Char → Bool} {cs : List Char} :
    cs.dropWhile p = cs ↔ ∀ c ∈ cs.head?, p c = false := by
  cases cs with
  | nil => simp
  | cons c cs => simp [List.dropWhile_eq_self_iff]

theorem rdropWhile_eq_self_iff_getLast? {p : Char → Bool} {cs : List Char} :
    cs.rdropWhile p = cs ↔ ∀ c ∈ cs.getLast?, p c = false := by
  rw [List.rdropWhile, List.reverse_eq_iff, dropWhile_eq_self_iff_head?, List.head?_reverse]

-- A text is as it is without the blanks around it exactly when there are none.
theorem strip_eq_self_iff {cs : List Char} : strip cs = cs ↔ EndsWithout isBlank cs := by
  rw [EndsWithout, ← dropWhile_eq_self_iff_head?, ← rdropWhile_eq_self_iff_getLast?, strip_eq]
  constructor
  · intro h
    have hfront : cs.dropWhile isBlank = cs := by
      have hlength := (List.rdropWhile_prefix isBlank (cs.dropWhile isBlank)).length_le
      rw [h] at hlength
      exact (List.dropWhile_suffix isBlank).eq_of_length_le hlength
    rw [hfront] at h
    exact ⟨hfront, h⟩
  · rintro ⟨hfront, hback⟩
    rw [hfront, hback]

theorem endsWithout_strip (cs : List Char) : EndsWithout isBlank (strip cs) := by
  rw [EndsWithout, ← dropWhile_eq_self_iff_head?, ← rdropWhile_eq_self_iff_getLast?, strip_eq]
  refine ⟨?_, List.rdropWhile_idempotent isBlank _⟩
  rw [dropWhile_eq_self_iff_head?]
  intro c hc
  -- what is cut off at the back leaves the first character in place
  obtain ⟨rest, hrest⟩ := List.rdropWhile_prefix isBlank (cs.dropWhile isBlank)
  have hhead := List.head?_dropWhile_not isBlank cs
  rw [← hrest, List.head?_append, Option.mem_def.mp hc] at hhead
  simpa using hhead

theorem strip_strip (cs : List Char) : strip (strip cs) = strip cs :=
  strip_eq_self_iff.mpr (endsWithout_strip cs)

theorem strip_isInfix (cs : List Char) : strip cs <:+: cs :=
  (List.rdropWhile_prefix isBlank _).isInfix.trans (List.dropWhile_suffix isBlank).isInfix

-- Blanks around a text are stripped with those at its ends.
theorem strip_append_blanks {us vs : List Char} (hus : ∀ c ∈ us, isBlank c = true)
    (hvs : ∀ c ∈ vs, isBlank c = true) (cs : List Char) : strip (us ++ cs ++ vs) = strip cs := by
  have hfront : (us ++ cs ++ vs).dropWhile isBlank = (cs ++ vs).dropWhile isBlank := by
    rw [List.append_assoc, List.dropWhile_append_of_pos hus]
  have hback : ∀ ds : List Char, (ds ++ vs).rdropWhile isBlank = ds.rdropWhile isBlank := by
    intro ds
    rw [List.rdropWhile, List.reverse_append, List.dropWhile_append_of_pos (by simpa using hvs),
      List.rdropWhile]
  rw [strip_eq, strip_eq, hfront, List.dropWhile_append]
  split
  · rename_i hblank
    rw [List.isEmpty_iff.mp hblank, List.dropWhile_eq_nil_iff.mpr hvs]
  · exact hback _

end MarkupDiff.Text
