import MarkupDiff.Markup.Printed

namespace MarkupDiff.Markup

namespace Reference

theorem resolved_cons_of_ne {c : Char} (hc : c ≠ '&') (cs : List Char) :
    resolved (c :: cs) = c :: resolved cs := by
  rw [resolved]
  exact hc

theorem resolved_eq_self {cs : List Char} (h : '&' ∉ cs) :
    resolved cs = cs := by
  induction cs with
  | nil => rw [resolved]
  | cons c cs ih =>
    obtain ⟨hc, hcs⟩ := not_or.mp (mt List.mem_cons.mpr h)
    rw [resolved_cons_of_ne (Ne.symm hc), ih hcs]

theorem resolved_of_inValue? {cs text rest : List Char} (h : inValue? cs = some (text, rest)) :
    resolved ('&' :: cs) = text ++ resolved rest := by
  rw [resolved]
  split
  · rename_i h'
    rw [h] at h'
    obtain ⟨rfl, rfl⟩ := Prod.mk.inj (Option.some.inj h')
    rfl
  · rename_i h'
    rw [h] at h'
    cases h'

-- A reference that stands for one character in an attribute value.
theorem resolved_reference (name : List Char) {c : Char} (htext : textOf? name = some [c])
    (hname : ∀ d ∈ name, isValueNameChar d = true) (hlength : 0 < name.length ∧ name.length ≤ 32)
    (rest : List Char) : resolved ('&' :: name ++ ';' :: rest) = c :: resolved rest := by
  have htake : (name ++ ';' :: rest).takeWhile isValueNameChar = name := by
    rw [List.takeWhile_append_of_pos hname]
    simp [isValueNameChar]
  have hin : inValue? (name ++ ';' :: rest) = some ([c], rest) := by
    unfold inValue?
    split
    · rename_i r hr
      cases name with
      | nil => exact absurd hlength.1 (Nat.lt_irrefl 0)
      | cons d name =>
        obtain ⟨rfl, _⟩ := List.cons.inj hr
        exact absurd (hname '#' List.mem_cons_self) (by decide)
    · have hne : name ≠ [] := List.ne_nil_of_length_pos hlength.1
      simp [htake, List.take_of_length_le hlength.2, hne, valueOfName, htext, skipSemicolon]
  rw [List.cons_append, resolved_of_inValue? hin, List.singleton_append]

end Reference

open Reference

-- The three characters that markup needs are read back from a value.
theorem resolved_escapedChar (c : Char) (rest : List Char) :
    resolved (escapedChar c ++ rest) = c :: resolved rest := by
  unfold escapedChar
  split
  · exact resolved_reference "amp".toList (by rfl) (List.all_eq_true.mp rfl) (by decide) rest
  · exact resolved_reference "lt".toList (by rfl) (List.all_eq_true.mp rfl) (by decide) rest
  · exact resolved_reference "gt".toList (by rfl) (List.all_eq_true.mp rfl) (by decide) rest
  · rename_i hne _ _
    exact resolved_cons_of_ne hne rest

theorem mem_escapedChar {c d : Char} (hd : d = '"' ∨ d = '\'') :
    d ∈ escapedChar c ↔ c = d := by
  unfold escapedChar
  split
  · rcases hd with rfl | rfl <;> decide
  · rcases hd with rfl | rfl <;> decide
  · rcases hd with rfl | rfl <;> decide
  · simp [eq_comm]

theorem resolved_flatMap {f : Char → List Char}
    (hf : ∀ c rest, resolved (f c ++ rest) = c :: resolved rest) (cs : List Char) :
    resolved (cs.flatMap f) = cs := by
  induction cs with
  | nil => rw [List.flatMap_nil, resolved]
  | cons c cs ih => rw [List.flatMap_cons, hf, ih]

-- A double quote is a reference in a value that holds quotes of both kinds.
theorem resolved_escapedChar_quoted (c : Char) (rest : List Char) :
    resolved ((escapedChar c).flatMap (fun d => if d == '"' then "&quot;".toList else [d]) ++ rest)
      = c :: resolved rest := by
  by_cases hc : c = '"'
  · subst hc
    exact resolved_reference "quot".toList (by rfl) (List.all_eq_true.mp rfl) (by decide) rest
  · have hnot : ∀ d ∈ escapedChar c, d ≠ '"' := fun d hd hquote =>
      hc ((mem_escapedChar (.inl rfl)).mp (hquote ▸ hd))
    have hkept : (escapedChar c).flatMap (fun d => if d == '"' then "&quot;".toList else [d]) =
        escapedChar c := by
      rw [List.flatMap, List.map_congr_left (g := fun d => [d]) fun d hd => by simp [hnot d hd]]
      exact List.flatMap_singleton' _
    rw [hkept, resolved_escapedChar]

-- A value between quotes is read back: its quote does not occur in it, and its references stand
-- for what has been replaced.
theorem exists_quotedValue (v : String) : ∃ q text,
    (quotedValue (escaped v)).toList = q :: (text ++ [q]) ∧ Tag.isQuote q = true ∧ q ∉ text ∧
      resolved text = v.toList := by
  have hescaped : (escaped v).toList = v.toList.flatMap escapedChar := by simp [escaped]
  have hplain : resolved (v.toList.flatMap escapedChar) = v.toList :=
    resolved_flatMap resolved_escapedChar _
  have hcontains : ∀ d : Char,
      (escaped v).contains d = true ↔ d ∈ v.toList.flatMap escapedChar := by
    intro d
    simp [escaped]
  unfold quotedValue
  split
  · split
    · refine ⟨'"', (v.toList.flatMap escapedChar).flatMap
        fun d => if d == '"' then "&quot;".toList else [d], ?_, rfl, ?_, ?_⟩
      · simp [hescaped]
      · intro hmem
        obtain ⟨d, _, hd⟩ := List.mem_flatMap.mp hmem
        split at hd
        · exact absurd hd (by decide)
        · rename_i hne
          exact hne (by simp [← List.mem_singleton.mp hd])
      · rw [List.flatMap_assoc]
        exact resolved_flatMap resolved_escapedChar_quoted _
    · rename_i hsingle
      refine ⟨'\'', v.toList.flatMap escapedChar, ?_, rfl, ?_, hplain⟩
      · simp [hescaped]
      · exact fun hmem => hsingle ((hcontains _).mpr hmem)
  · rename_i hdouble
    refine ⟨'"', v.toList.flatMap escapedChar, ?_, rfl, ?_, hplain⟩
    · simp [hescaped]
    · exact fun hmem => hdouble ((hcontains _).mpr hmem)

end MarkupDiff.Markup
