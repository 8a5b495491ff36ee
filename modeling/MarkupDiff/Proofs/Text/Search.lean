import MarkupDiff.Text.Search

namespace MarkupDiff.Text

variable {after : List Char → Option (List Char)} {before cs rest r : List Char} {x : Char}

-- The search passes over a beginning from no place of which anything can be read.
theorem splitAt?_append (hbefore : ∀ y, y ≠ [] → y <:+ before → after (y ++ rest) = none)
    (hrest : after rest = some r) : splitAt? after (before ++ rest) = some (before, r) := by
  induction before with
  | nil =>
    cases rest with
    | nil => simp [splitAt?, hrest]
    | cons c rest => simp [splitAt?, hrest]
  | cons c before ih =>
    have hhere : after (c :: (before ++ rest)) = none :=
      hbefore (c :: before) (List.cons_ne_nil _ _) (List.suffix_refl _)
    have htail := ih fun y hy hsuffix => hbefore y hy (hsuffix.trans (List.suffix_cons _ _))
    simp [splitAt?, hhere, htail]

-- What a search finds is read at the first place where that is possible.
theorem splitAt?_eq_some (h : splitAt? after cs = some (before, r)) :
    ∃ rest, cs = before ++ rest ∧ after rest = some r ∧
      ∀ y, y ≠ [] → y <:+ before → after (y ++ rest) = none := by
  induction cs generalizing before with
  | nil =>
    simp only [splitAt?, Option.map_eq_some_iff, Prod.mk.injEq] at h
    obtain ⟨r', hr, rfl, rfl⟩ := h
    exact ⟨[], rfl, hr, fun y hy hsuffix => absurd (List.suffix_nil.mp hsuffix) hy⟩
  | cons c cs ih =>
    simp only [splitAt?] at h
    split at h
    · rename_i r' hr
      simp only [Option.some.injEq, Prod.mk.injEq] at h
      obtain ⟨rfl, rfl⟩ := h
      exact ⟨c :: cs, rfl, hr, fun y hy hsuffix => absurd (List.suffix_nil.mp hsuffix) hy⟩
    · rename_i hnone
      simp only [Option.map_eq_some_iff, Prod.mk.injEq, Prod.exists] at h
      obtain ⟨b, r', hb, rfl, rfl⟩ := h
      obtain ⟨rest, rfl, hrest, hbefore⟩ := ih hb
      refine ⟨rest, rfl, hrest, ?_⟩
      intro y hy hsuffix
      rcases List.suffix_cons_iff.mp hsuffix with rfl | hsuffix
      · exact hnone
      · exact hbefore y hy hsuffix

theorem afterChar_eq_some : afterChar x cs = some r ↔ cs = x :: r := by
  cases cs with
  | nil => simp [afterChar]
  | cons c cs => simp [afterChar]

theorem afterBlanksAndChar_eq_some :
    afterBlanksAndChar x cs = some r ↔ cs.dropWhile isBlank = x :: r :=
  afterChar_eq_some

theorem splitAtChar?_append (h : x ∉ before) (rest : List Char) :
    splitAtChar? x (before ++ x :: rest) = some (before, rest) := by
  refine splitAt?_append ?_ (by simp [afterChar])
  intro y hy hsuffix
  cases y with
  | nil => exact absurd rfl hy
  | cons c y =>
    have hc : c ≠ x := fun hc => h (hc ▸ hsuffix.subset List.mem_cons_self)
    simp [afterChar, hc]

theorem splitAtChar?_eq_some (h : splitAtChar? x cs = some (before, r)) :
    cs = before ++ x :: r ∧ x ∉ before := by
  obtain ⟨rest, rfl, hrest, hbefore⟩ := splitAt?_eq_some h
  obtain rfl := afterChar_eq_some.mp hrest
  refine ⟨rfl, ?_⟩
  intro hx
  obtain ⟨s, t, rfl⟩ := List.append_of_mem hx
  have := hbefore (x :: t) (List.cons_ne_nil _ _) (List.suffix_append _ _)
  simp [afterChar] at this

theorem consumed_append (before rest : List Char) : consumed (before ++ rest) rest = before := by
  simp [consumed]

end MarkupDiff.Text
