import MarkupDiff.Proofs.Text.Words

namespace MarkupDiff

namespace Text

-- The parts of a text between separators. Separators at the ends and next to each other have no
-- part between them.
def pieces (separates : Char → Bool) (cs : List Char) : List (List Char) :=
  (cs.splitOnP separates).filter (!·.isEmpty)

variable {p q : Char → Bool}

theorem pieces_cons_of_pos {c : Char} (hc : p c = true) (cs : List Char) :
    pieces p (c :: cs) = pieces p cs := by
  rw [pieces, List.splitOnP_cons_eq_if_modifyHead, if_pos hc, List.filter_cons_of_neg (by simp)]
  rfl

-- A character that goes in front of another one joins its part.
theorem exists_pieces_cons_of_neg {c : Char} (hc : p c = false) (cs : List Char) :
    ∃ w ws, cs.splitOnP p = w :: ws ∧ pieces p (c :: cs) = (c :: w) :: ws.filter (!·.isEmpty) := by
  obtain ⟨w, ws, hsplit⟩ := List.exists_cons_of_ne_nil (List.splitOnP_ne_nil p cs)
  refine ⟨w, ws, hsplit, ?_⟩
  rw [pieces, List.splitOnP_cons_eq_if_modifyHead, if_neg (by simp [hc]), hsplit,
    List.modifyHead_cons, List.filter_cons_of_pos (by simp)]

-- Words are what stands between blanks.
theorem words_eq_pieces (cs : List Char) : words cs = pieces isBlank cs := by
  induction cs with
  | nil => rfl
  | cons c cs ih =>
    by_cases hc : isBlank c = true
    · rw [pieces_cons_of_pos hc, words_cons_of_isBlank hc, ih]
    · rw [Bool.not_eq_true] at hc
      obtain ⟨w, ws, hsplit, hpieces⟩ := exists_pieces_cons_of_neg hc cs
      rw [hpieces]
      cases cs with
      | nil =>
        obtain ⟨rfl, rfl⟩ := List.cons.inj ((List.splitOnP_nil (p := isBlank)).symm.trans hsplit)
        simp [words, hc]
      | cons d ds =>
        rw [List.splitOnP_cons_eq_if_modifyHead] at hsplit
        by_cases hd : isBlank d = true
        · rw [if_pos hd] at hsplit
          obtain ⟨rfl, rfl⟩ := List.cons.inj hsplit
          rw [words, ih, pieces_cons_of_pos hd]
          simp [hc, hd, pieces]
        · have hd' : isBlank d = false := by simpa using hd
          obtain ⟨v, vs, hrest, hnext⟩ := exists_pieces_cons_of_neg hd' ds
          rw [if_neg hd, hrest, List.modifyHead_cons] at hsplit
          obtain ⟨rfl, rfl⟩ := List.cons.inj hsplit
          rw [words, ih, hnext]
          simp [hc, hd']

theorem pieces_congr {cs : List Char} (h : ∀ c ∈ cs, p c = q c) : pieces p cs = pieces q cs := by
  suffices hsplit : cs.splitOnP p = cs.splitOnP q by rw [pieces, pieces, hsplit]
  induction cs with
  | nil => rw [List.splitOnP_nil, List.splitOnP_nil]
  | cons c cs ih =>
    rw [List.splitOnP_cons_eq_if_modifyHead, List.splitOnP_cons_eq_if_modifyHead,
      h c List.mem_cons_self, ih fun d hd => h d (List.mem_cons_of_mem _ hd)]

end Text

-- The tokens of a string where only the blanks of markup stand between them.
def markupTokensOf (s : String) : List String :=
  (Text.pieces Text.isMarkupBlank s.toList).map .ofList

-- Every blank in the string is one of markup.
def HasMarkupBlanksOnly (s : String) : Prop :=
  ∀ c ∈ s.toList, Text.isBlank c = true → Text.isMarkupBlank c = true

theorem wordsOf_eq_markupTokensOf {s : String} (h : HasMarkupBlanksOnly s) :
    wordsOf s = markupTokensOf s := by
  have hagree : ∀ c ∈ s.toList, Text.isBlank c = Text.isMarkupBlank c := fun c hc =>
    Bool.eq_iff_iff.mpr ⟨h c hc, Text.isBlank_of_isMarkupBlank⟩
  rw [wordsOf, Text.words_eq_pieces, Text.pieces_congr hagree, markupTokensOf]

end MarkupDiff
