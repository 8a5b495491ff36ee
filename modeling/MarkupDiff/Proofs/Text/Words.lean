import MarkupDiff.Node.Normal

namespace MarkupDiff.Text

-- A run of characters that `words` can give.
def IsWord (w : List Char) : Prop :=
  w ≠ [] ∧ ∀ c ∈ w, isBlank c = false

theorem words_cons_of_isBlank {c : Char} (h : isBlank c = true) (cs : List Char) :
    words (c :: cs) = words cs := by
  simp [words, h]

theorem isWord_of_mem_words (cs : List Char) : ∀ w ∈ words cs, IsWord w := by
  induction cs with
  | nil => simp [words]
  | cons c cs ih =>
    by_cases hc : isBlank c = true
    · rw [words_cons_of_isBlank hc]
      exact ih
    · have hc : isBlank c = false := by simpa using hc
      have hone : IsWord [c] := ⟨by simp, by simpa using hc⟩
      cases cs with
      | nil =>
        intro w hw
        have : w = [c] := by simpa [words, hc] using hw
        exact this ▸ hone
      | cons d ds =>
        by_cases hd : isBlank d = true
        · intro w hw
          have hw : w = [c] ∨ w ∈ words (d :: ds) := by
            rw [words] at hw
            simpa [hc, hd] using hw
          exact hw.elim (fun h => h ▸ hone) (ih w)
        · have hd : isBlank d = false := by simpa using hd
          cases hws : words (d :: ds) with
          | nil =>
            intro w hw
            rw [words] at hw
            have : w = [c] := by simpa [hc, hd, hws] using hw
            exact this ▸ hone
          | cons v vs =>
            intro w hw
            have hw : w = c :: v ∨ w ∈ vs := by
              rw [words] at hw
              simpa [hc, hd, hws] using hw
            rcases hw with rfl | hw
            · have hv := ih v (by simp [hws])
              exact ⟨by simp, by simpa using ⟨hc, hv.2⟩⟩
            · exact ih w (by simp [hws, hw])

-- A word that ends where the text ends or before a blank is read as it is.
theorem words_append {w : List Char} (hw : IsWord w) (rest : List Char)
    (hrest : ∀ c ∈ rest.head?, isBlank c = true) : words (w ++ rest) = w :: words rest := by
  obtain ⟨hne, hblank⟩ := hw
  induction w with
  | nil => exact absurd rfl hne
  | cons c w ih =>
    have hc := hblank c (by simp)
    cases w with
    | nil =>
      cases rest with
      | nil => simp [words, hc]
      | cons d ds =>
        have hd := hrest d (by simp)
        rw [List.singleton_append, words]
        simp [hc, hd]
    | cons d ds =>
      have hd := hblank d (by simp)
      have := ih (by simp) (fun c hc => hblank c (List.mem_cons_of_mem _ hc))
      rw [List.cons_append] at this ⊢
      rw [List.cons_append, words]
      simp [hc, hd, this]

theorem words_intercalate (ws : List (List Char)) (h : ∀ w ∈ ws, IsWord w) :
    words ([' '].intercalate ws) = ws := by
  induction ws with
  | nil => simp [words]
  | cons w ws ih =>
    have hw := h w (by simp)
    cases ws with
    | nil =>
      have := words_append hw [] (by simp)
      simpa [words] using this
    | cons v vs =>
      have hi := ih fun x hx => h x (List.mem_cons_of_mem _ hx)
      rw [List.intercalate_cons_cons, List.append_assoc, words_append hw _ (by simp; decide),
        List.singleton_append, words_cons_of_isBlank (by decide), hi]

end MarkupDiff.Text

namespace MarkupDiff

theorem wordsOf_intercalate (ws : List String) (h : ∀ w ∈ ws, Text.IsWord w.toList) :
    wordsOf (" ".intercalate ws) = ws := by
  have hwords : Text.words (" ".intercalate ws).toList = ws.map String.toList := by
    rw [String.toList_intercalate]
    exact Text.words_intercalate _ (by simpa using h)
  rw [wordsOf, hwords, List.map_map]
  simp [Function.comp_def]

theorem isWord_of_mem_wordsOf {s w : String} (h : w ∈ wordsOf s) : Text.IsWord w.toList := by
  obtain ⟨v, hv, rfl⟩ := List.mem_map.mp h
  simpa using Text.isWord_of_mem_words _ v hv

theorem textLe_iff {a b : String} : textLe a b = true ↔ a ≤ b := by
  rw [textLe, Bool.not_eq_true', decide_eq_false_iff_not, String.not_lt]

theorem textLe_trans (a b c : String) (hab : textLe a b = true) (hbc : textLe b c = true) :
    textLe a c = true :=
  textLe_iff.mpr (String.le_trans (textLe_iff.mp hab) (textLe_iff.mp hbc))

theorem textLe_total (a b : String) : (textLe a b || textLe b a) = true := by
  simpa only [Bool.or_eq_true, textLe_iff] using String.le_total a b

theorem textLe_antisymm {a b : String} (hab : textLe a b = true) (hba : textLe b a = true) :
    a = b :=
  String.le_antisymm (textLe_iff.mp hab) (textLe_iff.mp hba)

-- Texts in ascending order are determined by which texts there are, and how often.
theorem mergeSort_textLe_eq_iff {vs ws : List String} :
    vs.mergeSort textLe = ws.mergeSort textLe ↔ vs.Perm ws := by
  constructor
  · intro h
    exact (List.mergeSort_perm vs textLe).symm.trans (h ▸ List.mergeSort_perm ws textLe)
  · intro h
    have hperm : (vs.mergeSort textLe).Perm (ws.mergeSort textLe) :=
      (List.mergeSort_perm vs textLe).trans (h.trans (List.mergeSort_perm ws textLe).symm)
    exact hperm.eq_of_pairwise (fun a b _ _ => textLe_antisymm)
      (List.pairwise_mergeSort textLe_trans textLe_total vs)
      (List.pairwise_mergeSort textLe_trans textLe_total ws)

theorem wordsOf_classValue (v : String) :
    wordsOf (classValue v) = (wordsOf v).mergeSort textLe := by
  apply wordsOf_intercalate
  intro w hw
  exact isWord_of_mem_wordsOf (List.mem_mergeSort.mp hw)

-- Class values have one usual form exactly when they hold the same words equally often.
theorem classValue_eq_iff {v w : String} :
    classValue v = classValue w ↔ (wordsOf v).Perm (wordsOf w) := by
  rw [← mergeSort_textLe_eq_iff]
  constructor
  · intro h
    rw [← wordsOf_classValue, ← wordsOf_classValue, h]
  · intro h
    rw [classValue, classValue, h]

end MarkupDiff
