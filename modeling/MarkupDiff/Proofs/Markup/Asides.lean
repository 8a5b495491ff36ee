import MarkupDiff.Markup.Item
import MarkupDiff.Proofs.Text.Search

namespace MarkupDiff.Text

-- A search past blanks that fails does so whatever comes after, if it cannot succeed there.
theorem afterBlanksAndChar_append {x : Char} {cs rest rest' : List Char}
    (h : afterBlanksAndChar x (cs ++ rest) = none) (hrest : afterBlanksAndChar x rest' = none) :
    afterBlanksAndChar x (cs ++ rest') = none := by
  cases hcs : cs.dropWhile isBlank with
  | nil =>
    have : (cs ++ rest').dropWhile isBlank = rest'.dropWhile isBlank := by
      rw [List.dropWhile_append, hcs]
      rfl
    rw [afterBlanksAndChar, this]
    exact hrest
  | cons c cs' =>
    have hdrop : ∀ r, (cs ++ r).dropWhile isBlank = c :: (cs' ++ r) := by
      intro r
      rw [List.dropWhile_append, hcs]
      rfl
    simp only [afterBlanksAndChar, hdrop, afterChar, ite_eq_right_iff, reduceCtorEq, imp_false]
      at h ⊢
    exact h

theorem afterBlanksAndChar_of_notMem {x : Char} {cs : List Char} (h : x ∉ cs) :
    afterBlanksAndChar x cs = none := by
  cases hr : afterBlanksAndChar x cs with
  | none => rfl
  | some r =>
    have hdrop := afterBlanksAndChar_eq_some.mp hr
    have hmem : x ∈ cs.dropWhile isBlank := hdrop ▸ List.mem_cons_self
    exact absurd ((List.dropWhile_suffix _).subset hmem) h

end MarkupDiff.Text

namespace MarkupDiff.Markup

open Text (isBlank afterBlanksAndChar afterBlanksAndChar_append)

-- The content of an aside as it can stand between its marks: the end mark is not met before.
def Aside.Fits : Aside → List Char → Prop
  | comment, text => ∀ y, y ≠ [] → y <:+ text → ∀ rest,
      Construct.afterCommentEnd (y ++ '-' :: '-' :: '>' :: rest) = none
  | characterData, text => ∀ y, y ≠ [] → y <:+ text → ∀ rest,
      Construct.afterDoubleBracket (y ++ ']' :: ']' :: '>' :: rest) = none
  | declaration, _ => True
  | _, text => '>' ∉ text

namespace Construct

variable {y text rest r : List Char}

theorem afterCommentEnd_append (hy : y ≠ []) (h : afterCommentEnd (y ++ r) = none)
    (rest : List Char) : afterCommentEnd (y ++ '-' :: '-' :: '>' :: rest) = none := by
  have hdash : afterBlanksAndChar '>' ('-' :: '-' :: '>' :: rest) = none := rfl
  cases y with
  | nil => exact absurd rfl hy
  | cons c y =>
    cases y with
    | nil =>
      by_cases hc : c = '-'
      · subst hc
        rfl
      · simp [afterCommentEnd, hc]
    | cons d y =>
      by_cases hcd : c = '-' ∧ d = '-'
      · obtain ⟨rfl, rfl⟩ := hcd
        exact afterBlanksAndChar_append h hdash
      · rw [List.cons_append, List.cons_append, afterCommentEnd]
        intro cs hcons
        obtain ⟨hc, hrest⟩ := List.cons.inj hcons
        exact hcd ⟨hc, (List.cons.inj hrest).1⟩

theorem afterDoubleBracket_append (hy : y ≠ []) (h : afterDoubleBracket (y ++ r) = none)
    (rest : List Char) : afterDoubleBracket (y ++ ']' :: ']' :: '>' :: rest) = none := by
  have hbracket : afterBlanksAndChar '>' (']' :: ']' :: '>' :: rest) = none := rfl
  cases y with
  | nil => exact absurd rfl hy
  | cons c y =>
    by_cases hc : c = ']'
    · subst hc
      simp only [List.cons_append, afterDoubleBracket] at h ⊢
      cases hdrop : y.dropWhile isBlank with
      | nil =>
        have : afterBlanksAndChar ']' (y ++ ']' :: ']' :: '>' :: rest) =
            some (']' :: '>' :: rest) := by
          rw [Text.afterBlanksAndChar_eq_some, List.dropWhile_append, hdrop]
          rfl
        rw [this]
        rfl
      | cons d y' =>
        have hparts : ∀ q, (y ++ q).dropWhile isBlank = d :: (y' ++ q) := by
          intro q
          rw [List.dropWhile_append, hdrop]
          rfl
        by_cases hd : d = ']'
        · subst hd
          have hsome : ∀ q, afterBlanksAndChar ']' (y ++ q) = some (y' ++ q) := fun q =>
            Text.afterBlanksAndChar_eq_some.mpr (hparts q)
          rw [hsome, Option.bind_some] at h ⊢
          exact afterBlanksAndChar_append h hbracket
        · have hnone : afterBlanksAndChar ']' (y ++ ']' :: ']' :: '>' :: rest) = none := by
            rw [afterBlanksAndChar, hparts]
            simp [Text.afterChar, hd]
          rw [hnone]
          rfl
    · rw [List.cons_append, afterDoubleBracket]
      rintro cs hcons
      exact hc (List.cons.inj hcons).1

theorem fits_comment_of_notMem (h : '>' ∉ text) : Aside.comment.Fits text := by
  intro y hy hsuffix rest
  refine afterCommentEnd_append (r := []) hy ?_ rest
  rw [List.append_nil]
  unfold afterCommentEnd
  split
  · rename_i cs
    refine Text.afterBlanksAndChar_of_notMem fun hmem => h (hsuffix.subset ?_)
    exact List.mem_cons_of_mem _ (List.mem_cons_of_mem _ hmem)
  · rfl

theorem fits_characterData_of_notMem (h : '>' ∉ text) : Aside.characterData.Fits text := by
  intro y hy hsuffix rest
  refine afterDoubleBracket_append (r := []) hy ?_ rest
  rw [List.append_nil]
  unfold afterDoubleBracket
  split
  · rename_i cs
    rw [Option.bind_eq_none_iff]
    intro r hr
    refine Text.afterBlanksAndChar_of_notMem fun hmem => h (hsuffix.subset ?_)
    have hdrop := Text.afterBlanksAndChar_eq_some.mp hr
    have hmem : '>' ∈ cs.dropWhile isBlank := hdrop ▸ List.mem_cons_of_mem _ hmem
    exact List.mem_cons_of_mem _ ((List.dropWhile_suffix _).subset hmem)
  · rfl

theorem declaration_comment (h : Aside.comment.Fits text) (rest : List Char) :
    declaration ('-' :: '-' :: (text ++ '-' :: '-' :: '>' :: rest)) =
      .ok (.token (.comment text) rest) := by
  have hsplit : Text.splitAt? afterCommentEnd (text ++ '-' :: '-' :: '>' :: rest) =
      some (text, rest) :=
    Text.splitAt?_append (fun y hy hsuffix => h y hy hsuffix rest) rfl
  simp [declaration, hsplit, upTo]

theorem declaration_doctype (h : '>' ∉ text) (rest : List Char) :
    declaration ("DOCTYPE ".toList ++ (text ++ '>' :: rest)) =
      .ok (.token (.doctype text) rest) := by
  have hsplit : Text.splitAtChar? '>' (' ' :: text ++ '>' :: rest) = some (' ' :: text, rest) := by
    refine Text.splitAtChar?_append ?_ rest
    simpa using h
  have hbegins : beginsDoctype ("DOCTYPE ".toList ++ (text ++ '>' :: rest)) = true := rfl
  have hdrop : ("DOCTYPE ".toList ++ (text ++ '>' :: rest)).drop 7 =
      ' ' :: text ++ '>' :: rest := rfl
  unfold declaration
  split
  · rename_i heq
    exact absurd (List.cons.inj heq).1 (by decide)
  · rename_i heq
    exact absurd (List.cons.inj heq).1 (by decide)
  · rw [if_pos hbegins, hdrop, hsplit]
    rfl

theorem declaration_characterData (h : Aside.characterData.Fits text) (rest : List Char) :
    declaration ("[CDATA[".toList ++ (text ++ ']' :: ']' :: '>' :: rest)) =
      .ok (.token (.declaration ("CDATA[".toList ++ text)) rest) := by
  have hsplit : Text.splitAt? afterDoubleBracket (text ++ ']' :: ']' :: '>' :: rest) =
      some (text, rest) :=
    Text.splitAt?_append (fun y hy hsuffix => h y hy hsuffix rest) rfl
  have hkeyword : ("CDATA[".toList ++ (text ++ ']' :: ']' :: '>' :: rest)).takeWhile isKeywordChar =
      "CDATA".toList := by rfl
  have hrest : ("CDATA[".toList ++ (text ++ ']' :: ']' :: '>' :: rest)).dropWhile isKeywordChar =
      '[' :: (text ++ ']' :: ']' :: '>' :: rest) := by rfl
  change markedSection ("CDATA[".toList ++ (text ++ ']' :: ']' :: '>' :: rest)) = _
  simp only [markedSection, hkeyword, hrest]
  simp [Reference.isLetter, isBlank, sectionKeywords, afterDoubleBracket, hsplit, upTo,
    Text.splitAt?]

theorem declared_characterData (text : List Char) :
    Builder.declared ("CDATA[".toList ++ text) = (.characterData, text) := rfl

theorem fits_comment_of_splitAt? (h : Text.splitAt? afterCommentEnd r = some (text, rest)) :
    Aside.comment.Fits text := by
  obtain ⟨rest, rfl, _, hnone⟩ := Text.splitAt?_eq_some h
  exact fun y hy hsuffix more => afterCommentEnd_append hy (hnone y hy hsuffix) more

theorem toLower_of_toUpper {c : Char} (h : c.toUpper = 'C') : c.toLower = 'c' := by
  have hc : c.toNat < 128 := by
    unfold Char.toUpper at h
    split at h
    · rename_i hle
      exact Nat.lt_of_le_of_lt (UInt32.le_iff_toNat_le.mp hle.2) (by decide)
    · rw [h]
      decide
  have hall : ((List.range 128).all fun n =>
      (Char.ofNat n).toUpper != 'C' || (Char.ofNat n).toLower == 'c') = true := by decide +kernel
  have := List.all_eq_true.mp hall _ (List.mem_range.mpr hc)
  simpa [h] using this

-- No keyword for a condition begins with the letter of the keyword for character data.
theorem not_condition {c : Char} {cs : List Char} (hc : c.toUpper = 'C')
    (hletter : Reference.isLetter c = true) :
    ¬ conditionKeywords.contains (.ofList (((c :: cs).takeWhile isKeywordChar).map Char.toLower))
      = true := by
  have hkeyword : isKeywordChar c = true := by simp [isKeywordChar, Reference.isNameChar, hletter]
  rw [List.takeWhile_cons_of_pos hkeyword, List.map_cons, toLower_of_toUpper hc,
    List.contains_iff_mem]
  intro hmem
  simp only [conditionKeywords, List.mem_cons, List.not_mem_nil, or_false] at hmem
  rcases hmem with h | h | h <;>
  · have h := congrArg String.toList h
    simp at h

theorem exists_of_upTo {make : List Char → Token} {split : Option (List Char × List Char)}
    {t : Token} (h : upTo make split = .token t rest) :
    ∃ text, split = some (text, rest) ∧ t = make text := by
  unfold upTo at h
  split at h
  · obtain ⟨rfl, rfl⟩ := Tag.Reading.token.inj h
    exact ⟨_, rfl, rfl⟩
  · cases h

-- A marked section whose content is character data ends with two brackets.
theorem fits_of_markedSection {t : Token} (h : markedSection r = .ok (.token t rest)) :
    ∃ text, t = .declaration text ∧ (Builder.declared text).1.Fits (Builder.declared text).2 := by
  unfold markedSection at h
  split at h
  · exact Tag.Reading.noConfusion (Except.ok.inj h)
  · split at h
    · cases h
    · rename_i hletter
      simp only at h
      split at h
      · exact Tag.Reading.noConfusion (Except.ok.inj h)
      · split at h
        · obtain ⟨text, hsplit, rfl⟩ := exists_of_upTo (Except.ok.inj h)
          obtain ⟨more, hr, _, hnone⟩ := Text.splitAt?_eq_some hsplit
          refine ⟨text, rfl, ?_⟩
          unfold Builder.declared
          split
          · exact fun y hy hsuffix => afterDoubleBracket_append hy
              (hnone y hy (hsuffix.trans (List.drop_suffix _ _)))
          · trivial
        · split at h
          · rename_i hcondition
            obtain ⟨text, hsplit, rfl⟩ := exists_of_upTo (Except.ok.inj h)
            obtain ⟨more, hr, _⟩ := Text.splitAt?_eq_some hsplit
            refine ⟨text, rfl, ?_⟩
            unfold Builder.declared
            split
            · rename_i hdata
              refine absurd hcondition (not_condition ?_ (by simpa using hletter))
              cases text with
              | nil => exact absurd hdata (by decide)
              | cons d text =>
                obtain ⟨rfl, _⟩ := List.cons.inj hr
                simp only [List.take_succ_cons, List.map_cons, beq_iff_eq] at hdata
                exact (List.cons.inj hdata).1
            · trivial
          · cases h

end Construct

end MarkupDiff.Markup
