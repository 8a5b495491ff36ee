import MarkupDiff.Proofs.Markup.Asides
import MarkupDiff.Proofs.Markup.Reading
import MarkupDiff.Proofs.Markup.Tags

namespace MarkupDiff.Markup

-- A token whose names are names and whose content can stand between its marks. Text is never
-- empty.
def Token.Proper : Token → Prop
  | startTag name as => Tag.IsName name ∧ ∀ a ∈ as, Tag.IsAttrName a.1
  | closedTag name as => Tag.IsName name ∧ ∀ a ∈ as, Tag.IsAttrName a.1
  | comment text => Aside.comment.Fits text
  | doctype text => Aside.doctype.Fits text
  | instruction text => Aside.instruction.Fits text
  | declaration text => (Builder.declared text).1.Fits (Builder.declared text).2
  | data text => text ≠ []
  | endTag _ => True

namespace Scan

def Step.tokens : Step → List Token
  | next ts _ _ => ts
  | stop ts _ => ts
  | refused _ => []

variable {cs rest : List Char} {t : Token}

theorem proper_of_splitAtChar? (make : List Char → Token)
    (hmake : ∀ text, '>' ∉ text → (make text).Proper)
    (h : Construct.upTo make (Text.splitAtChar? '>' cs) = .token t rest) : t.Proper := by
  obtain ⟨text, hsplit, rfl⟩ := Construct.exists_of_upTo h
  exact hmake text (Text.splitAtChar?_eq_some hsplit).2

theorem proper_of_bogusComment (h : Construct.bogusComment cs = .token t rest) : t.Proper :=
  proper_of_splitAtChar? .comment (fun _ => Construct.fits_comment_of_notMem) h

theorem proper_of_declaration (h : Construct.declaration cs = .ok (.token t rest)) : t.Proper := by
  unfold Construct.declaration at h
  split at h
  · obtain ⟨text, hsplit, rfl⟩ := Construct.exists_of_upTo (Except.ok.inj h)
    exact Construct.fits_comment_of_splitAt? hsplit
  · obtain ⟨text, rfl, hfits⟩ := Construct.fits_of_markedSection h
    exact hfits
  · split at h
    · refine proper_of_splitAtChar? _ ?_ (Except.ok.inj h)
      exact fun text htext hmem => htext ((List.drop_suffix _ _).subset hmem)
    · exact proper_of_bogusComment (Except.ok.inj h)

theorem proper_of_startTag {c : Char} (hc : Reference.isLetter c = true)
    (h : Tag.startTag (c :: cs) = .token t rest) : t.Proper := by
  cases t with
  | startTag name as => exact Tag.isName_of_startTag hc h (.inl rfl)
  | closedTag name as => exact Tag.isName_of_startTag hc h (.inr rfl)
  | endTag name => trivial
  | data text =>
    unfold Tag.startTag at h
    simp only at h
    split at h
    · cases h
    · cases h
    · cases h
    · split at h
      · cases h
      · obtain ⟨ht, _⟩ := Tag.Reading.token.inj h
        rw [← ht]
        exact List.cons_ne_nil _ _
  | _ =>
    unfold Tag.startTag at h
    simp only at h
    split at h
    · cases h
    · cases h
    · cases h
    · split at h <;> cases h

theorem proper_of_endTagTokens {inside : List Char} (hinside : '>' ∉ inside)
    (h : t ∈ Construct.endTagTokens inside) : t.Proper := by
  unfold Construct.endTagTokens at h
  split at h
  · rw [List.mem_singleton.mp h]
    trivial
  · exact absurd h List.not_mem_nil
  · split at h
    · rw [List.mem_singleton.mp h]
      trivial
    · rw [List.mem_singleton.mp h]
      exact Construct.fits_comment_of_notMem hinside

theorem looseText_ne_nil (cs : List Char) : (looseText cs).1 ≠ [] := by
  unfold looseText
  split
  · exact List.cons_ne_nil _ _
  · split <;> exact List.cons_ne_nil _ _

theorem proper_of_afterConstruct {last : Bool} {reading : Tag.Reading}
    (hreading : ∀ u rest, reading = .token u rest → u.Proper)
    (h : t ∈ (afterConstruct last cs reading).tokens) : t.Proper := by
  unfold afterConstruct at h
  split at h
  · rw [List.mem_singleton.mp h]
    exact hreading _ _ rfl
  · split at h
    · rw [List.mem_singleton.mp h]
      exact looseText_ne_nil cs
    · exact absurd h List.not_mem_nil

theorem proper_of_atBracket {last : Bool} (h : t ∈ (atBracket last cs).tokens) : t.Proper := by
  unfold atBracket at h
  split at h
  · exact absurd h List.not_mem_nil
  · unfold endTag at h
    split at h
    · rename_i hsplit
      exact proper_of_endTagTokens (Text.splitAtChar?_eq_some hsplit).2 h
    · exact proper_of_afterConstruct (fun _ _ hreading => Tag.Reading.noConfusion hreading) h
  · refine proper_of_afterConstruct (fun _ _ hreading => ?_) h
    exact proper_of_splitAtChar? .instruction (fun _ htext => htext) hreading
  · split at h
    · rename_i hreading
      exact proper_of_afterConstruct (fun _ _ hu => proper_of_declaration (hu ▸ hreading)) h
    · exact absurd h List.not_mem_nil
  · split at h
    · rename_i hletter
      exact proper_of_afterConstruct (fun _ _ => proper_of_startTag hletter) h
    · rw [List.mem_singleton.mp h]
      exact List.cons_ne_nil _ _

theorem textOf?_ne_nil {name text : List Char} (h : Reference.textOf? name = some text) :
    text ≠ [] := by
  have hnames : Reference.names.all (fun e => !e.2.isEmpty) = true := by decide +kernel
  obtain ⟨before, after, heq, -⟩ := List.lookup_eq_some_iff.mp h
  have hne := List.all_eq_true.mp hnames (.ofList name, text) (heq ▸ by simp)
  simpa using hne

theorem proper_of_atAmpersand {last : Bool} (h : t ∈ (atAmpersand last cs).tokens) :
    t.Proper := by
  unfold atAmpersand at h
  split at h
  · exact absurd h List.not_mem_nil
  · split at h
    · rw [List.mem_singleton.mp h]
      exact List.cons_ne_nil _ _
    · split at h
      · rw [List.mem_singleton.mp h]
        exact List.cons_ne_nil _ _
      · exact absurd h List.not_mem_nil
  · split at h
    · rename_i name _ _
      rw [List.mem_singleton.mp h]
      cases htext : Reference.textOf? name with
      | none => exact List.cons_ne_nil _ _
      | some text => exact textOf?_ne_nil htext
    · split at h
      · split at h <;> exact absurd h List.not_mem_nil
      · rw [List.mem_singleton.mp h]
        exact List.cons_ne_nil _ _

theorem proper_of_inRaw {element : List Char} (h : t ∈ (inRaw element cs).tokens) : t.Proper := by
  have hbefore : ∀ {before : List Char} {more : List Token}, (∀ u ∈ more, u.Proper) →
      t ∈ (if before.isEmpty then [] else [Token.data before]) ++ more → t.Proper := by
    intro before more hmore ht
    rcases List.mem_append.mp ht with ht | ht
    · split at ht
      · exact absurd ht List.not_mem_nil
      · rename_i hbefore
        rw [List.mem_singleton.mp ht]
        exact fun hnil => hbefore (List.isEmpty_iff.mpr hnil)
    · exact hmore t ht
  unfold inRaw at h
  split at h
  · exact absurd h List.not_mem_nil
  · simp only at h
    split at h
    · exact hbefore (fun _ hu => absurd hu List.not_mem_nil) (List.mem_append_left [] h)
    · split at h
      · split at h
        · exact hbefore (by simp [Token.Proper]) h
        · exact hbefore (by simp [Token.Proper]) h
      · exact hbefore (by simp [Token.Proper]) h

theorem proper_of_step {last : Bool} {mode : Mode} {c : Char}
    (h : t ∈ (step last mode c cs).tokens) : t.Proper := by
  unfold step at h
  split at h
  · exact proper_of_inRaw h
  · split at h
    · exact proper_of_atBracket h
    · split at h
      · exact proper_of_atAmpersand h
      · rw [List.mem_singleton.mp h]
        exact List.cons_ne_nil _ _

end Scan

end MarkupDiff.Markup
