import MarkupDiff.Proofs.Sameness
import MarkupDiff.Proofs.Tree.NormalForm

namespace MarkupDiff

open MarkupDiff.Tree (IsLink Root normalizeIgnoring)

-- The report of the first change between two fragments as they stand.
def Fragment.firstChange (left right : Fragment) : Except Fault (Option Report) :=
  match left.changes right with
  | [] => .ok none
  | c :: _ => (Report.ofChange left.toValue right.toValue c).map some

theorem Fragment.firstDifference_normal (o : Options) (f g : Fragment) :
    Fragment.firstDifference o (f.normal o) (g.normal o) =
      Fragment.firstChange (f.normal o) (g.normal o) := by
  rw [firstDifference, normal_normal, normal_normal]
  rfl

-- Normalizing a tree meets no fault and leaves a record of a tree in normal form, with the link
-- that the record has had. That is the same tree exactly when it was in normal form. Normalizing it
-- again leaves it as it is when no more is ignored than before. So a comparison of two values need
-- not normalize for a second time.
theorem normalizing_reaches_normal_form {tags : Value} {o : Options}
    (htags : Options.ofTags tags = .ok o) {link : List (Value × Value)} {v : Value} {t : Root}
    (hlink : IsLink link) (hv : t.Recorded link v) :
    (∃ u : Root, normalizeIgnoring tags v = ⟨u.recordWith link, none⟩ ∧
      u.IsNormal o.prunedTags ∧ (u = t ↔ t.IsNormal o.prunedTags) ∧
      ∀ (tags' : Value) (o' : Options), Options.ofTags tags' = .ok o' →
        o'.ignoredTags ⊆ o.ignoredTags →
        normalizeIgnoring tags' (u.recordWith link) = ⟨u.recordWith link, none⟩) ∧
    ∀ left right config : Value, markupDiff left right config = (do
      let o ← Options.resolve config
      let l ← Fragment.ofValue o left
      let r ← Fragment.ofValue o right
      Fragment.firstChange l r) := by
  refine ⟨⟨t.normal o, Tree.normalizeIgnoring_eq htags hlink hv, t.isNormal_normal o,
    Root.normal_eq_self_iff, ?_⟩, ?_⟩
  · intro tags' o' htags' hsub
    have hnormal := (t.isNormal_normal o).mono (Options.prunedTags_subset hsub)
    rw [Tree.normalizeIgnoring_eq htags' hlink (Root.recorded_recordWith link _),
      Root.normal_eq_self_iff.mpr hnormal]
  · intro left right config
    rw [markupDiff]
    cases Options.resolve config with
    | error fault => rfl
    | ok o =>
      simp only [Fragment.ofValue_eq]
      cases Fragment.read left with
      | error fault => rfl
      | ok f =>
        cases Fragment.read right with
        | error fault => rfl
        | ok g => exact Fragment.firstDifference_normal o f g

-- A fragment whose records lead back to no owner loses its comment and what is ignored, and stays
-- as it is from then on.
theorem normalizing_commented :
    let page : Value := .record [("type", "fragment"), ("children", .list [
      .record [("type", "element"), ("tag", "p"), ("attrs", .list []), ("children", .list [
        .record [("type", "text"), ("content", "a")],
        .record [("type", "comment"), ("content", "b")]])],
      .record [("type", "element"), ("tag", "SVG"), ("attrs", .list []), ("children", .list [])]])]
    let t : Root := .fragment [.element "p" [] [.text "a", .comment "b"], .element "SVG" [] []]
    t.Recorded [] page ∧ ∃ u : Root,
      normalizeIgnoring (.list ["Svg"]) page = ⟨u.recordWith [], none⟩ ∧
        u.IsNormal ["script", "style", "svg"] ∧ u ≠ t ∧
        normalizeIgnoring .null (u.recordWith []) = ⟨u.recordWith [], none⟩ := by
  intro page t
  have htags : Options.ofTags (.list ["Svg"]) = .ok ⟨["svg"]⟩ := by rfl
  have hrecorded : t.Recorded [] page := by
    refine ⟨_, ⟨_, _, [], rfl, .inl rfl, ⟨_, ⟨_, _, [], rfl, .inl rfl, rfl, _, _, [], rfl,
      .inl rfl, rfl, rfl⟩, rfl⟩, _, _, [], rfl, .inl rfl, ⟨_, rfl, rfl⟩, rfl⟩, rfl⟩
  obtain ⟨u, hrun, hnormal, hsame, hagain⟩ :=
    (normalizing_reaches_normal_form htags (.inl rfl) hrecorded).1
  refine ⟨hrecorded, u, hrun, hnormal, fun h => ?_, hagain .null {} rfl (List.nil_subset _)⟩
  have hinside := (hsame.mp h).inside "p" [] _ (.here List.mem_cons_self)
  exact hinside.2.kept (.comment "b") (by simp) (.comment "b")

end MarkupDiff
