import MarkupDiff.Proofs.Difference.Apart
import MarkupDiff.Proofs.Difference.Meeting

namespace MarkupDiff

-- Every change between nested data tells what is so at its path. Wherever a walk through both sides
-- comes to two lists, each item that only the longer one has is told of exactly once. And no path
-- to a change is the beginning of the path to another one, so no two are the same.
theorem changes_are_accurate_and_apart {left right : Value} (hleft : left.Nested)
    (hright : right.Nested) :
    (∀ c ∈ structuralDiff left right, c.Accurate left right) ∧
    (∀ path xs ys, Change.Meets left right path (.list xs) (.list ys) →
      ∀ i, min xs.length ys.length ≤ i → i < max xs.length ys.length →
        ∃! c, c ∈ structuralDiff left right ∧ c.AtItem path i) ∧
    (structuralDiff left right).Pairwise fun c d =>
      ¬Path.Begins c.fullPath d.fullPath ∧ ¬Path.Begins d.fullPath c.fullPath := by
  have hapart := Change.pairwise_between hleft hright []
  refine ⟨fun c hc => Change.accurate_of_meets hleft hright .whole hc, ?_, ?_⟩
  · intro path xs ys hmeets i hmin hmax
    obtain ⟨c, hc, hat⟩ := Change.exists_atItem hmeets hmin hmax
    refine ⟨c, ⟨hc, hat⟩, ?_⟩
    rintro d ⟨hd, hdat⟩
    exact Change.eq_of_fullPath_eq hapart hd hc (hdat.fullPath_eq.trans hat.fullPath_eq.symm)
  · exact hapart.imp fun h => ⟨h.not_begins, h.symm.not_begins⟩

-- An item is edited and the two behind it are gone; a key is gone, and another one has come.
theorem changes_of_shortened_list :
    let left : Value := .record [("a", .list ["x", "y", "z"]), (.nat 1, .null)]
    let right : Value := .record [("b", .null), ("a", .list ["u"])]
    left.Nested ∧ right.Nested ∧
      Change.Meets left right ["a"] (.list ["x", "y", "z"]) (.list ["u"]) ∧
      Change.Accurate left right (.edited ["a", .nat 0] "x" "u") ∧
      (∃! c, c ∈ structuralDiff left right ∧ c.AtItem ["a"] 2) ∧
      ¬Path.Begins [.nat 1] ["a", .nat 2] := by
  intro left right
  have hleft : left.Nested := by
    refine Value.nested_record.mpr ⟨⟨?_, ?_⟩, ?_⟩
    · simp [Value.IsKey, Value.unhashablePart?, Value.nat, Value.int]
    · simp [Value.equal, Value.text?, Value.nat, Value.int]
    · simp [Value.Nested, Value.NestedItems]
  have hright : right.Nested := by
    refine Value.nested_record.mpr ⟨⟨?_, ?_⟩, ?_⟩
    · simp [Value.IsKey, Value.unhashablePart?]
    · simp [Value.equal, Value.text?]
    · simp [Value.Nested, Value.NestedItems]
  have hmeets : Change.Meets left right ["a"] (.list ["x", "y", "z"]) (.list ["u"]) :=
    .entry .whole (by simp) rfl
  have hchanges : structuralDiff left right =
      [.edited ["a", .nat 0] "x" "u", .removedItem ["a"] 1 "y", .removedItem ["a"] 2 "z",
        .removedKey [] (.nat 1) .null, .addedKey [] "b" .null] := by
    rfl
  obtain ⟨haccurate, hsurplus, hapart⟩ := changes_are_accurate_and_apart hleft hright
  refine ⟨hleft, hright, hmeets, haccurate _ (by simp [hchanges]),
    hsurplus _ _ _ hmeets 2 (by simp) (by simp), ?_⟩
  rw [hchanges] at hapart
  simp only [List.pairwise_cons, List.mem_cons, forall_eq_or_imp] at hapart
  exact hapart.2.2.1.1.2

end MarkupDiff
