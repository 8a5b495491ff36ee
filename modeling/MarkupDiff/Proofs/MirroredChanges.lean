import MarkupDiff.Proofs.Difference.Reordered
import MarkupDiff.Proofs.Difference.Reversed

namespace MarkupDiff

-- What counts as gone in the other direction counts as new in this one.
def Entry.mirroredKind (kind : Option String) : Option String :=
  if kind = some Entry.added then some Entry.deleted
  else if kind = some Entry.deleted then some Entry.added
  else kind

-- The entry with both sides exchanged, and so is the one for its item.
def Entry.mirrored : Entry → Entry
  | ⟨kind, path, left, right, index, none⟩ =>
    ⟨mirroredKind kind, path, right, left, index, none⟩
  | ⟨kind, path, left, right, index, some item⟩ =>
    ⟨mirroredKind kind, path, right, left, index, some item.mirrored⟩

theorem Change.toEntry_mirrored (c : Change) : c.mirrored.toEntry = c.toEntry.mirrored := by
  cases c <;> simp [mirrored, toEntry, Entry.mirrored, Entry.mirroredKind, Entry.added,
    Entry.deleted, Entry.edited, Entry.array]

-- The changes from the right value to the left one are the mirrored changes from the left to the
-- right, in another order, and on their paths stand the keys of the other side. And the order of
-- the entries within either value only decides on the order of the changes.
theorem changes_mirror_and_permute {left right : Value} (hleft : left.Nested)
    (hright : right.Nested) :
    (∃ cs, cs.Perm ((structuralDiff left right).map Change.mirrored) ∧
      List.Forall₂ Change.SameButSpelling cs (structuralDiff right left)) ∧
    ∀ left' right', left.Reordered left' → right.Reordered right' →
      ∃ cs, cs.Perm (structuralDiff left right) ∧
        List.Forall₂ Change.SameButOrder cs (structuralDiff left' right') := by
  refine ⟨?_, fun left' right' hleft' hright' => ?_⟩
  · have hswapped := Change.rel_between_swapped hleft hright (Value.forall₂_sameKey_refl [])
    rw [Multiset.map_coe] at hswapped
    exact Change.exists_perm_of_rel hswapped
  · exact Change.exists_perm_of_rel (Change.rel_between_reordered hleft' hright' hleft hright [])

-- The sides name one key differently and have it at different places.
theorem changes_of_swapped_records :
    let left : Value :=
      .record [("a", .list ["x"]), (.nat 1, .record [("c", .null), ("b", "u")])]
    let left' : Value :=
      .record [(.nat 1, .record [("b", "u"), ("c", .null)]), ("a", .list ["x"])]
    let right : Value :=
      .record [(.bool true, .record [("b", "v")]), ("a", .list ["x", "y"])]
    left.Nested ∧ right.Nested ∧ left.Reordered left' ∧
      (∃ cs, cs.Perm [.removedItem ["a"] 1 "y", .addedKey [.nat 1] "c" .null,
          .edited [.nat 1, "b"] "v" "u"] ∧
        List.Forall₂ Change.SameButSpelling cs [.edited [.bool true, "b"] "v" "u",
          .addedKey [.bool true] "c" .null, .removedItem ["a"] 1 "y"]) ∧
      ∃ cs, cs.Perm [.addedItem ["a"] 1 "y", .removedKey [.nat 1] "c" .null,
          .edited [.nat 1, "b"] "u" "v"] ∧
        List.Forall₂ Change.SameButOrder cs [.edited [.nat 1, "b"] "u" "v",
          .removedKey [.nat 1] "c" .null, .addedItem ["a"] 1 "y"] := by
  intro left left' right
  have hleft : left.Nested := by
    simp [left, Value.Nested, Value.NestedEntries, Value.NestedItems, Value.distinctKeys_cons,
      Value.IsKey, Value.unhashablePart?, Value.nat, Value.int, Value.equal, Value.text?]
  have hright : right.Nested := by
    simp [right, Value.Nested, Value.NestedEntries, Value.NestedItems, Value.distinctKeys_cons,
      Value.IsKey, Value.unhashablePart?, Value.equal, Value.number?]
  have hinner : Value.Reordered (.record [("c", .null), ("b", "u")])
      (.record [("b", "u"), ("c", .null)]) :=
    .records (Value.reorderedEntries_refl (by simp [Value.Nested])) (.swap _ _ _)
  have hordered : left.Reordered left' :=
    .records (.cons "a" (Value.reordered_refl (by simp [Value.Nested, Value.NestedItems]))
      (.cons (.nat 1) hinner .nil)) (.swap _ _ _)
  obtain ⟨hmirrored, hreordered⟩ := changes_mirror_and_permute hleft hright
  exact ⟨hleft, hright, hordered, hmirrored,
    hreordered left' right hordered (Value.reordered_refl hright)⟩

end MarkupDiff
