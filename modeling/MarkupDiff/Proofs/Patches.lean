import MarkupDiff.Proofs.Difference.Patch

namespace MarkupDiff

-- The changes between nested data are a patch: applied in any order that takes the items of each
-- list out from the last one on and puts them in from the first one on, they lead from the left
-- value to one that equals the right value. There is such an order. There are no changes exactly
-- between equal values, and none is missed where both sides share an object.
theorem structuralDiff_is_patch {left right : Value} (hleft : left.Nested)
    (hright : right.Nested) :
    (∀ cs : List Change, cs.Perm (structuralDiff left right) → cs.Pairwise Change.MayPrecede →
      ∃ v, Change.appliedAll cs left = .ok v ∧ v.equal right = true) ∧
    (∃ cs : List Change, cs.Perm (structuralDiff left right) ∧ cs.Pairwise Change.MayPrecede) ∧
    (structuralDiff left right = [] ↔ left.equal right = true) ∧
    ∀ same : Path → Value → Value → Bool, (∀ path v w, same path v w = true → v = w) →
      Change.betweenSharing same [] left right = structuralDiff left right :=
  ⟨fun _ => Change.exists_appliedAll_equal hleft hright, Change.exists_ordered _,
    Change.between_eq_nil_iff hleft hright [],
    fun _ hsame => Change.betweenSharing_eq hsame hleft hright []⟩

-- Two items go, an entry is edited under a key that counts as the same, and two entries are new.
theorem patch_of_record :
    let left : Value := .record [("a", .list [.nat 1, .nat 2, .nat 3]), (.bool true, "x")]
    let right : Value := .record [(.nat 1, "y"), ("b", .tuple [.null]), ("a", .list [.nat 1])]
    ∃ cs v, cs.Perm (structuralDiff left right) ∧ Change.appliedAll cs left = .ok v ∧
      v.equal right = true := by
  intro left right
  have hleft : left.Nested := by
    refine Value.nested_record.mpr ⟨⟨?_, ?_⟩, ?_⟩
    · simp [Value.IsKey, Value.unhashablePart?]
    · simp [Value.equal, Value.text?]
    · simp [Value.Nested, Value.NestedItems, Value.nat, Value.int]
  have hright : right.Nested := by
    refine Value.nested_record.mpr ⟨⟨?_, ?_⟩, ?_⟩
    · simp [Value.IsKey, Value.unhashablePart?, Value.nat, Value.int]
    · simp [Value.equal, Value.text?, Value.nat, Value.int, Value.number?]
    · simp [Value.Nested, Value.NestedItems, Value.nat, Value.int]
  obtain ⟨hpatch, ⟨cs, hperm, horder⟩, -, -⟩ := structuralDiff_is_patch hleft hright
  obtain ⟨v, hall, hequal⟩ := hpatch cs hperm horder
  exact ⟨cs, v, hperm, hall, hequal⟩

end MarkupDiff
