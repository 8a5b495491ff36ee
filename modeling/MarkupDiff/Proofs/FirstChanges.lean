import MarkupDiff.Proofs.Difference.First

namespace MarkupDiff

-- The first change between two values is the first one that there is. Up to every step of its path
-- both sides are containers of one kind, and whatever a walk through them comes to before that step
-- is on both sides and equal, apart from what is ignored.
theorem first_change_comes_first {ignore : Path → Value → Bool} (hignore : Respects ignore)
    {left right : Value} (hleft : (left.without ignore []).Nested)
    (hright : (right.without ignore []).Nested) {c : Change} {cs : List Change}
    (hfirst : structuralDiff left right ignore = c :: cs) :
    ∀ q s rest, c.fullPath = q ++ s :: rest →
      ∃ a b, (Place.root left).follow q = .ok a ∧ (Place.root right).follow q = .ok b ∧
        Value.AgreeBefore ignore q s a.focus b.focus := by
  intro q s rest hpath
  exact Change.first_agrees hignore hleft hright hfirst hpath [] []

theorem Value.text?_eq_of_equal {v w : Value} (h : v.equal w = true) : v.text? = w.text? := by
  cases v <;> cases w <;> simp_all [equal, text?, number?]

theorem respects_ignoringParent : Respects ignoringParent := by
  intro p p' k k' _ hk
  rcases hk with rfl | hequal
  · rfl
  · rw [ignoringParent, ignoringParent, Value.isText, Value.isText, Value.text?_eq_of_equal hequal]

-- The names of two list items differ, and so do their owners, which do not count. That one more
-- key is gone comes only later.
theorem first_change_of_named_item :
    let left : Value := .record
      [("a", .list [.nat 1, .record [("parent", .nat 1), ("name", "u")]]), ("b", .null)]
    let right : Value := .record
      [("a", .list [.bool true, .record [("name", "v"), ("parent", .nat 2)]])]
    let above : Path := [.text "a", .nat 1]
    ∃ c cs a b, structuralDiff left right ignoringParent = c :: cs ∧
      c.fullPath = above ++ [.text "name"] ∧ (Place.root left).follow above = .ok a ∧
        (Place.root right).follow above = .ok b ∧
        Value.AgreeBefore ignoringParent above "name" a.focus b.focus := by
  intro left right above
  have hfirst : structuralDiff left right ignoringParent =
      [.edited (above ++ [.text "name"]) "u" "v", .removedKey [] "b" .null] := by
    rfl
  have hleft : left.without ignoringParent [] =
      .record [("a", .list [.nat 1, .record [("name", "u")]]), ("b", .null)] := by
    rfl
  have hright : right.without ignoringParent [] =
      .record [("a", .list [.bool true, .record [("name", "v")]])] := by
    rfl
  have hkeys : ∀ s : String, Value.DistinctKeys [("name", .text s)] := fun s =>
    ⟨by simp [Value.IsKey, Value.unhashablePart?], by simp⟩
  have hleftNested : (left.without ignoringParent []).Nested := by
    rw [hleft]
    refine Value.nested_record.mpr ⟨⟨?_, ?_⟩, ?_⟩
    · simp [Value.IsKey, Value.unhashablePart?]
    · simp [Value.equal, Value.text?]
    · simp [Value.Nested, Value.NestedItems, Value.NestedEntries, hkeys, Value.nat, Value.int]
  have hrightNested : (right.without ignoringParent []).Nested := by
    rw [hright]
    refine Value.nested_record.mpr ⟨⟨?_, ?_⟩, ?_⟩
    · simp [Value.IsKey, Value.unhashablePart?]
    · simp
    · simp [Value.Nested, Value.NestedItems, Value.NestedEntries, hkeys]
  obtain ⟨a, b, ha, hb, hagree⟩ := first_change_comes_first respects_ignoringParent hleftNested
    hrightNested hfirst above "name" [] rfl
  exact ⟨_, _, a, b, hfirst, rfl, ha, hb, hagree⟩

end MarkupDiff
