import MarkupDiff.Difference.Change

namespace MarkupDiff.Change

variable {ignore : Path → Value → Bool} {path : Path}

theorem mem_surplus {change : Nat → Value → Change} {start : Nat} {items : List Value}
    {c : Change} :
    c ∈ surplus change start items ↔ ∃ j v, items[j]? = some v ∧ c = change (start + j) v := by
  simp only [surplus, List.mem_map, Prod.exists]
  constructor
  · rintro ⟨v, i, hmem, rfl⟩
    obtain ⟨j, rfl⟩ := Nat.exists_eq_add_of_le (List.le_snd_of_mem_zipIdx hmem)
    exact ⟨j, v, by simpa using List.mk_add_mem_zipIdx_iff_getElem?.mp hmem, rfl⟩
  · rintro ⟨j, v, hj, rfl⟩
    exact ⟨v, start + j, List.mk_add_mem_zipIdx_iff_getElem?.mpr hj, rfl⟩

-- The changes between two lists: those between items that both have, and one for each item that
-- only the longer one has.
theorem mem_inItems {i : Nat} {xs ys : List Value} {c : Change} :
    c ∈ inItems ignore path i xs ys ↔
      (∃ j x y, xs[j]? = some x ∧ ys[j]? = some y ∧
        c ∈ between ignore (path ++ [.nat (i + j)]) x y) ∨
      (∃ j x, ys.length ≤ j ∧ xs[j]? = some x ∧ c = .removedItem path (i + j) x) ∨
      (∃ j y, xs.length ≤ j ∧ ys[j]? = some y ∧ c = .addedItem path (i + j) y) := by
  induction xs generalizing i ys with
  | nil => simp [inItems, mem_surplus]
  | cons x xs ih =>
    cases ys with
    | nil => simp [inItems, mem_surplus]
    | cons y ys =>
      have hnext : ∀ j, i + (j + 1) = i + 1 + j := fun j => by omega
      rw [inItems, List.mem_append, ih]
      constructor
      · rintro (hc | ⟨j, v, w, hv, hw, hc⟩ | ⟨j, v, hj, hv, rfl⟩ | ⟨j, w, hj, hw, rfl⟩)
        · exact .inl ⟨0, x, y, rfl, rfl, hc⟩
        · exact .inl ⟨j + 1, v, w, hv, hw, hnext j ▸ hc⟩
        · exact .inr (.inl ⟨j + 1, v, Nat.succ_le_succ hj, hv, by rw [← hnext]⟩)
        · exact .inr (.inr ⟨j + 1, w, Nat.succ_le_succ hj, hw, by rw [← hnext]⟩)
      · rintro (⟨j, v, w, hv, hw, hc⟩ | ⟨j, v, hj, hv, rfl⟩ | ⟨j, w, hj, hw, rfl⟩)
        · cases j with
          | zero =>
            obtain rfl : x = v := Option.some.inj hv
            obtain rfl : y = w := Option.some.inj hw
            exact .inl hc
          | succ j => exact .inr (.inl ⟨j, v, w, hv, hw, hnext j ▸ hc⟩)
        · cases j with
          | zero => exact absurd hj (by simp)
          | succ j => exact .inr (.inr (.inl ⟨j, v, Nat.le_of_succ_le_succ hj, hv, by rw [hnext]⟩))
        · cases j with
          | zero => exact absurd hj (by simp)
          | succ j => exact .inr (.inr (.inr ⟨j, w, Nat.le_of_succ_le_succ hj, hw, by rw [hnext]⟩))

end MarkupDiff.Change
