import MarkupDiff.Proofs.Difference.Agreement
import MarkupDiff.Proofs.Difference.Membership
import MarkupDiff.Proofs.Place.Item

namespace MarkupDiff

open Value (DistinctKeys lookup)

-- Taking one more step at the end of a path.
theorem Place.follow_concat (p : Place) (path : Path) (s : Value) :
    p.follow (path ++ [s]) = (p.follow path).bind fun q => q.item s := by
  induction path generalizing p with
  | nil =>
    change (p.item s).bind Except.ok = p.item s
    cases p.item s <;> rfl
  | cons t path ih =>
    rw [List.cons_append, follow, follow]
    cases p.item t with
    | error fault => rfl
    | ok next => exact ih next

namespace Value

-- A path leads from a value to what stands at its end.
def Holds (v : Value) (path : Path) (w : Value) : Prop :=
  ∃ p, (Place.root v).follow path = .ok p ∧ p.focus = w

variable {v x : Value} {path : Path}

theorem holds_nil (v : Value) : v.Holds [] v :=
  ⟨.root v, rfl, rfl⟩

theorem Holds.entry {es : List (Value × Value)} {k : Value} (h : v.Holds path (.record es))
    (hk : k.IsKey) (hx : lookup k es = some x) (howner : x ≠ .owner) :
    v.Holds (path ++ [k]) x := by
  obtain ⟨⟨_, above⟩, hfollow, rfl⟩ := h
  refine ⟨⟨x, ⟨.record es, k⟩ :: above⟩, ?_, rfl⟩
  rw [Place.follow_concat, hfollow]
  exact Place.item_key hk hx howner above

theorem Holds.item {xs : List Value} {i : Nat} (h : v.Holds path (.list xs))
    (hx : xs[i]? = some x) : v.Holds (path ++ [.nat i]) x := by
  obtain ⟨⟨_, above⟩, hfollow, rfl⟩ := h
  refine ⟨⟨x, ⟨.list xs, .nat i⟩ :: above⟩, ?_, rfl⟩
  rw [Place.follow_concat, hfollow]
  exact Place.item_nat hx above

end Value

namespace Change

-- Where a walk through two values comes to on both sides: it goes on from two records under a key
-- of both, and from two lists at an index of both.
inductive Meets (left right : Value) : Path → Value → Value → Prop
  | whole : Meets left right [] left right
  | entry {path : Path} {es fs : List (Value × Value)} {k v w : Value}
      (h : Meets left right path (.record es) (.record fs)) (hv : (k, v) ∈ es)
      (hw : lookup k fs = some w) : Meets left right (path ++ [k]) v w
  | item {path : Path} {xs ys : List Value} {i : Nat} {v w : Value}
      (h : Meets left right path (.list xs) (.list ys)) (hv : xs[i]? = some v)
      (hw : ys[i]? = some w) : Meets left right (path ++ [.nat i]) v w

-- What a change tells of two values is so. What is edited stands on both sides and differs. What is
-- removed or added stands on one side, and its key or index is missing on the other one.
inductive Accurate (left right : Value) : Change → Prop
  | edited {path : Path} {v w : Value} (hv : left.Holds path v) (hw : right.Holds path w)
      (hne : v.equal w = false) (hkinds : ¬v.Alike w) : Accurate left right (.edited path v w)
  | removedKey {path : Path} {k v : Value} {fs : List (Value × Value)}
      (hv : left.Holds (path ++ [k]) v) (hfs : right.Holds path (.record fs))
      (hnone : lookup k fs = none) : Accurate left right (.removedKey path k v)
  | addedKey {path : Path} {k w : Value} {es : List (Value × Value)}
      (hw : right.Holds (path ++ [k]) w) (hes : left.Holds path (.record es))
      (hnone : lookup k es = none) : Accurate left right (.addedKey path k w)
  | removedItem {path : Path} {i : Nat} {v : Value} {xs ys : List Value}
      (hmeets : Meets left right path (.list xs) (.list ys)) (hxs : left.Holds path (.list xs))
      (hys : right.Holds path (.list ys)) (hv : xs[i]? = some v) (hi : ys.length ≤ i) :
      Accurate left right (.removedItem path i v)
  | addedItem {path : Path} {i : Nat} {w : Value} {xs ys : List Value}
      (hmeets : Meets left right path (.list xs) (.list ys)) (hxs : left.Holds path (.list xs))
      (hys : right.Holds path (.list ys)) (hw : ys[i]? = some w) (hi : xs.length ≤ i) :
      Accurate left right (.addedItem path i w)

variable {left right : Value}

theorem Meets.nested {path : Path} {v w : Value} (h : Meets left right path v w)
    (hleft : left.Nested) (hright : right.Nested) : v.Nested ∧ w.Nested := by
  induction h with
  | whole => exact ⟨hleft, hright⟩
  | entry _ hv hw ih =>
    obtain ⟨k', hmem, _⟩ := Value.exists_mem_of_lookup hw
    exact ⟨(Value.nested_record.mp ih.1).2 _ hv, (Value.nested_record.mp ih.2).2 _ hmem⟩
  | item _ hv hw ih =>
    exact ⟨Value.nested_list.mp ih.1 _ (List.mem_of_getElem? hv),
      Value.nested_list.mp ih.2 _ (List.mem_of_getElem? hw)⟩

-- The path to where the walk comes leads there from both sides.
theorem Meets.holds {path : Path} {v w : Value} (h : Meets left right path v w)
    (hleft : left.Nested) (hright : right.Nested) :
    left.Holds path v ∧ right.Holds path w := by
  induction h with
  | whole => exact ⟨Value.holds_nil _, Value.holds_nil _⟩
  | entry h hv hw ih =>
    obtain ⟨hes, -⟩ := h.nested hleft hright
    have hkeys := (Value.nested_record.mp hes).1
    obtain ⟨hvn, hwn⟩ := (h.entry hv hw).nested hleft hright
    have hk := hkeys.isKey _ hv
    exact ⟨ih.1.entry hk (hkeys.lookup_of_mem hv) hvn.ne_owner, ih.2.entry hk hw hwn.ne_owner⟩
  | item _ hv hw ih => exact ⟨ih.1.item hv, ih.2.item hw⟩

-- A change that is found from where the walk has come tells what is so.
theorem accurate_of_meets (hleft : left.Nested) (hright : right.Nested) {path : Path}
    {v w : Value} (h : Meets left right path v w) {c : Change}
    (hc : c ∈ between ignoringNothing path v w) : c.Accurate left right := by
  obtain ⟨hv, hw⟩ := h.holds hleft hright
  obtain ⟨hvn, hwn⟩ := h.nested hleft hright
  by_cases halike : v.Alike w
  · obtain ⟨es, fs, rfl, rfl⟩ | ⟨xs, ys, rfl, rfl⟩ := halike.cases
    · have hes := Value.nested_record.mp hvn
      have hfs := Value.nested_record.mp hwn
      rw [between, inEntries_eq_flatMap] at hc
      rcases List.mem_append.mp hc with hc | hc
      · obtain ⟨⟨k, x⟩, hmem, hentry⟩ := List.mem_flatMap.mp hc
        have hlt : sizeOf x < sizeOf (Value.record es) := Value.sizeOf_lt_record hmem
        cases hlookup : lookup k fs with
        | some y =>
          rw [inEntry_of_some (e := (k, x)) hlookup] at hentry
          exact accurate_of_meets hleft hright (h.entry hmem hlookup) hentry
        | none =>
          rw [inEntry_of_none (e := (k, x)) hlookup] at hentry
          obtain rfl := List.mem_singleton.mp hentry
          exact .removedKey (hv.entry (hes.1.isKey _ hmem) (hes.1.lookup_of_mem hmem)
            (hes.2 _ hmem).ne_owner) hw hlookup
      · obtain ⟨⟨k, y⟩, hmem, hlookup, rfl⟩ := mem_foreign.mp hc
        exact .addedKey (hw.entry (hfs.1.isKey _ hmem) (hfs.1.lookup_of_mem hmem)
          (hfs.2 _ hmem).ne_owner) hv hlookup
    · rw [between] at hc
      rcases mem_inItems.mp hc with ⟨j, x, y, hx, hy, hitem⟩ | ⟨j, x, hj, hx, rfl⟩ |
        ⟨j, y, hj, hy, rfl⟩
      · have hlt : sizeOf x < sizeOf (Value.list xs) := Value.sizeOf_lt_list hx
        rw [Nat.zero_add] at hitem
        exact accurate_of_meets hleft hright (h.item hx hy) hitem
      · rw [Nat.zero_add]
        exact .removedItem h hv hw hx hj
      · rw [Nat.zero_add]
        exact .addedItem h hv hw hy hj
  · rw [between_of_not_alike halike] at hc
    split at hc
    · exact absurd hc List.not_mem_nil
    · rename_i hne
      obtain rfl := List.mem_singleton.mp hc
      exact .edited hv hw (Bool.not_eq_true _ ▸ hne) halike
termination_by sizeOf v

-- What is found from where the walk has come is found by the whole walk.
theorem Meets.subset {path : Path} {v w : Value} (h : Meets left right path v w) :
    between ignoringNothing path v w ⊆ structuralDiff left right := by
  induction h with
  | whole => exact fun _ hc => hc
  | @entry path es fs k v w _ hv hw ih =>
    intro c hc
    apply ih
    rw [between, inEntries_eq_flatMap]
    apply List.mem_append_left
    exact List.mem_flatMap.mpr ⟨(k, v), hv, by rwa [inEntry_of_some (e := (k, v)) hw]⟩
  | @item path xs ys i v w _ hv hw ih =>
    intro c hc
    apply ih
    rw [between]
    exact mem_inItems.mpr (.inl ⟨i, v, w, hv, hw, by rwa [Nat.zero_add]⟩)

-- The change is about the item at an index of the list at the end of a path.
inductive AtItem (path : Path) (i : Nat) : Change → Prop
  | removed (v : Value) : AtItem path i (.removedItem path i v)
  | added (w : Value) : AtItem path i (.addedItem path i w)

theorem AtItem.fullPath_eq {path : Path} {i : Nat} {c : Change} (h : c.AtItem path i) :
    c.fullPath = path ++ [.nat i] := by
  cases h <;> rfl

-- Each item that only the longer one of two lists has is told of.
theorem exists_atItem {path : Path} {xs ys : List Value}
    (h : Meets left right path (.list xs) (.list ys)) {i : Nat}
    (hmin : min xs.length ys.length ≤ i) (hmax : i < max xs.length ys.length) :
    ∃ c ∈ structuralDiff left right, c.AtItem path i := by
  rcases Nat.lt_or_ge i xs.length with hlt | hge
  · have hi : ys.length ≤ i := by omega
    refine ⟨.removedItem path i xs[i], h.subset ?_, .removed _⟩
    rw [between]
    exact mem_inItems.mpr (.inr (.inl ⟨i, _, hi, List.getElem?_eq_getElem hlt, by simp⟩))
  · have hlt : i < ys.length := by omega
    refine ⟨.addedItem path i ys[i], h.subset ?_, .added _⟩
    rw [between]
    exact mem_inItems.mpr (.inr (.inr ⟨i, _, hge, List.getElem?_eq_getElem hlt, by simp⟩))

end Change

end MarkupDiff
