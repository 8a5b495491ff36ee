import MarkupDiff.Proofs.Difference.Corresponding

namespace MarkupDiff.Change

open Value (EntryReordered Reordered ReorderedItems)

-- Two changes between values that differ in the order of their entries only.
abbrev SameButOrder : Change → Change → Prop :=
  Corresponds Eq Reordered

theorem rel_unmatched_reordered {change : Value → Value → Change}
    (hchange : ∀ k v w, v.Reordered w → (change k v).SameButOrder (change k w))
    {es fs gs hs : List (Value × Value)} (hes : Multiset.Rel EntryReordered es fs)
    (hgs : Multiset.Rel EntryReordered gs hs) :
    Multiset.Rel SameButOrder ((es : Multiset (Value × Value)).bind fun e => unmatched change gs e)
      ((fs : Multiset (Value × Value)).bind fun f => unmatched change hs f) := by
  refine Multiset.rel_bind (fun e f hef => ?_) hes
  obtain ⟨k, v⟩ := e
  obtain ⟨k', w⟩ := f
  obtain ⟨rfl, hvw⟩ := hef
  exact rel_unmatched (Value.isNone_lookup_of_rel hgs) (hchange k v w hvw)

mutual

-- Reordering entries on either side permutes the changes and nothing else. The order of the
-- entries counts in no sum over them, and those under one key are compared by induction.
theorem rel_between_reordered {v w v' w' : Value} (hv : v.Reordered v') (hw : w.Reordered w')
    (hvn : v.Nested) (hwn : w.Nested) (path : Path) :
    Multiset.Rel SameButOrder (between ignoringNothing path v w)
      (between ignoringNothing path v' w') := by
  by_cases halike : v.Alike w
  · obtain ⟨es, fs, rfl, rfl⟩ | ⟨xs, ys, rfl, rfl⟩ := halike.cases
    · have hvn' := hv.nested hvn
      have hwn' := hw.nested hwn
      cases hv with
      | records hes hperm =>
        cases hw with
        | records hfs hperm' =>
          rw [Value.nested_record] at hvn hwn hvn' hwn'
          replace hes := hes.rel hperm
          replace hfs := hfs.rel hperm'
          rw [coe_between_record hvn.1.isKey hwn.1, coe_between_record hvn'.1.isKey hwn'.1]
          refine .add ?_ (.add ?_ ?_)
          · refine Multiset.rel_bind (r := fun e e' => e ∈ es ∧ EntryReordered e e')
              (fun e e' ⟨he, hkey, hvalue⟩ => ?_) (hes.mono fun e he _ _ h => ⟨he, h⟩)
            refine Multiset.rel_bind (r := fun f f' => f ∈ fs ∧ EntryReordered f f')
              (fun f f' ⟨hf, hkey', hvalue'⟩ => ?_) (hfs.mono fun f hf _ _ h => ⟨hf, h⟩)
            rw [matched, matched, ← hkey, ← hkey']
            split
            · have hlt : sizeOf e.2 < sizeOf (Value.record es) := Value.sizeOf_lt_record he
              exact rel_between_reordered hvalue hvalue' (hvn.2 e he) (hwn.2 f hf) _
            · exact .zero
          · exact rel_unmatched_reordered (fun k _ _ h => .removedKey rfl k h) hes hfs
          · exact rel_unmatched_reordered (fun k _ _ h => .addedKey rfl k h) hfs hes
        | atom h => exact absurd h id
      | atom h => exact absurd h id
    · cases hv with
      | lists hxs =>
        cases hw with
        | lists hys =>
          exact rel_inItems_reordered hxs hys (Value.nested_list.mp hvn)
            (Value.nested_list.mp hwn) path 0
        | atom h => exact absurd h id
      | atom h => exact absurd h id
  · rw [between_of_not_alike halike, between_of_not_alike (mt (hv.alike_iff hw).mpr halike),
      hv.equal_congr hw hvn hwn]
    split
    · exact .zero
    · exact .cons (.edited rfl hv hw) .zero
termination_by sizeOf v

theorem rel_inItems_reordered {xs ys xs' ys' : List Value} (hxs : ReorderedItems xs xs')
    (hys : ReorderedItems ys ys') (hxn : ∀ x ∈ xs, x.Nested) (hyn : ∀ y ∈ ys, y.Nested)
    (path : Path) (i : Nat) :
    Multiset.Rel SameButOrder (inItems ignoringNothing path i xs ys)
      (inItems ignoringNothing path i xs' ys') := by
  match hxs, hys with
  | .nil, hys => exact rel_surplus (fun i _ _ h => .addedItem rfl i h) hys.forall₂ i
  | .cons hx hxs, .nil =>
    exact rel_surplus (fun i _ _ h => .removedItem rfl i h) (ReorderedItems.cons hx hxs).forall₂ i
  | .cons hx hxs, .cons hy hys =>
    rw [List.forall_mem_cons] at hxn hyn
    rw [inItems, inItems, ← Multiset.coe_add, ← Multiset.coe_add]
    exact (rel_between_reordered hx hy hxn.1 hyn.1 _).add
      (rel_inItems_reordered hxs hys hxn.2 hyn.2 path (i + 1))
termination_by sizeOf xs

end

end MarkupDiff.Change
