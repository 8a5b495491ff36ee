import MarkupDiff.Proofs.Difference.Corresponding
import MarkupDiff.Proofs.Difference.Mirrored
import MarkupDiff.Proofs.Difference.Remainder

namespace MarkupDiff.Change

open Value (SameKey)

-- Two changes that differ in the spelling of the keys on their paths only.
abbrev SameButSpelling : Change → Change → Prop :=
  Corresponds (List.Forall₂ SameKey) Eq

theorem map_unmatched (g : Change → Change) (change : Value → Value → Change)
    (others : List (Value × Value)) (e : Value × Value) :
    (unmatched change others e).map g = unmatched (fun k v => g (change k v)) others e := by
  rw [unmatched, unmatched]
  split <;> rfl

theorem map_surplus (g : Change → Change) (change : Nat → Value → Change) (i : Nat)
    (items : List Value) :
    (surplus change i items).map g = surplus (fun i v => g (change i v)) i items := by
  rw [surplus, surplus, List.map_map]
  rfl

-- An entry that only one record has is reported in both directions.
theorem rel_map_unmatched (change change' : Value → Value → Change)
    (hchange : ∀ k v, (change k v).mirrored.SameButSpelling (change' k v))
    (es others : List (Value × Value)) :
    Multiset.Rel SameButSpelling
      (((es : Multiset (Value × Value)).bind fun e => unmatched change others e).map mirrored)
      ((es : Multiset (Value × Value)).bind fun e => unmatched change' others e) := by
  rw [Multiset.map_bind]
  refine Multiset.rel_bind (fun e f hef => ?_) Multiset.rel_eq_refl
  subst hef
  rw [Multiset.map_coe, map_unmatched]
  exact rel_unmatched rfl (hchange e.1 e.2)

theorem rel_map_surplus (change change' : Nat → Value → Change)
    (hchange : ∀ i v, (change i v).mirrored.SameButSpelling (change' i v)) (i : Nat)
    (items : List Value) :
    Multiset.Rel SameButSpelling ((surplus change i items : Multiset Change).map mirrored)
      (surplus change' i items) := by
  rw [Multiset.map_coe, map_surplus]
  refine rel_surplus (fun i x y hxy => ?_) (List.forall₂_same.mpr fun _ _ => rfl) i
  subst hxy
  exact hchange i x

mutual

-- The walk from the other side comes to the mirrored changes, in an order of its own. It takes the
-- sums over the entries of two records the other way round, and finds under a key what the first
-- walk finds under an equal one.
theorem rel_between_swapped {v w : Value} (hv : v.Nested) (hw : w.Nested) {p q : Path}
    (hpath : List.Forall₂ SameKey p q) :
    Multiset.Rel SameButSpelling ((between ignoringNothing p v w : Multiset Change).map mirrored)
      (between ignoringNothing q w v) := by
  by_cases halike : v.Alike w
  · obtain ⟨es, fs, rfl, rfl⟩ | ⟨xs, ys, rfl, rfl⟩ := halike.cases
    · rw [Value.nested_record] at hv hw
      rw [coe_between_record hv.1.isKey hw.1, coe_between_record hw.1.isKey hv.1,
        Multiset.map_add, Multiset.map_add,
        Multiset.bind_bind (fs : Multiset (Value × Value)) (es : Multiset (Value × Value)),
        add_comm (Multiset.bind (fs : Multiset (Value × Value)) _)]
      refine .add ?_ (.add ?_ ?_)
      · rw [Multiset.map_bind]
        refine Multiset.rel_bind (r := fun e e' => e = e' ∧ e ∈ es) (fun e e' ⟨heq, he⟩ => ?_)
          (Multiset.rel_refl_of_refl_on fun e he => ⟨rfl, he⟩)
        subst heq
        rw [Multiset.map_bind]
        refine Multiset.rel_bind (r := fun f f' => f = f' ∧ f ∈ fs) (fun f f' ⟨heq, hf⟩ => ?_)
          (Multiset.rel_refl_of_refl_on fun f hf => ⟨rfl, hf⟩)
        subst heq
        have he' := hv.1.isKey e he
        have hf' := hw.1.isKey f hf
        by_cases hkey : e.1.equal f.1 = true
        · have hback := Value.equal_symm_of_isKey he' hf' hkey
          have hlt : sizeOf e.2 < sizeOf (Value.record es) := Value.sizeOf_lt_record he
          rw [matched, matched, if_pos hkey, if_pos hback]
          exact rel_between_swapped (hv.2 e he) (hw.2 f hf)
            (Value.forall₂_sameKey_concat hpath (.inr hkey))
        · have hback := mt (Value.equal_symm_of_isKey hf' he') hkey
          rw [matched, matched, if_neg hkey, if_neg hback]
          exact .zero
      · exact rel_map_unmatched (.removedKey p) (.addedKey q) (fun k _ => .addedKey hpath k rfl)
          es fs
      · exact rel_map_unmatched (.addedKey p) (.removedKey q) (fun k _ => .removedKey hpath k rfl)
          fs es
    · exact rel_inItems_swapped (Value.nested_list.mp hv) (Value.nested_list.mp hw) hpath 0
  · rw [between_of_not_alike halike, between_of_not_alike (mt Value.Alike.symm halike),
      Value.equal_comm hv hw]
    split
    · exact .zero
    · exact .cons (.edited hpath rfl rfl) .zero
termination_by sizeOf v

theorem rel_inItems_swapped {xs ys : List Value} (hxs : ∀ x ∈ xs, x.Nested)
    (hys : ∀ y ∈ ys, y.Nested) {p q : Path} (hpath : List.Forall₂ SameKey p q) (i : Nat) :
    Multiset.Rel SameButSpelling
      ((inItems ignoringNothing p i xs ys : Multiset Change).map mirrored)
      (inItems ignoringNothing q i ys xs) := by
  match xs, ys with
  | [], [] => exact .zero
  | [], y :: ys =>
    exact rel_map_surplus (.addedItem p) (.removedItem q) (fun i _ => .removedItem hpath i rfl)
      i (y :: ys)
  | x :: xs, [] =>
    exact rel_map_surplus (.removedItem p) (.addedItem q) (fun i _ => .addedItem hpath i rfl)
      i (x :: xs)
  | x :: xs, y :: ys =>
    rw [List.forall_mem_cons] at hxs hys
    have hitem : List.Forall₂ SameKey (p ++ [.nat i]) (q ++ [.nat i]) :=
      Value.forall₂_sameKey_concat hpath (.refl _)
    rw [inItems, inItems, ← Multiset.coe_add, ← Multiset.coe_add, Multiset.map_add]
    exact (rel_between_swapped hxs.1 hys.1 hitem).add
      (rel_inItems_swapped hxs.2 hys.2 hpath (i + 1))
termination_by sizeOf xs

end

end MarkupDiff.Change
