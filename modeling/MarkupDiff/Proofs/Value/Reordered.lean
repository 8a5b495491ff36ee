import MarkupDiff.Proofs.Value.Equality
import Mathlib.Data.Multiset.Bind

namespace MarkupDiff.Value

mutual

-- The same value, but for the order of the entries of records at any depth.
inductive Reordered : Value → Value → Prop
  | records {es gs fs : List (Value × Value)} (h : ReorderedEntries es gs) (hperm : gs.Perm fs) :
      Reordered (record es) (record fs)
  | lists {xs ys : List Value} (h : ReorderedItems xs ys) : Reordered (list xs) (list ys)
  | tuples {xs ys : List Value} (h : ReorderedItems xs ys) : Reordered (tuple xs) (tuple ys)
  | atom {v : Value} (hv : v.IsAtom) : Reordered v v

inductive ReorderedItems : List Value → List Value → Prop
  | nil : ReorderedItems [] []
  | cons {x y : Value} {xs ys : List Value} (hxy : Reordered x y) (h : ReorderedItems xs ys) :
      ReorderedItems (x :: xs) (y :: ys)

inductive ReorderedEntries : List (Value × Value) → List (Value × Value) → Prop
  | nil : ReorderedEntries [] []
  | cons (k : Value) {v w : Value} {es fs : List (Value × Value)} (hvw : Reordered v w)
      (h : ReorderedEntries es fs) : ReorderedEntries ((k, v) :: es) ((k, w) :: fs)

end

-- Entries under one key, with values that are the same but for the order of entries.
def EntryReordered (e f : Value × Value) : Prop :=
  e.1 = f.1 ∧ e.2.Reordered f.2

theorem ReorderedEntries.rel {es gs fs : List (Value × Value)} (h : ReorderedEntries es gs)
    (hperm : gs.Perm fs) : Multiset.Rel EntryReordered es fs := by
  rw [← Multiset.coe_eq_coe.mpr hperm]
  clear hperm
  induction es generalizing gs with
  | nil =>
    cases h
    exact .zero
  | cons e es ih =>
    cases h with
    | cons k hvw h => exact .cons ⟨rfl, hvw⟩ (ih h)

theorem ReorderedItems.forall₂ {xs ys : List Value} (h : ReorderedItems xs ys) :
    List.Forall₂ Reordered xs ys := by
  induction xs generalizing ys with
  | nil =>
    cases h
    exact .nil
  | cons x xs ih =>
    cases h with
    | cons hxy h => exact .cons hxy (ih h)

theorem ReorderedEntries.map_fst {es gs : List (Value × Value)} (h : ReorderedEntries es gs) :
    es.map (·.1) = gs.map (·.1) := by
  induction es generalizing gs with
  | nil =>
    cases h
    rfl
  | cons e es ih =>
    cases h with
    | cons k _ h => rw [List.map_cons, List.map_cons, ih h]

theorem distinctKeys_iff_nodup {es : List (Value × Value)} :
    DistinctKeys es ↔ (∀ e ∈ es, e.1.IsKey) ∧ (es.map (·.1.form)).Nodup := by
  refine ⟨fun h => ⟨h.isKey, h.nodup⟩, fun ⟨hkey, hnodup⟩ => ⟨hkey, ?_⟩⟩
  refine (List.pairwise_map.mp hnodup).imp_of_mem fun he hf hne => ?_
  rw [← Bool.not_eq_true, equal_iff_form_eq (hkey _ he) (hkey _ hf)]
  exact hne

theorem DistinctKeys.perm {es fs : List (Value × Value)} (h : DistinctKeys es)
    (hperm : es.Perm fs) : DistinctKeys fs := by
  rw [distinctKeys_iff_nodup] at h ⊢
  exact ⟨fun e he => h.1 e (hperm.mem_iff.mpr he), (hperm.map _).nodup_iff.mp h.2⟩

mutual

theorem Reordered.nested {v w : Value} (h : v.Reordered w) (hv : v.Nested) : w.Nested := by
  match h with
  | .records h hperm =>
    obtain ⟨hes, hnested⟩ := nested_record.mp hv
    refine nested_record.mpr ⟨(hes.congr h.map_fst).perm hperm, fun f hf => ?_⟩
    exact h.nested hnested f (hperm.mem_iff.mpr hf)
  | .lists h => exact nested_list.mpr (h.nested (nested_list.mp hv))
  | .tuples h => exact nestedItems_iff.mpr (h.nested (nestedItems_iff.mp hv))
  | .atom _ => exact hv

theorem ReorderedItems.nested {xs ys : List Value} (h : ReorderedItems xs ys)
    (hxs : ∀ x ∈ xs, x.Nested) : ∀ y ∈ ys, y.Nested := by
  match h with
  | .nil => exact hxs
  | .cons hxy h =>
    rw [List.forall_mem_cons] at hxs ⊢
    exact ⟨hxy.nested hxs.1, h.nested hxs.2⟩

theorem ReorderedEntries.nested {es fs : List (Value × Value)} (h : ReorderedEntries es fs)
    (hes : ∀ e ∈ es, e.2.Nested) : ∀ f ∈ fs, f.2.Nested := by
  match h with
  | .nil => exact hes
  | .cons _ hvw h =>
    rw [List.forall_mem_cons] at hes ⊢
    exact ⟨hvw.nested hes.1, h.nested hes.2⟩

end

mutual

-- The order of entries does not count where values are compared.
theorem Reordered.equal {v w : Value} (h : v.Reordered w) (hv : v.Nested) :
    v.equal w = true := by
  match h with
  | .records h hperm =>
    obtain ⟨hes, hnested⟩ := nested_record.mp hv
    have hfs := (hes.congr h.map_fst).perm hperm
    have hlength := congrArg List.length h.map_fst
    rw [List.length_map, List.length_map, hperm.length_eq] at hlength
    rw [Value.equal, Bool.and_eq_true, beq_iff_eq, equalEntries_iff]
    refine ⟨hlength, fun e he => ?_⟩
    obtain ⟨f, hf, hkey, hequal⟩ := h.equal hnested e he
    exact ⟨f.2, hkey ▸ hfs.lookup_of_mem (hperm.mem_iff.mp hf), hequal⟩
  | .lists h => exact h.equal (nestedItems_iff.mp hv)
  | .tuples h => exact h.equal (nestedItems_iff.mp hv)
  | .atom _ => exact equal_self hv

theorem ReorderedItems.equal {xs ys : List Value} (h : ReorderedItems xs ys)
    (hxs : ∀ x ∈ xs, x.Nested) : equalItems xs ys = true := by
  match h with
  | .nil => rfl
  | .cons hxy h =>
    rw [List.forall_mem_cons] at hxs
    rw [equalItems, hxy.equal hxs.1, h.equal hxs.2, Bool.and_true]

theorem ReorderedEntries.equal {es fs : List (Value × Value)} (h : ReorderedEntries es fs)
    (hes : ∀ e ∈ es, e.2.Nested) :
    ∀ e ∈ es, ∃ f ∈ fs, e.1 = f.1 ∧ e.2.equal f.2 = true := by
  match h with
  | .nil => simp
  | .cons k hvw h =>
    rw [List.forall_mem_cons] at hes ⊢
    refine ⟨⟨_, List.mem_cons_self, rfl, hvw.equal hes.1⟩, fun e he => ?_⟩
    obtain ⟨f, hf, hef⟩ := h.equal hes.2 e he
    exact ⟨f, List.mem_cons_of_mem _ hf, hef⟩

end

mutual

theorem reordered_refl {v : Value} (hv : v.Nested) : v.Reordered v := by
  match v with
  | record es => exact .records (reorderedEntries_refl (nested_record.mp hv).2) (.refl _)
  | list xs => exact .lists (reorderedItems_refl (nestedItems_iff.mp hv))
  | tuple xs => exact .tuples (reorderedItems_refl (nestedItems_iff.mp hv))
  | owner => exact absurd hv id
  | null | bool _ | num _ | text _ | markup _ | bytes _ | set _ | selfRendering _ _ | failing _ _
  | template _ _ | options _ => exact .atom trivial
termination_by sizeOf v

theorem reorderedItems_refl {xs : List Value} (h : ∀ x ∈ xs, x.Nested) :
    ReorderedItems xs xs := by
  match xs with
  | [] => exact .nil
  | x :: xs =>
    rw [List.forall_mem_cons] at h
    exact .cons (reordered_refl h.1) (reorderedItems_refl h.2)
termination_by sizeOf xs

theorem reorderedEntries_refl {es : List (Value × Value)} (h : ∀ e ∈ es, e.2.Nested) :
    ReorderedEntries es es := by
  match es with
  | [] => exact .nil
  | (k, v) :: es =>
    rw [List.forall_mem_cons] at h
    exact .cons k (reordered_refl h.1) (reorderedEntries_refl h.2)
termination_by sizeOf es

end

-- Records with the same keys in another order have the same keys missing.
theorem isNone_lookup_of_rel {es fs : List (Value × Value)} {k : Value}
    (h : Multiset.Rel EntryReordered es fs) : (lookup k es).isNone = (lookup k fs).isNone := by
  rw [Bool.eq_iff_iff, Option.isNone_iff_eq_none, Option.isNone_iff_eq_none, lookup_eq_none_iff,
    lookup_eq_none_iff]
  constructor
  · intro hnone f hf
    obtain ⟨e, he, hkey, -⟩ := Multiset.exists_mem_of_rel_of_mem (Multiset.rel_flip.mpr h) hf
    exact hkey ▸ hnone e he
  · intro hnone e he
    obtain ⟨f, hf, hkey, -⟩ := Multiset.exists_mem_of_rel_of_mem h he
    exact hkey ▸ hnone f hf

theorem Reordered.alike_iff {v w v' w' : Value} (hv : v.Reordered v') (hw : w.Reordered w') :
    v.Alike w ↔ v'.Alike w' := by
  cases hv with
  | atom => cases hw <;> cases v <;> exact Iff.rfl
  | _ => cases hw with
    | atom => cases w <;> exact Iff.rfl
    | _ => exact Iff.rfl

-- Whether two values are equal does not depend on the order of their entries.
theorem Reordered.equal_congr {v w v' w' : Value} (hv : v.Reordered v') (hw : w.Reordered w')
    (hvn : v.Nested) (hwn : w.Nested) : v.equal w = v'.equal w' := by
  have hvn' := hv.nested hvn
  have hwn' := hw.nested hwn
  have hback : v'.equal v = true := equal_symm hvn hvn' (hv.equal hvn)
  have hback' : w'.equal w = true := equal_symm hwn hwn' (hw.equal hwn)
  rw [Bool.eq_iff_iff]
  constructor
  · intro h
    exact equal_trans hvn' hvn hwn' hback (equal_trans hvn hwn hwn' h (hw.equal hwn))
  · intro h
    exact equal_trans hvn hvn' hwn (hv.equal hvn) (equal_trans hvn' hwn' hwn h hback')

end MarkupDiff.Value
