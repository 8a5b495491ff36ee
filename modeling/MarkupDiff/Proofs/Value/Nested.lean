import MarkupDiff.Proofs.Value.Form
import Mathlib.Data.List.Nodup

namespace MarkupDiff.Value

-- Entries under keys, no two of which are equal.
structure DistinctKeys (es : List (Value × Value)) : Prop where
  isKey : ∀ e ∈ es, e.1.IsKey
  pairwise : es.Pairwise fun e f => e.1.equal f.1 = false

mutual

-- Nested data without a way back: records, lists and scalars, and records have distinct keys.
def Nested : Value → Prop
  | record es => DistinctKeys es ∧ NestedEntries es
  | list xs => NestedItems xs
  | tuple xs => NestedItems xs
  | owner => False
  | _ => True

def NestedItems : List Value → Prop
  | [] => True
  | x :: xs => Nested x ∧ NestedItems xs

def NestedEntries : List (Value × Value) → Prop
  | [] => True
  | (_, v) :: es => Nested v ∧ NestedEntries es

end

theorem nestedItems_iff {xs : List Value} : NestedItems xs ↔ ∀ x ∈ xs, x.Nested := by
  induction xs with
  | nil => simp [NestedItems]
  | cons x xs ih => simp [NestedItems, ih]

theorem nestedEntries_iff {es : List (Value × Value)} :
    NestedEntries es ↔ ∀ e ∈ es, e.2.Nested := by
  induction es with
  | nil => simp [NestedEntries]
  | cons e es ih => simp [NestedEntries, ih]

theorem nested_list {xs : List Value} : (list xs).Nested ↔ ∀ x ∈ xs, x.Nested := by
  rw [Nested, nestedItems_iff]

theorem nested_record {es : List (Value × Value)} :
    (record es).Nested ↔ DistinctKeys es ∧ ∀ e ∈ es, e.2.Nested := by
  rw [Nested, nestedEntries_iff]

theorem Nested.ne_owner {v : Value} (hv : v.Nested) : v ≠ owner := by
  rintro rfl
  exact hv

section Entries

variable {es before after : List (Value × Value)} {k v w : Value}

theorem equal_eq_false_comm (hv : v.IsKey) (hw : w.IsKey) :
    v.equal w = false ↔ w.equal v = false := by
  rw [← Bool.not_eq_true, ← Bool.not_eq_true, equal_iff_form_eq hv hw, equal_iff_form_eq hw hv,
    eq_comm]

theorem DistinctKeys.nodup (h : DistinctKeys es) : (es.map (·.1.form)).Nodup := by
  rw [List.Nodup, List.pairwise_map]
  apply h.pairwise.imp_of_mem
  intro e f he hf hne heq
  rw [(equal_iff_form_eq (h.isKey e he) (h.isKey f hf)).mpr heq] at hne
  exact Bool.noConfusion hne

theorem DistinctKeys.sublist {fs : List (Value × Value)} (h : DistinctKeys es)
    (hsub : fs.Sublist es) : DistinctKeys fs :=
  ⟨fun e he => h.isKey e (hsub.subset he), h.pairwise.sublist hsub⟩

theorem DistinctKeys.congr {fs : List (Value × Value)} (h : DistinctKeys es)
    (hkeys : es.map (·.1) = fs.map (·.1)) : DistinctKeys fs := by
  have hpairwise : (es.map (·.1)).Pairwise fun k k' => k.equal k' = false :=
    List.pairwise_map.mpr h.pairwise
  refine ⟨fun f hf => ?_, ?_⟩
  · obtain ⟨e, he, hkey⟩ := List.mem_map.mp (hkeys ▸ List.mem_map_of_mem hf)
    exact hkey ▸ h.isKey e he
  · rw [hkeys] at hpairwise
    exact List.pairwise_map.mp hpairwise

theorem DistinctKeys.concat (h : DistinctKeys es) (hk : k.IsKey)
    (hnew : ∀ e ∈ es, k.equal e.1 = false) : DistinctKeys (es ++ [(k, v)]) := by
  refine ⟨fun e he => ?_, ?_⟩
  · rcases List.mem_append.mp he with he | he
    · exact h.isKey e he
    · exact List.mem_singleton.mp he ▸ hk
  · rw [List.pairwise_append]
    refine ⟨h.pairwise, List.pairwise_singleton _ _, ?_⟩
    intro e he f hf
    rw [List.mem_singleton.mp hf, equal_eq_false_comm (h.isKey e he) hk]
    exact hnew e he

-- The other keys differ from the one at a place.
theorem DistinctKeys.others (h : DistinctKeys (before ++ (k, v) :: after)) :
    (∀ e ∈ before, k.equal e.1 = false) ∧ ∀ e ∈ after, k.equal e.1 = false := by
  have hk : k.IsKey := h.isKey (k, v) (by simp)
  obtain ⟨-, hafter, hbefore⟩ := List.pairwise_append.mp h.pairwise
  constructor
  · intro e he
    rw [equal_eq_false_comm hk (h.isKey e (by simp [he]))]
    exact hbefore e he (k, v) List.mem_cons_self
  · intro e he
    exact List.rel_of_pairwise_cons hafter he

theorem find?_append_of_forall (h : ∀ e ∈ before, k.equal e.1 = false) :
    (before ++ after).find? (fun e => k.equal e.1) = after.find? fun e => k.equal e.1 := by
  rw [List.find?_append, List.find?_eq_none.mpr (by simpa using h), Option.none_or]

theorem lookup_split (h : DistinctKeys (before ++ (k, v) :: after)) :
    lookup k (before ++ (k, v) :: after) = some v := by
  have hk : k.IsKey := h.isKey (k, v) (by simp)
  rw [lookup, find?_append_of_forall h.others.1]
  simp [equal_refl_of_isKey hk]

theorem put_split (h : DistinctKeys (before ++ (k, v) :: after)) (w : Value) :
    put k w (before ++ (k, v) :: after) = before ++ (k, w) :: after := by
  have hk : k.IsKey := h.isKey (k, v) (by simp)
  have hbefore := h.others.1
  clear h
  induction before with
  | nil => rw [List.nil_append, put, if_pos (equal_refl_of_isKey hk), List.nil_append]
  | cons e before ih =>
    have he : ¬k.equal e.1 = true := by simp [hbefore e List.mem_cons_self]
    rw [List.cons_append, put, if_neg he, ih fun f hf => hbefore f (List.mem_cons_of_mem _ hf),
      List.cons_append]

theorem drop_split (h : DistinctKeys (before ++ (k, v) :: after)) :
    drop k (before ++ (k, v) :: after) = before ++ after := by
  have hk : k.IsKey := h.isKey (k, v) (by simp)
  have hbefore : before.filter (fun e => !k.equal e.1) = before :=
    List.filter_eq_self.mpr fun e he => by simp [h.others.1 e he]
  have hafter : after.filter (fun e => !k.equal e.1) = after :=
    List.filter_eq_self.mpr fun e he => by simp [h.others.2 e he]
  rw [drop, List.filter_append, List.filter_cons_of_neg (by simp [equal_refl_of_isKey hk]),
    hbefore, hafter]

theorem lookup_eq_none_iff : lookup k es = none ↔ ∀ e ∈ es, k.equal e.1 = false := by
  simp [lookup]

theorem put_of_lookup_eq_none (h : lookup k es = none) (w : Value) :
    put k w es = es ++ [(k, w)] := by
  rw [lookup_eq_none_iff] at h
  induction es with
  | nil => rfl
  | cons e es ih =>
    have he : ¬k.equal e.1 = true := by simp [h e List.mem_cons_self]
    rw [put, if_neg he, ih fun f hf => h f (List.mem_cons_of_mem _ hf), List.cons_append]

theorem DistinctKeys.lookup_of_mem (h : DistinctKeys es) (hmem : (k, v) ∈ es) :
    lookup k es = some v := by
  obtain ⟨before, after, rfl⟩ := List.append_of_mem hmem
  exact lookup_split h

theorem exists_mem_of_lookup (h : lookup k es = some v) :
    ∃ k', (k', v) ∈ es ∧ k.equal k' = true := by
  obtain ⟨⟨k', v'⟩, hfind, rfl⟩ := Option.map_eq_some_iff.mp h
  exact ⟨k', List.mem_of_find?_eq_some hfind, by simpa using List.find?_some hfind⟩

-- A key is found exactly when one of its form is there.
theorem isSome_lookup_iff (hk : k.IsKey) (h : ∀ e ∈ es, e.1.IsKey) :
    (lookup k es).isSome = true ↔ k.form ∈ es.map (·.1.form) := by
  rw [lookup, Option.isSome_map, List.find?_isSome, List.mem_map]
  constructor
  · rintro ⟨e, he, hequal⟩
    exact ⟨e, he, ((equal_iff_form_eq hk (h e he)).mp hequal).symm⟩
  · rintro ⟨e, he, hform⟩
    exact ⟨e, he, (equal_iff_form_eq hk (h e he)).mpr hform.symm⟩

end Entries

theorem equalEntries_iff {es fs : List (Value × Value)} :
    equalEntries es fs = true ↔
      ∀ e ∈ es, ∃ w, lookup e.1 fs = some w ∧ e.2.equal w = true := by
  induction es with
  | nil => simp [equalEntries]
  | cons e es ih =>
    obtain ⟨k, v⟩ := e
    rw [equalEntries, Bool.and_eq_true, ih, List.forall_mem_cons]
    apply and_congr_left'
    rw [lookup]
    cases fs.find? fun f => k.equal f.1 <;> simp

mutual

theorem equal_self {v : Value} (hv : v.Nested) : v.equal v = true := by
  match v with
  | record es =>
    rw [nested_record] at hv
    rw [equal, beq_self_eq_true, Bool.true_and, equalEntries_iff]
    intro e he
    exact ⟨e.2, hv.1.lookup_of_mem he, equal_self_of_mem_entries hv.2 e he⟩
  | list xs => exact equalItems_self (nestedItems_iff.mp hv)
  | tuple xs => exact equalItems_self (nestedItems_iff.mp hv)
  | owner => exact absurd hv id
  | null => rfl
  | bool b => exact equal_refl_of_isKey rfl
  | num n => exact equal_refl_of_isKey rfl
  | text s => exact equal_refl_of_isKey rfl
  | markup s => exact equal_refl_of_isKey rfl
  | bytes bs => exact equal_refl_of_isKey rfl
  | set ts => exact equal_refl_of_isKey rfl
  | selfRendering i s => exact equal_refl_of_isKey rfl
  | failing i s => exact equal_refl_of_isKey rfl
  | template i t => exact equal_refl_of_isKey rfl
  | options ts => exact equal_refl_of_isKey rfl

theorem equalItems_self {xs : List Value} (h : ∀ x ∈ xs, x.Nested) : equalItems xs xs = true := by
  match xs with
  | [] => rfl
  | x :: xs =>
    rw [equalItems, equal_self (h x List.mem_cons_self),
      equalItems_self fun y hy => h y (List.mem_cons_of_mem _ hy), Bool.and_true]

theorem equal_self_of_mem_entries {es : List (Value × Value)} (h : ∀ e ∈ es, e.2.Nested) :
    ∀ e ∈ es, e.2.equal e.2 = true := by
  match es with
  | [] => simp
  | (k, v) :: es =>
    rw [List.forall_mem_cons]
    exact ⟨equal_self (h (k, v) List.mem_cons_self),
      equal_self_of_mem_entries fun f hf => h f (List.mem_cons_of_mem _ hf)⟩

end

end MarkupDiff.Value
