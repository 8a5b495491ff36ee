import MarkupDiff.Proofs.Difference.Agreement
import Mathlib.Data.List.Find

namespace MarkupDiff.Value

-- Neither a container nor a tuple.
def IsAtom : Value → Prop
  | record _ | list _ | tuple _ | owner => False
  | _ => True

theorem IsAtom.isKey {v : Value} (h : v.IsAtom) : v.IsKey := by
  cases v <;> first | rfl | exact absurd h id

theorem IsAtom.nested {v : Value} (h : v.IsAtom) : v.Nested := by
  cases v <;> first | exact trivial | exact absurd h id

-- Containers of one kind, or both tuples, or both atoms.
inductive Comparable : Value → Value → Prop
  | records (es fs : List (Value × Value)) : Comparable (record es) (record fs)
  | lists (xs ys : List Value) : Comparable (list xs) (list ys)
  | tuples (xs ys : List Value) : Comparable (tuple xs) (tuple ys)
  | atoms {v w : Value} (hv : v.IsAtom) (hw : w.IsAtom) : Comparable v w

theorem comparable_of_equal {v w : Value} (hv : v.Nested) (h : v.equal w = true) :
    v.Comparable w := by
  cases v <;> cases w <;>
    first
    | exact .records _ _
    | exact .lists _ _
    | exact .tuples _ _
    | exact .atoms trivial trivial
    | exact absurd hv id
    | simp [equal, number?, text?] at h

theorem IsAtom.equal_eq_false {v w : Value} (hv : v.IsAtom) (hw : w.IsAtom → False) :
    v.equal w = false := by
  rw [← Bool.not_eq_true]
  intro hequal
  cases comparable_of_equal hv.nested hequal with
  | atoms _ hw' => exact hw hw'
  | _ => exact hv

theorem equalItems_eq_false {xs ys : List Value} (h : xs.length ≠ ys.length) :
    equalItems xs ys = false := by
  induction xs generalizing ys with
  | nil =>
    cases ys with
    | nil => exact absurd rfl h
    | cons y ys => rfl
  | cons x xs ih =>
    cases ys with
    | nil => rfl
    | cons y ys => rw [equalItems, ih (by simpa using h), Bool.and_false]

theorem lookup_cons (k k' v : Value) (es : List (Value × Value)) :
    lookup k ((k', v) :: es) = if k.equal k' then some v else lookup k es := by
  rw [lookup, List.find?_cons]
  cases k.equal k' <;> rfl

theorem equalEntries_cons (k v : Value) (es fs : List (Value × Value)) :
    equalEntries ((k, v) :: es) fs = ((lookup k fs).any v.equal && equalEntries es fs) := by
  rw [equalEntries, lookup]
  cases fs.find? fun f => k.equal f.1 <;> rfl

section Keys

variable {es : List (Value × Value)} {k k' v : Value}

@[simp] theorem distinctKeys_nil : DistinctKeys [] :=
  ⟨by simp, .nil⟩

theorem distinctKeys_cons {e : Value × Value} : DistinctKeys (e :: es) ↔
    e.1.IsKey ∧ (∀ f ∈ es, e.1.equal f.1 = false) ∧ DistinctKeys es := by
  constructor
  · intro ⟨hkey, hpairwise⟩
    rw [List.forall_mem_cons] at hkey
    rw [List.pairwise_cons] at hpairwise
    exact ⟨hkey.1, hpairwise.1, hkey.2, hpairwise.2⟩
  · intro ⟨hkey, hother, hes⟩
    exact ⟨List.forall_mem_cons.mpr ⟨hkey, hes.isKey⟩, .cons hother hes.pairwise⟩

theorem equal_symm_of_isKey (hk : k.IsKey) (hk' : k'.IsKey) (h : k.equal k' = true) :
    k'.equal k = true :=
  (equal_iff_form_eq hk' hk).mpr ((equal_iff_form_eq hk hk').mp h).symm

-- A record does not tell equal keys apart.
theorem lookup_congr (hes : ∀ e ∈ es, e.1.IsKey) (hk : k.IsKey) (hk' : k'.IsKey)
    (h : k.equal k' = true) : lookup k es = lookup k' es := by
  have hform := (equal_iff_form_eq hk hk').mp h
  have hsame : ∀ e ∈ es, k.equal e.1 = k'.equal e.1 := by
    intro e he
    rw [Bool.eq_iff_iff, equal_iff_form_eq hk (hes e he), equal_iff_form_eq hk' (hes e he), hform]
  rw [lookup, lookup, List.find?_congr hsame]

theorem DistinctKeys.lookup_of_equal (hes : DistinctKeys es) (hk : k.IsKey)
    (hmem : (k', v) ∈ es) (h : k.equal k' = true) : lookup k es = some v := by
  rw [lookup_congr hes.isKey hk (hes.isKey _ hmem) h, hes.lookup_of_mem hmem]

end Keys

mutual

theorem equal_symm {v w : Value} (hv : v.Nested) (hw : w.Nested) (h : v.equal w = true) :
    w.equal v = true := by
  cases comparable_of_equal hv h with
  | records es fs =>
    rw [nested_record] at hv hw
    rw [equal, Bool.and_eq_true, beq_iff_eq, equalEntries_iff] at h ⊢
    obtain ⟨hlength, hentries⟩ := h
    have hfound : ∀ e ∈ es, (lookup e.1 fs).isSome = true := by
      intro e he
      obtain ⟨w, hlookup, -⟩ := hentries e he
      rw [hlookup, Option.isSome_some]
    refine ⟨hlength.symm, fun f hf => ?_⟩
    have hback := (length_eq_iff_forall_isSome hv.1 hw.1 hfound).mp hlength f hf
    obtain ⟨v, hlookup⟩ := Option.isSome_iff_exists.mp hback
    obtain ⟨k, hmem, hequal⟩ := exists_mem_of_lookup hlookup
    have hlt : sizeOf v < sizeOf (record es) := sizeOf_lt_record hmem
    have hk := hv.1.isKey _ hmem
    have hkf := equal_symm_of_isKey (hw.1.isKey f hf) hk hequal
    obtain ⟨w, hw', hvw⟩ := hentries _ hmem
    rw [hw.1.lookup_of_equal hk hf hkf, Option.some.injEq] at hw'
    exact ⟨v, hlookup, equal_symm (hv.2 _ hmem) (hw.2 f hf) (hw' ▸ hvw)⟩
  | lists xs ys => exact equalItems_symm (nestedItems_iff.mp hv) (nestedItems_iff.mp hw) h
  | tuples xs ys => exact equalItems_symm (nestedItems_iff.mp hv) (nestedItems_iff.mp hw) h
  | atoms hva hwa => exact equal_symm_of_isKey hva.isKey hwa.isKey h
termination_by sizeOf v

theorem equalItems_symm {xs ys : List Value} (hxs : ∀ x ∈ xs, x.Nested)
    (hys : ∀ y ∈ ys, y.Nested) (h : equalItems xs ys = true) : equalItems ys xs = true := by
  match xs, ys with
  | [], [] => rfl
  | [], y :: ys => exact h
  | x :: xs, [] => exact h
  | x :: xs, y :: ys =>
    rw [equalItems, Bool.and_eq_true] at h ⊢
    rw [List.forall_mem_cons] at hxs hys
    exact ⟨equal_symm hxs.1 hys.1 h.1, equalItems_symm hxs.2 hys.2 h.2⟩
termination_by sizeOf xs

end

mutual

theorem equal_trans {u v w : Value} (hu : u.Nested) (hv : v.Nested) (hw : w.Nested)
    (huv : u.equal v = true) (hvw : v.equal w = true) : u.equal w = true := by
  cases comparable_of_equal hu huv with
  | records es fs =>
    cases comparable_of_equal hv hvw with
    | records fs gs =>
      rw [nested_record] at hu hv hw
      rw [equal, Bool.and_eq_true, beq_iff_eq, equalEntries_iff] at huv hvw ⊢
      refine ⟨huv.1.trans hvw.1, fun e he => ?_⟩
      obtain ⟨x, hx, hex⟩ := huv.2 e he
      obtain ⟨k, hmem, hequal⟩ := exists_mem_of_lookup hx
      obtain ⟨y, hy, hxy⟩ := hvw.2 _ hmem
      obtain ⟨k', hmem', -⟩ := exists_mem_of_lookup hy
      have hlt : sizeOf e.2 < sizeOf (record es) := sizeOf_lt_record he
      refine ⟨y, ?_, equal_trans (hu.2 e he) (hv.2 _ hmem) (hw.2 _ hmem') hex hxy⟩
      rw [lookup_congr hw.1.isKey (hu.1.isKey e he) (hv.1.isKey _ hmem) hequal, hy]
    | atoms hva _ => exact absurd hva id
  | lists xs ys =>
    cases comparable_of_equal hv hvw with
    | lists ys zs =>
      exact equalItems_trans (nestedItems_iff.mp hu) (nestedItems_iff.mp hv)
        (nestedItems_iff.mp hw) huv hvw
    | atoms hva _ => exact absurd hva id
  | tuples xs ys =>
    cases comparable_of_equal hv hvw with
    | tuples ys zs =>
      exact equalItems_trans (nestedItems_iff.mp hu) (nestedItems_iff.mp hv)
        (nestedItems_iff.mp hw) huv hvw
    | atoms hva _ => exact absurd hva id
  | atoms hua hva =>
    cases comparable_of_equal hv hvw with
    | atoms _ hwa =>
      rw [equal_iff_form_eq hua.isKey hva.isKey] at huv
      rw [equal_iff_form_eq hva.isKey hwa.isKey] at hvw
      exact (equal_iff_form_eq hua.isKey hwa.isKey).mpr (huv.trans hvw)
    | _ => exact absurd hva id
termination_by sizeOf u

theorem equalItems_trans {xs ys zs : List Value} (hxs : ∀ x ∈ xs, x.Nested)
    (hys : ∀ y ∈ ys, y.Nested) (hzs : ∀ z ∈ zs, z.Nested) (hxy : equalItems xs ys = true)
    (hyz : equalItems ys zs = true) : equalItems xs zs = true := by
  match xs, ys, zs with
  | [], [], zs => exact hyz
  | x :: xs, y :: ys, z :: zs =>
    rw [equalItems, Bool.and_eq_true] at hxy hyz ⊢
    rw [List.forall_mem_cons] at hxs hys hzs
    exact ⟨equal_trans hxs.1 hys.1 hzs.1 hxy.1 hyz.1,
      equalItems_trans hxs.2 hys.2 hzs.2 hxy.2 hyz.2⟩
termination_by sizeOf xs

end

theorem equal_comm {v w : Value} (hv : v.Nested) (hw : w.Nested) : v.equal w = w.equal v :=
  Bool.eq_iff_iff.mpr ⟨equal_symm hv hw, equal_symm hw hv⟩

end MarkupDiff.Value
