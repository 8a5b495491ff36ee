import MarkupDiff.Proofs.Difference.Agreement
import Mathlib.Data.List.Forall2

namespace MarkupDiff

open Value (DistinctKeys lookup)

namespace Value

-- Keys that a record does not tell apart.
def SameKey (k k' : Value) : Prop :=
  k = k' ∨ k.equal k' = true

theorem SameKey.refl (k : Value) : SameKey k k :=
  .inl rfl

mutual

-- What remains of a value at the end of a path without the entries that are ignored.
def without (ignore : Path → Value → Bool) (path : Path) : Value → Value
  | record es => record (withoutEntries ignore path es)
  | list xs => list (withoutItems ignore path 0 xs)
  | v => v

def withoutItems (ignore : Path → Value → Bool) (path : Path) (i : Nat) :
    List Value → List Value
  | [] => []
  | x :: xs => without ignore (path ++ [.nat i]) x :: withoutItems ignore path (i + 1) xs

def withoutEntries (ignore : Path → Value → Bool) (path : Path) :
    List (Value × Value) → List (Value × Value)
  | [] => []
  | (k, v) :: es =>
    if ignore path k then withoutEntries ignore path es
    else (k, without ignore (path ++ [k]) v) :: withoutEntries ignore path es

end

-- Equal in everything that is not ignored.
def Matches (ignore : Path → Value → Bool) (path : Path) (v w : Value) : Prop :=
  (v.without ignore path).equal (w.without ignore path) = true

end Value

-- Whether a key is passed over depends on the path and the key only as far as records tell keys
-- apart.
def Respects (ignore : Path → Value → Bool) : Prop :=
  ∀ p p' k k', List.Forall₂ Value.SameKey p p' → Value.SameKey k k' → ignore p k = ignore p' k'

theorem respects_ignoringNothing : Respects ignoringNothing :=
  fun _ _ _ _ _ _ => rfl

namespace Value

variable {ignore : Path → Value → Bool} {path path' : Path} {es : List (Value × Value)}

theorem forall₂_sameKey_refl (path : Path) : List.Forall₂ SameKey path path :=
  List.forall₂_same.mpr fun k _ => .refl k

theorem forall₂_sameKey_concat {k k' : Value} (hpath : List.Forall₂ SameKey path path')
    (hk : SameKey k k') : List.Forall₂ SameKey (path ++ [k]) (path' ++ [k']) :=
  List.rel_append hpath (.cons hk .nil)

theorem withoutEntries_append (es fs : List (Value × Value)) :
    withoutEntries ignore path (es ++ fs) =
      withoutEntries ignore path es ++ withoutEntries ignore path fs := by
  induction es with
  | nil => rfl
  | cons e es ih =>
    rw [List.cons_append, withoutEntries, withoutEntries, ih]
    split <;> rfl

theorem withoutEntries_of_kept {k v : Value} (hk : ignore path k = false) :
    withoutEntries ignore path ((k, v) :: es) =
      (k, v.without ignore (path ++ [k])) :: withoutEntries ignore path es := by
  rw [withoutEntries, hk]
  rfl

theorem mem_withoutEntries {k v : Value} (hmem : (k, v) ∈ es) (hk : ignore path k = false) :
    (k, v.without ignore (path ++ [k])) ∈ withoutEntries ignore path es := by
  obtain ⟨before, after, rfl⟩ := List.append_of_mem hmem
  rw [withoutEntries_append, withoutEntries_of_kept hk]
  simp

theorem getElem?_withoutItems (i : Nat) (xs : List Value) (j : Nat) :
    (withoutItems ignore path i xs)[j]? =
      xs[j]?.map (·.without ignore (path ++ [nat (i + j)])) := by
  induction xs generalizing i j with
  | nil => rfl
  | cons x xs ih =>
    cases j with
    | zero => rfl
    | succ j =>
      have hnext : i + 1 + j = i + (j + 1) := by omega
      rw [withoutItems, List.getElem?_cons_succ, List.getElem?_cons_succ, ih, hnext]

theorem nested_of_getElem? {xs : List Value}
    (h : ((list xs).without ignore path).Nested) {i : Nat} {x : Value} (hx : xs[i]? = some x) :
    (x.without ignore (path ++ [nat i])).Nested := by
  apply nested_list.mp h
  have hitem : (withoutItems ignore path 0 xs)[i]? = _ := getElem?_withoutItems 0 xs i
  rw [hx, Nat.zero_add] at hitem
  exact List.mem_of_getElem? hitem

theorem nested_of_mem_kept {k v : Value} (h : ((record es).without ignore path).Nested)
    (hmem : (k, v) ∈ es) (hk : ignore path k = false) :
    (v.without ignore (path ++ [k])).Nested :=
  (nested_record.mp h).2 _ (mem_withoutEntries hmem hk)

mutual

-- What remains does not depend on how the keys of the path are spelled.
theorem without_congr (h : Respects ignore) {p p' : Path} (hpath : List.Forall₂ SameKey p p')
    (v : Value) : v.without ignore p = v.without ignore p' := by
  match v with
  | record es => exact congrArg record (withoutEntries_congr h hpath es)
  | list xs => exact congrArg list (withoutItems_congr h hpath 0 xs)
  | null | bool _ | num _ | text _ | markup _ | bytes _ | tuple _ | set _ | owner
  | selfRendering _ _ | failing _ _ | template _ _ | options _ => rfl
termination_by sizeOf v

theorem withoutItems_congr (h : Respects ignore) {p p' : Path}
    (hpath : List.Forall₂ SameKey p p') (i : Nat) (xs : List Value) :
    withoutItems ignore p i xs = withoutItems ignore p' i xs := by
  match xs with
  | [] => rfl
  | x :: xs =>
    rw [withoutItems, withoutItems, withoutItems_congr h hpath,
      without_congr h (forall₂_sameKey_concat hpath (.refl (.nat i))) x]
termination_by sizeOf xs

theorem withoutEntries_congr (h : Respects ignore) {p p' : Path}
    (hpath : List.Forall₂ SameKey p p') (es : List (Value × Value)) :
    withoutEntries ignore p es = withoutEntries ignore p' es := by
  match es with
  | [] => rfl
  | (k, v) :: es =>
    rw [withoutEntries, withoutEntries, h p p' k k hpath (.refl k),
      withoutEntries_congr h hpath es,
      without_congr h (forall₂_sameKey_concat hpath (.refl k)) v]
termination_by sizeOf es

end

-- Looking up a key that counts finds what remains of the value under it.
theorem lookup_withoutEntries (h : Respects ignore) {k : Value} (hk : ignore path k = false)
    (es : List (Value × Value)) :
    lookup k (withoutEntries ignore path es) =
      (lookup k es).map (·.without ignore (path ++ [k])) := by
  induction es with
  | nil => rfl
  | cons e es ih =>
    obtain ⟨k', v⟩ := e
    by_cases hequal : k.equal k' = true
    · have hk' : ignore path k' = false := by
        rw [← h path path k k' (forall₂_sameKey_refl path) (.inr hequal), hk]
      have hsame := without_congr h
        (forall₂_sameKey_concat (forall₂_sameKey_refl path) (.inr hequal)) v
      rw [withoutEntries_of_kept hk']
      simp [lookup, hequal, hsame]
    · have hskip : ∀ (w : Value) (fs : List (Value × Value)),
          lookup k ((k', w) :: fs) = lookup k fs := by
        intro w fs
        rw [lookup, List.find?_cons_of_neg (by simpa using hequal), lookup]
      rw [hskip, ← ih, withoutEntries]
      split
      · rfl
      · exact hskip _ _

-- A key that counts is found where it stands, when what counts has distinct keys.
theorem lookup_of_mem_kept (h : Respects ignore)
    (hes : DistinctKeys (withoutEntries ignore path es)) {k v : Value} (hmem : (k, v) ∈ es)
    (hk : ignore path k = false) : lookup k es = some v := by
  obtain ⟨before, after, rfl⟩ := List.append_of_mem hmem
  rw [withoutEntries_append, withoutEntries_of_kept hk] at hes
  have hkey : k.equal k = true :=
    equal_refl_of_isKey (hes.isKey (k, v.without ignore (path ++ [k])) (by simp))
  have hbefore : ∀ e ∈ before, k.equal e.1 = false := by
    intro e he
    by_contra hequal
    rw [Bool.not_eq_false] at hequal
    have hkept : ignore path e.1 = false := by
      rw [← h path path k e.1 (forall₂_sameKey_refl path) (.inr hequal), hk]
    have hne := hes.others.1 _ (mem_withoutEntries (v := e.2) he hkept)
    rw [hequal] at hne
    exact Bool.noConfusion hne
  rw [lookup, find?_append_of_forall hbefore]
  simp [hkey]

theorem nested_of_lookup_kept (h : Respects ignore) (hes : ((record es).without ignore path).Nested)
    {k v : Value} (hlookup : lookup k es = some v) (hk : ignore path k = false) :
    (v.without ignore (path ++ [k])).Nested := by
  have hkept := lookup_withoutEntries h hk es
  rw [hlookup] at hkept
  obtain ⟨k', hmem, _⟩ := exists_mem_of_lookup hkept
  exact (nested_record.mp hes).2 _ hmem

theorem without_ne_owner {v : Value} (h : (v.without ignore path).Nested) : v ≠ owner := by
  rintro rfl
  exact h

theorem equal_without_of_not_alike {v w : Value} (h : ¬v.Alike w) :
    (v.without ignore path).equal (w.without ignore path) = v.equal w := by
  cases v <;> cases w <;> first | rfl | exact absurd trivial h

theorem not_alike_without {v w : Value} (h : ¬v.Alike w) :
    ¬(v.without ignore path).Alike (w.without ignore path) := by
  cases v <;> cases w <;> exact h

end Value

namespace Change

variable {ignore : Path → Value → Bool} {path : Path}

-- The change with what remains of its values.
def without (ignore : Path → Value → Bool) : Change → Change
  | edited p v w => edited p (v.without ignore p) (w.without ignore p)
  | removedKey p k v => removedKey p k (v.without ignore (p ++ [k]))
  | addedKey p k w => addedKey p k (w.without ignore (p ++ [k]))
  | removedItem p i v => removedItem p i (v.without ignore (p ++ [.nat i]))
  | addedItem p i w => addedItem p i (w.without ignore (p ++ [.nat i]))

theorem surplus_withoutItems {change : Nat → Value → Change}
    (hchange : ∀ i x, (change i x).without ignore =
      change i (x.without ignore (path ++ [.nat i]))) (i : Nat) (xs : List Value) :
    surplus change i (Value.withoutItems ignore path i xs) =
      (surplus change i xs).map (without ignore) := by
  induction xs generalizing i with
  | nil => rfl
  | cons x xs ih =>
    have htail := ih (i + 1)
    simp only [surplus] at htail
    simp only [surplus, Value.withoutItems, List.zipIdx_cons, List.map_cons, htail, hchange]

theorem foreign_without (h : Respects ignore) (es fs : List (Value × Value)) :
    foreign ignoringNothing path (Value.withoutEntries ignore path es)
        (Value.withoutEntries ignore path fs) =
      (foreign ignore path es fs).map (without ignore) := by
  induction fs with
  | nil => rfl
  | cons f fs ih =>
    obtain ⟨k, w⟩ := f
    unfold foreign at ih ⊢
    cases hk : ignore path k with
    | true => simpa [Value.withoutEntries, hk] using ih
    | false =>
      have hlookup := Value.lookup_withoutEntries h hk es
      cases hnone : lookup k es <;>
        simpa [Value.withoutEntries, hk, hlookup, hnone, without] using ih

mutual

-- To pass over keys is to compare what remains without them.
theorem between_without (h : Respects ignore) (p : Path) (v w : Value) :
    between ignoringNothing p (v.without ignore p) (w.without ignore p) =
      (between ignore p v w).map (without ignore) := by
  by_cases halike : v.Alike w
  · obtain ⟨es, fs, rfl, rfl⟩ | ⟨xs, ys, rfl, rfl⟩ := halike.cases
    · rw [Value.without, Value.without, between, between, inEntries_without h p fs es,
        foreign_without h, List.map_append]
    · exact inItems_without h p 0 xs ys
  · rw [between_of_not_alike (Value.not_alike_without halike), between_of_not_alike halike,
      Value.equal_without_of_not_alike halike]
    split <;> rfl
termination_by sizeOf v

theorem inEntries_without (h : Respects ignore) (p : Path)
    (fs es : List (Value × Value)) :
    inEntries ignoringNothing p (Value.withoutEntries ignore p fs)
        (Value.withoutEntries ignore p es) =
      (inEntries ignore p fs es).map (without ignore) := by
  match es with
  | [] => rfl
  | (k, v) :: es =>
    have htail := inEntries_without h p fs es
    cases hk : ignore p k with
    | true => simpa [Value.withoutEntries, inEntries, hk] using htail
    | false =>
      have hlookup := Value.lookup_withoutEntries h hk fs
      rw [Value.withoutEntries_of_kept hk, inEntries, inEntries, htail, List.map_append, hlookup,
        hk]
      cases lookup k fs with
      | none => rfl
      | some w => simp [between_without h (p ++ [k]) v w]
termination_by sizeOf es

theorem inItems_without (h : Respects ignore) (p : Path) (i : Nat) (xs ys : List Value) :
    inItems ignoringNothing p i (Value.withoutItems ignore p i xs)
        (Value.withoutItems ignore p i ys) =
      (inItems ignore p i xs ys).map (without ignore) := by
  match xs, ys with
  | [], ys => exact surplus_withoutItems (fun _ _ => rfl) i ys
  | x :: xs, [] => exact surplus_withoutItems (fun _ _ => rfl) i (x :: xs)
  | x :: xs, y :: ys =>
    rw [Value.withoutItems, Value.withoutItems, inItems, inItems, List.map_append,
      between_without h (p ++ [Value.nat i]) x y, inItems_without h p (i + 1) xs ys]
termination_by sizeOf xs

end

-- There are no changes exactly between values that match.
theorem between_eq_nil_iff_matches (h : Respects ignore) {v w : Value}
    (hv : (v.without ignore path).Nested) (hw : (w.without ignore path).Nested) :
    between ignore path v w = [] ↔ v.Matches ignore path w := by
  rw [Value.Matches, ← between_eq_nil_iff hv hw path, between_without h, List.map_eq_nil_iff]

end Change

end MarkupDiff
