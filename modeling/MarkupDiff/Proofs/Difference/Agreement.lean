import MarkupDiff.Difference.Change
import MarkupDiff.Proofs.Value.Nested
import Mathlib.Data.List.Perm.Subperm

namespace MarkupDiff

open Value (DistinctKeys lookup)

-- No key is passed over.
abbrev ignoringNothing (_path : Path) (_key : Value) : Bool :=
  false

namespace Value

def Alike : Value → Value → Prop
  | record _, record _ => True
  | list _, list _ => True
  | _, _ => False

theorem Alike.cases {v w : Value} (h : v.Alike w) :
    (∃ es fs, v = record es ∧ w = record fs) ∨ ∃ xs ys, v = list xs ∧ w = list ys := by
  cases v <;> cases w <;> simp_all [Alike]

theorem Alike.symm {v w : Value} (h : v.Alike w) : w.Alike v := by
  obtain ⟨es, fs, rfl, rfl⟩ | ⟨xs, ys, rfl, rfl⟩ := h.cases <;> exact trivial

theorem sizeOf_lt_record {es : List (Value × Value)} {e : Value × Value} (h : e ∈ es) :
    sizeOf e.2 < sizeOf (record es) := by
  have hentry := List.sizeOf_lt_of_mem h
  obtain ⟨k, v⟩ := e
  simp only [Prod.mk.sizeOf_spec, record.sizeOf_spec] at hentry ⊢
  omega

theorem sizeOf_lt_list {xs : List Value} {i : Nat} {x : Value} (h : xs[i]? = some x) :
    sizeOf x < sizeOf (list xs) := by
  have hitem := List.sizeOf_lt_of_mem (List.mem_of_getElem? h)
  simp only [list.sizeOf_spec]
  omega

-- When the keys of one record are all found in another one, the two have as many keys exactly when
-- this also holds the other way round.
theorem length_eq_iff_forall_isSome {es fs : List (Value × Value)} (hes : DistinctKeys es)
    (hfs : DistinctKeys fs) (h : ∀ e ∈ es, (lookup e.1 fs).isSome = true) :
    es.length = fs.length ↔ ∀ f ∈ fs, (lookup f.1 es).isSome = true := by
  have hsub : es.map (·.1.form) ⊆ fs.map (·.1.form) := by
    intro form hform
    obtain ⟨e, he, rfl⟩ := List.mem_map.mp hform
    exact (isSome_lookup_iff (hes.isKey e he) hfs.isKey).mp (h e he)
  have hperm := List.subperm_of_subset hes.nodup hsub
  constructor
  · intro hlen f hf
    have hback := hperm.perm_of_length_le (by simp [hlen])
    rw [isSome_lookup_iff (hfs.isKey f hf) hes.isKey]
    exact hback.mem_iff.mpr (List.mem_map_of_mem hf)
  · intro hback
    have hsup : fs.map (·.1.form) ⊆ es.map (·.1.form) := by
      intro form hform
      obtain ⟨f, hf, rfl⟩ := List.mem_map.mp hform
      exact (isSome_lookup_iff (hfs.isKey f hf) hes.isKey).mp (hback f hf)
    have hle := (List.subperm_of_subset hfs.nodup hsup).length_le
    have hge := hperm.length_le
    simp only [List.length_map] at hle hge
    omega

end Value

namespace Change

variable {ignore : Path → Value → Bool} {path : Path}

-- What the walk through two records says about one entry of the left one.
def inEntry (ignore : Path → Value → Bool) (path : Path) (others : List (Value × Value))
    (e : Value × Value) : List Change :=
  if ignore path e.1 then []
  else match lookup e.1 others with
    | some w => between ignore (path ++ [e.1]) e.2 w
    | none => [.removedKey path e.1 e.2]

theorem inEntries_eq_flatMap (others es : List (Value × Value)) :
    inEntries ignore path others es = es.flatMap (inEntry ignore path others) := by
  induction es with
  | nil => rfl
  | cons e es ih => rw [inEntries, ih, List.flatMap_cons]; rfl

theorem between_of_not_alike {v w : Value} (h : ¬v.Alike w) :
    between ignore path v w = if v.equal w then [] else [.edited path v w] := by
  cases v <;> cases w <;> first | rfl | exact absurd trivial h

theorem inEntry_of_some {others : List (Value × Value)} {e : Value × Value} {w : Value}
    (h : lookup e.1 others = some w) :
    inEntry ignoringNothing path others e = between ignoringNothing (path ++ [e.1]) e.2 w := by
  simp [inEntry, h]

theorem inEntry_of_none {others : List (Value × Value)} {e : Value × Value}
    (h : lookup e.1 others = none) :
    inEntry ignoringNothing path others e = [.removedKey path e.1 e.2] := by
  simp [inEntry, h]

theorem foreign_eq_nil_iff {es fs : List (Value × Value)} :
    foreign ignoringNothing path es fs = [] ↔ ∀ f ∈ fs, (lookup f.1 es).isSome = true := by
  simp [foreign, Option.isSome_iff_ne_none]

theorem mem_foreign {es fs : List (Value × Value)} {c : Change} :
    c ∈ foreign ignoringNothing path es fs ↔
      ∃ f ∈ fs, lookup f.1 es = none ∧ c = .addedKey path f.1 f.2 := by
  simp only [foreign, Bool.not_false, Bool.and_true, List.mem_map, List.mem_filter,
    Option.isNone_iff_eq_none]
  constructor
  · rintro ⟨f, ⟨hf, hlookup⟩, rfl⟩
    exact ⟨f, hf, hlookup, rfl⟩
  · rintro ⟨f, hf, hlookup, rfl⟩
    exact ⟨f, ⟨hf, hlookup⟩, rfl⟩

mutual

theorem between_eq_nil_iff {v w : Value} (hv : v.Nested) (hw : w.Nested) (path : Path) :
    between ignoringNothing path v w = [] ↔ v.equal w = true := by
  by_cases halike : v.Alike w
  · obtain ⟨es, fs, rfl, rfl⟩ | ⟨xs, ys, rfl, rfl⟩ := halike.cases
    · rw [Value.nested_record] at hv hw
      have hes := forall_inEntry_eq_nil_iff hv.2 hw.2 path
      rw [between, List.append_eq_nil_iff, inEntries_eq_flatMap, List.flatMap_eq_nil_iff, hes,
        foreign_eq_nil_iff, Value.equal, Bool.and_eq_true, beq_iff_eq, Value.equalEntries_iff,
        and_comm]
      apply and_congr_left
      intro h
      refine (Value.length_eq_iff_forall_isSome hv.1 hw.1 fun e he => ?_).symm
      obtain ⟨w, hw, _⟩ := h e he
      rw [hw, Option.isSome_some]
    · exact inItems_eq_nil_iff (Value.nested_list.mp hv) (Value.nested_list.mp hw) path 0
  · rw [between_of_not_alike halike]
    cases v.equal w <;> simp
termination_by sizeOf v

theorem forall_inEntry_eq_nil_iff {es fs : List (Value × Value)} (hes : ∀ e ∈ es, e.2.Nested)
    (hfs : ∀ f ∈ fs, f.2.Nested) (path : Path) :
    (∀ e ∈ es, inEntry ignoringNothing path fs e = []) ↔
      ∀ e ∈ es, ∃ w, lookup e.1 fs = some w ∧ e.2.equal w = true := by
  match es with
  | [] => simp
  | (k, v) :: es =>
    rw [List.forall_mem_cons, List.forall_mem_cons,
      forall_inEntry_eq_nil_iff (fun e he => hes e (List.mem_cons_of_mem _ he)) hfs path]
    apply and_congr_left'
    cases hlookup : lookup k fs with
    | none =>
      rw [inEntry_of_none (e := (k, v)) hlookup]
      simp
    | some w =>
      obtain ⟨k', hmem, _⟩ := Value.exists_mem_of_lookup hlookup
      rw [inEntry_of_some hlookup,
        between_eq_nil_iff (hes (k, v) List.mem_cons_self) (hfs _ hmem)]
      simp
termination_by sizeOf es

theorem inItems_eq_nil_iff {xs ys : List Value} (hxs : ∀ x ∈ xs, x.Nested)
    (hys : ∀ y ∈ ys, y.Nested) (path : Path) (i : Nat) :
    inItems ignoringNothing path i xs ys = [] ↔ Value.equalItems xs ys = true := by
  match xs, ys with
  | [], [] => simp [inItems, surplus, Value.equalItems]
  | [], y :: ys => simp [inItems, surplus, Value.equalItems]
  | x :: xs, [] => simp [inItems, surplus, Value.equalItems]
  | x :: xs, y :: ys =>
    rw [inItems, List.append_eq_nil_iff, Value.equalItems, Bool.and_eq_true,
      between_eq_nil_iff (hxs x List.mem_cons_self) (hys y List.mem_cons_self),
      inItems_eq_nil_iff (fun z hz => hxs z (List.mem_cons_of_mem _ hz))
        (fun z hz => hys z (List.mem_cons_of_mem _ hz))]
termination_by sizeOf xs

end

theorem between_self {v : Value} (hv : v.Nested) (path : Path) :
    between ignoringNothing path v v = [] :=
  (between_eq_nil_iff hv hv path).mpr (Value.equal_self hv)

mutual

-- The walk that stops wherever the two sides share one object, as `same` tells.
def betweenSharing (same : Path → Value → Value → Bool) (path : Path) :
    Value → Value → List Change
  | .record es, .record fs =>
    if same path (.record es) (.record fs) then []
    else inEntriesSharing same path fs es ++ foreign ignoringNothing path es fs
  | .list xs, .list ys =>
    if same path (.list xs) (.list ys) then [] else inItemsSharing same path 0 xs ys
  | v, w => if same path v w || v.equal w then [] else [.edited path v w]
termination_by structural v => v

def inEntriesSharing (same : Path → Value → Value → Bool) (path : Path)
    (others : List (Value × Value)) : List (Value × Value) → List Change
  | [] => []
  | (k, v) :: es =>
    (match lookup k others with
      | some w => betweenSharing same (path ++ [k]) v w
      | none => [.removedKey path k v]) ++ inEntriesSharing same path others es
termination_by structural es => es

def inItemsSharing (same : Path → Value → Value → Bool) (path : Path) (i : Nat) :
    List Value → List Value → List Change
  | [], ys => surplus (.addedItem path) i ys
  | x :: xs, [] => surplus (.removedItem path) i (x :: xs)
  | x :: xs, y :: ys =>
    betweenSharing same (path ++ [.nat i]) x y ++ inItemsSharing same path (i + 1) xs ys
termination_by structural xs => xs

end

theorem betweenSharing_of_not_alike {same : Path → Value → Value → Bool} {v w : Value}
    (h : ¬v.Alike w) : betweenSharing same path v w =
      if same path v w || v.equal w then [] else [.edited path v w] := by
  cases v <;> cases w <;> first | rfl | exact absurd trivial h

mutual

-- Stopping at what is shared hides nothing, since one object holds one value.
theorem betweenSharing_eq {same : Path → Value → Value → Bool}
    (hsame : ∀ path v w, same path v w = true → v = w) {v w : Value} (hv : v.Nested)
    (hw : w.Nested) (path : Path) :
    betweenSharing same path v w = between ignoringNothing path v w := by
  by_cases hshared : same path v w = true
  · obtain rfl := hsame path v w hshared
    rw [between_self hv]
    by_cases halike : v.Alike v
    · obtain ⟨es, fs, rfl, hfs⟩ | ⟨xs, ys, rfl, hys⟩ := halike.cases
      · rw [betweenSharing, if_pos hshared]
      · rw [betweenSharing, if_pos hshared]
    · rw [betweenSharing_of_not_alike halike, hshared, Bool.true_or, if_pos rfl]
  · by_cases halike : v.Alike w
    · obtain ⟨es, fs, rfl, rfl⟩ | ⟨xs, ys, rfl, rfl⟩ := halike.cases
      · rw [betweenSharing, if_neg hshared, between,
          inEntriesSharing_eq hsame (Value.nested_record.mp hv).2 (Value.nested_record.mp hw).2]
      · rw [betweenSharing, if_neg hshared, between,
          inItemsSharing_eq hsame (Value.nested_list.mp hv) (Value.nested_list.mp hw)]
    · rw [Bool.not_eq_true] at hshared
      rw [betweenSharing_of_not_alike halike, between_of_not_alike halike, hshared, Bool.false_or]
termination_by sizeOf v

theorem inEntriesSharing_eq {same : Path → Value → Value → Bool}
    (hsame : ∀ path v w, same path v w = true → v = w) {es fs : List (Value × Value)}
    (hes : ∀ e ∈ es, e.2.Nested) (hfs : ∀ f ∈ fs, f.2.Nested) (path : Path) :
    inEntriesSharing same path fs es = inEntries ignoringNothing path fs es := by
  match es with
  | [] => rfl
  | (k, v) :: es =>
    rw [inEntriesSharing, inEntries,
      inEntriesSharing_eq hsame (fun e he => hes e (List.mem_cons_of_mem _ he)) hfs]
    cases hlookup : lookup k fs with
    | none => rfl
    | some w =>
      obtain ⟨k', hmem, _⟩ := Value.exists_mem_of_lookup hlookup
      simp only [betweenSharing_eq hsame (hes (k, v) List.mem_cons_self) (hfs _ hmem),
        Bool.false_eq_true, if_false]
termination_by sizeOf es

theorem inItemsSharing_eq {same : Path → Value → Value → Bool}
    (hsame : ∀ path v w, same path v w = true → v = w) {xs ys : List Value}
    (hxs : ∀ x ∈ xs, x.Nested) (hys : ∀ y ∈ ys, y.Nested) (path : Path) (i : Nat) :
    inItemsSharing same path i xs ys = inItems ignoringNothing path i xs ys := by
  match xs, ys with
  | [], ys => rfl
  | x :: xs, [] => rfl
  | x :: xs, y :: ys =>
    rw [inItemsSharing, inItems,
      betweenSharing_eq hsame (hxs x List.mem_cons_self) (hys y List.mem_cons_self),
      inItemsSharing_eq hsame (fun z hz => hxs z (List.mem_cons_of_mem _ hz))
        (fun z hz => hys z (List.mem_cons_of_mem _ hz))]
termination_by sizeOf xs

end

end Change

end MarkupDiff
