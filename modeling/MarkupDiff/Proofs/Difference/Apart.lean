import MarkupDiff.Proofs.Difference.First
import Mathlib.Data.List.Pairwise

namespace MarkupDiff

open Value (DistinctKeys SameKey lookup)

namespace Path

-- One path is the beginning of another one, or all of it, as far as records tell keys apart.
def Begins (p q : Path) : Prop :=
  ∃ start, start <+: q ∧ List.Forall₂ SameKey p start

-- Two paths go the same way up to a step at which they part.
def Part (p q : Path) : Prop :=
  ∃ common s t rest rest', p = common ++ s :: rest ∧ q = common ++ t :: rest' ∧
    ¬SameKey s t ∧ ¬SameKey t s

theorem Part.symm {p q : Path} (h : p.Part q) : q.Part p := by
  obtain ⟨common, s, t, rest, rest', hp, hq, hst, hts⟩ := h
  exact ⟨common, t, s, rest', rest, hq, hp, hts, hst⟩

theorem Part.not_begins {p q : Path} (h : p.Part q) : ¬p.Begins q := by
  obtain ⟨common, s, t, rest, rest', rfl, rfl, hst, -⟩ := h
  rintro ⟨start, hprefix, hsame⟩
  induction common generalizing start with
  | nil =>
    rw [List.nil_append] at hsame hprefix
    obtain ⟨u, start, hu, -, rfl⟩ := List.forall₂_cons_left_iff.mp hsame
    obtain ⟨rfl, -⟩ := List.cons_prefix_cons.mp hprefix
    exact hst hu
  | cons c common ih =>
    rw [List.cons_append] at hsame hprefix
    obtain ⟨u, start, -, htail, rfl⟩ := List.forall₂_cons_left_iff.mp hsame
    exact ih start (List.cons_prefix_cons.mp hprefix).2 htail

theorem Part.ne {p q : Path} (h : p.Part q) : p ≠ q := by
  rintro rfl
  exact h.not_begins ⟨p, List.prefix_rfl, Value.forall₂_sameKey_refl p⟩

theorem part_of_step (path : Path) {s t : Value} {rest rest' : Path} (hst : ¬SameKey s t)
    (hts : ¬SameKey t s) : Part (path ++ s :: rest) (path ++ t :: rest') :=
  ⟨path, s, t, rest, rest', rfl, rfl, hst, hts⟩

end Path

theorem Value.not_sameKey_of_equal_eq_false {k k' : Value} (hk : k.IsKey)
    (h : k.equal k' = false) : ¬SameKey k k' := by
  rintro (rfl | hequal)
  · rw [Value.equal_refl_of_isKey hk] at h
    exact Bool.noConfusion h
  · rw [hequal] at h
    exact Bool.noConfusion h

theorem Value.not_sameKey_nat {i j : Nat} (h : i ≠ j) : ¬SameKey (.nat i) (.nat j) := by
  have hkey : (Value.nat i).IsKey := rfl
  apply not_sameKey_of_equal_eq_false hkey
  have hsize : ((i : Int) : Rat) ≠ ((j : Int) : Rat) := by exact_mod_cast h
  simpa [Value.nat, Value.int, Value.equal, Value.number?, Number.magnitude] using hsize.symm

namespace Change

variable {path : Path}

-- The two changes are told of at paths that part.
def Apart (c d : Change) : Prop :=
  c.fullPath.Part d.fullPath

-- The changes that come from an entry of the left record lie at its key or below it.
theorem exists_fullPath_eq_of_mem_inEntry {fs : List (Value × Value)} {e : Value × Value}
    {c : Change} (hc : c ∈ inEntry ignoringNothing path fs e) :
    ∃ rest, c.fullPath = path ++ e.1 :: rest := by
  cases hlookup : lookup e.1 fs with
  | some w =>
    rw [inEntry_of_some hlookup] at hc
    obtain ⟨rest, hrest⟩ := exists_fullPath_eq hc
    exact ⟨rest, by rw [hrest, List.append_assoc, List.singleton_append]⟩
  | none =>
    rw [inEntry_of_none hlookup] at hc
    exact ⟨[], by rw [List.mem_singleton.mp hc]; rfl⟩

theorem exists_fullPath_eq_of_mem_inItems {i : Nat} {xs ys : List Value} {c : Change}
    (hc : c ∈ inItems ignoringNothing path i xs ys) :
    ∃ j rest, i ≤ j ∧ c.fullPath = path ++ .nat j :: rest := by
  rcases mem_inItems.mp hc with ⟨j, x, y, _, _, hitem⟩ | ⟨j, x, _, _, rfl⟩ | ⟨j, y, _, _, rfl⟩
  · obtain ⟨rest, hrest⟩ := exists_fullPath_eq hitem
    exact ⟨i + j, rest, Nat.le_add_right i j, by simp [hrest]⟩
  · exact ⟨i + j, [], Nat.le_add_right i j, rfl⟩
  · exact ⟨i + j, [], Nat.le_add_right i j, rfl⟩

theorem apart_of_keys {c d : Change} {k k' : Value} {rest rest' : Path} (hk : k.IsKey)
    (hk' : k'.IsKey) (hne : k.equal k' = false) (hc : c.fullPath = path ++ k :: rest)
    (hd : d.fullPath = path ++ k' :: rest') : c.Apart d := by
  rw [Apart, hc, hd]
  exact Path.part_of_step path (Value.not_sameKey_of_equal_eq_false hk hne)
    (Value.not_sameKey_of_equal_eq_false hk' ((Value.equal_eq_false_comm hk hk').mp hne))

theorem apart_of_indices {c d : Change} {i j : Nat} {rest rest' : Path} (hne : i ≠ j)
    (hc : c.fullPath = path ++ .nat i :: rest) (hd : d.fullPath = path ++ .nat j :: rest') :
    c.Apart d := by
  rw [Apart, hc, hd]
  exact Path.part_of_step path (Value.not_sameKey_nat hne) (Value.not_sameKey_nat hne.symm)

theorem pairwise_surplus {change : Nat → Value → Change}
    (hchange : ∀ i v, (change i v).fullPath = path ++ [.nat i]) (i : Nat) (xs : List Value) :
    (surplus change i xs).Pairwise Apart := by
  rw [surplus, List.pairwise_map]
  have hindices : (xs.zipIdx i).Pairwise fun p q => p.2 ≠ q.2 := by
    rw [← List.pairwise_map (R := fun m n => m ≠ n), List.zipIdx_map_snd]
    exact List.nodup_range'
  exact hindices.imp fun hne => apart_of_indices hne (hchange _ _) (hchange _ _)

theorem pairwise_foreign {es fs : List (Value × Value)} (hfs : DistinctKeys fs) :
    (foreign ignoringNothing path es fs).Pairwise Apart := by
  rw [foreign, List.pairwise_map]
  have hkept := hfs.sublist (List.filter_sublist (p := fun f => (lookup f.1 es).isNone))
  simp only [Bool.not_false, Bool.and_true]
  exact hkept.pairwise.imp_of_mem fun he hf hne =>
    apart_of_keys (hkept.isKey _ he) (hkept.isKey _ hf) hne rfl rfl

mutual

-- No change is told of where another one is, above it or below it.
theorem pairwise_between {v w : Value} (hv : v.Nested) (hw : w.Nested) (path : Path) :
    (between ignoringNothing path v w).Pairwise Apart := by
  by_cases halike : v.Alike w
  · obtain ⟨es, fs, rfl, rfl⟩ | ⟨xs, ys, rfl, rfl⟩ := halike.cases
    · have hes := Value.nested_record.mp hv
      have hfs := Value.nested_record.mp hw
      rw [between, inEntries_eq_flatMap, List.pairwise_append]
      refine ⟨?_, pairwise_foreign hfs.1, ?_⟩
      · rw [List.pairwise_flatMap]
        refine ⟨pairwise_inEntry hes.2 hfs.2 path, hes.1.pairwise.imp_of_mem ?_⟩
        intro e f he hf hne c hc d hd
        obtain ⟨rest, hrest⟩ := exists_fullPath_eq_of_mem_inEntry hc
        obtain ⟨rest', hrest'⟩ := exists_fullPath_eq_of_mem_inEntry hd
        exact apart_of_keys (hes.1.isKey e he) (hes.1.isKey f hf) hne hrest hrest'
      · intro c hc d hd
        obtain ⟨e, he, hentry⟩ := List.mem_flatMap.mp hc
        obtain ⟨f, hf, hnone, rfl⟩ := mem_foreign.mp hd
        obtain ⟨rest, hrest⟩ := exists_fullPath_eq_of_mem_inEntry hentry
        have hke := hes.1.isKey e he
        have hkf := hfs.1.isKey f hf
        have hne := (Value.equal_eq_false_comm hkf hke).mp (Value.lookup_eq_none_iff.mp hnone e he)
        exact apart_of_keys hke hkf hne hrest rfl
    · exact pairwise_inItems (Value.nested_list.mp hv) (Value.nested_list.mp hw) path 0
  · rw [between_of_not_alike halike]
    split
    · exact List.Pairwise.nil
    · exact List.pairwise_singleton _ _
termination_by sizeOf v

theorem pairwise_inEntry {es fs : List (Value × Value)} (hes : ∀ e ∈ es, e.2.Nested)
    (hfs : ∀ f ∈ fs, f.2.Nested) (path : Path) :
    ∀ e ∈ es, (inEntry ignoringNothing path fs e).Pairwise Apart := by
  match es with
  | [] => simp
  | (k, v) :: es =>
    rw [List.forall_mem_cons]
    refine ⟨?_, pairwise_inEntry (fun e he => hes e (List.mem_cons_of_mem _ he)) hfs path⟩
    cases hlookup : lookup k fs with
    | none =>
      rw [inEntry_of_none (e := (k, v)) hlookup]
      exact List.pairwise_singleton _ _
    | some w =>
      obtain ⟨k', hmem, _⟩ := Value.exists_mem_of_lookup hlookup
      rw [inEntry_of_some (e := (k, v)) hlookup]
      exact pairwise_between (hes (k, v) List.mem_cons_self) (hfs _ hmem) _
termination_by sizeOf es

theorem pairwise_inItems {xs ys : List Value} (hxs : ∀ x ∈ xs, x.Nested)
    (hys : ∀ y ∈ ys, y.Nested) (path : Path) (i : Nat) :
    (inItems ignoringNothing path i xs ys).Pairwise Apart := by
  match xs, ys with
  | [], ys => exact pairwise_surplus (fun _ _ => rfl) i ys
  | x :: xs, [] => exact pairwise_surplus (fun _ _ => rfl) i (x :: xs)
  | x :: xs, y :: ys =>
    rw [inItems, List.pairwise_append]
    refine ⟨pairwise_between (hxs x List.mem_cons_self) (hys y List.mem_cons_self) _,
      pairwise_inItems (fun z hz => hxs z (List.mem_cons_of_mem _ hz))
        (fun z hz => hys z (List.mem_cons_of_mem _ hz)) path (i + 1), ?_⟩
    intro c hc d hd
    obtain ⟨rest, hrest⟩ := exists_fullPath_eq hc
    obtain ⟨j, rest', hj, hrest'⟩ := exists_fullPath_eq_of_mem_inItems hd
    rw [List.append_assoc, List.singleton_append] at hrest
    exact apart_of_indices (by omega) hrest hrest'
termination_by sizeOf xs

end

-- A change is the only one at its path.
theorem eq_of_fullPath_eq {cs : List Change} (h : cs.Pairwise Apart) {c d : Change} (hc : c ∈ cs)
    (hd : d ∈ cs) (hpath : c.fullPath = d.fullPath) : c = d := by
  by_contra hne
  have : Std.Symm Apart := ⟨fun _ _ => Path.Part.symm⟩
  exact (h.forall hc hd hne).ne hpath

end Change

end MarkupDiff
