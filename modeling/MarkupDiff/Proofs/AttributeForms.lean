import MarkupDiff.Proofs.Text.Pieces
import MarkupDiff.Proofs.Tree.SortedInPlace

namespace MarkupDiff

namespace Attr

-- The values that attributes give to a name, in their order.
def valuesOf (name : String) (attrs : List Attr) : List String :=
  (named name attrs).map (·.value)

-- Attributes that say the same: they give the same values to every name, in the same order, and
-- class values in the same places hold the same tokens equally often.
structure Agree (tokens : String → List String) (as bs : List Attr) : Prop where
  values : ∀ name, name ≠ "class" → valuesOf name as = valuesOf name bs
  classes : List.Forall₂ (fun v w => (tokens v).Perm (tokens w)) (valuesOf "class" as)
    (valuesOf "class" bs)

-- The attributes after sorting, and those that were given as sorting leaves them: these keep their
-- order and change only in class values, and the sorted ones are these in ascending order of their
-- names, with those of one name in the order in which they were given.
structure Sorts (given left sorted : List Attr) : Prop where
  inPlace : List.Forall₂ (fun a k => k.name = a.name ∧
    k.value = if a.name = "class" then classValue a.value else a.value) given left
  perm : sorted.Perm left
  ascending : sorted.Pairwise fun a b => a.name ≤ b.name
  stable : ∀ name, named name sorted = named name left

theorem named_eq_map_valuesOf (name : String) (attrs : List Attr) :
    named name attrs = (valuesOf name attrs).map (Attr.mk name) := by
  rw [valuesOf, List.map_map]
  refine (List.map_id _).symm.trans (List.map_congr_left fun a ha => ?_)
  have hname : a.name = name := by simpa using (List.mem_filter.mp ha).2
  subst hname
  rfl

theorem named_eq_named_iff {name : String} {as bs : List Attr} :
    named name as = named name bs ↔ valuesOf name as = valuesOf name bs := by
  constructor
  · intro h
    rw [valuesOf, valuesOf, h]
  · intro h
    rw [named_eq_map_valuesOf, named_eq_map_valuesOf, h]

theorem named_map_canonical (name : String) (attrs : List Attr) :
    named name (attrs.map canonical) = (named name attrs).map canonical := by
  simp [named, List.filter_map, Function.comp_def]

theorem valuesOf_map_canonical_class (attrs : List Attr) :
    valuesOf "class" (attrs.map canonical) = (valuesOf "class" attrs).map classValue := by
  rw [valuesOf, named_map_canonical, named_eq_map_valuesOf, List.map_map, List.map_map]
  exact List.map_congr_left fun v _ => rfl

theorem valuesOf_map_canonical_of_ne {name : String} (h : name ≠ "class") (attrs : List Attr) :
    valuesOf name (attrs.map canonical) = valuesOf name attrs := by
  rw [valuesOf, named_map_canonical, named_eq_map_valuesOf, List.map_map, List.map_map]
  refine (List.map_congr_left fun v _ => ?_).trans (List.map_id _)
  simp [canonical, h]

-- Attributes have one sorted form exactly when they say the same.
theorem sorted_eq_iff_agree {as bs : List Attr} : sorted as = sorted bs ↔ Agree wordsOf as bs := by
  have hclass : valuesOf "class" (as.map canonical) = valuesOf "class" (bs.map canonical) ↔
      List.Forall₂ (fun v w => (wordsOf v).Perm (wordsOf w)) (valuesOf "class" as)
        (valuesOf "class" bs) := by
    rw [valuesOf_map_canonical_class, valuesOf_map_canonical_class, ← List.forall₂_eq_eq_eq,
      List.forall₂_map_left_iff, List.forall₂_map_right_iff]
    simp only [classValue_eq_iff]
  rw [sorted_eq_mergeSort, sorted_eq_mergeSort, mergeSort_eq_iff]
  simp only [named_eq_named_iff]
  constructor
  · intro h
    refine ⟨fun name hname => ?_, hclass.mp (h "class")⟩
    rw [← valuesOf_map_canonical_of_ne hname, h name, valuesOf_map_canonical_of_ne hname]
  · intro h name
    by_cases hname : name = "class"
    · rw [hname]
      exact hclass.mpr h.classes
    · rw [valuesOf_map_canonical_of_ne hname, valuesOf_map_canonical_of_ne hname]
      exact h.values name hname

theorem sorts_sorted (attrs : List Attr) : Sorts attrs (attrs.map canonical) (sorted attrs) := by
  rw [sorted_eq_mergeSort]
  refine ⟨?_, List.mergeSort_perm _ _, ?_, fun name => named_mergeSort name _⟩
  · rw [List.forall₂_map_right_iff, List.forall₂_same]
    intro a _
    by_cases ha : a.name = "class"
    · obtain ⟨name, v⟩ := a
      obtain rfl : name = "class" := ha
      simp
    · simp [canonical, ha]
  · exact (List.pairwise_mergeSort nameLe_trans nameLe_total _).imp fun h => textLe_iff.mp h

-- Where class values hold no other blanks than those of markup, it does not matter which blanks
-- stand between tokens.
theorem agree_markupTokensOf_iff {as bs : List Attr}
    (ha : ∀ v ∈ valuesOf "class" as, HasMarkupBlanksOnly v)
    (hb : ∀ v ∈ valuesOf "class" bs, HasMarkupBlanksOnly v) :
    Agree markupTokensOf as bs ↔ Agree wordsOf as bs := by
  have htokens : List.Forall₂ (fun v w => (markupTokensOf v).Perm (markupTokensOf w))
      (valuesOf "class" as) (valuesOf "class" bs) ↔
      List.Forall₂ (fun v w => (wordsOf v).Perm (wordsOf w)) (valuesOf "class" as)
        (valuesOf "class" bs) := by
    rw [List.forall₂_iff_get, List.forall₂_iff_get]
    refine and_congr_right fun _ => forall_congr' fun i => forall_congr' fun h₁ =>
      forall_congr' fun h₂ => ?_
    rw [wordsOf_eq_markupTokensOf (ha _ (List.get_mem _ _)),
      wordsOf_eq_markupTokensOf (hb _ (List.get_mem _ _))]
  exact ⟨fun h => ⟨h.values, htokens.mp h.classes⟩, fun h => ⟨h.values, htokens.mpr h.classes⟩⟩

theorem equal_toValue_iff {a b : Attr} : a.toValue.equal b.toValue = true ↔ a = b := by
  obtain ⟨name, v⟩ := a
  obtain ⟨name', v'⟩ := b
  have hparts : (toValue ⟨name, v⟩).equal (toValue ⟨name', v'⟩) = true ↔ name' = name ∧ v' = v := by
    simp [toValue, Value.equal, Value.equalEntries, Value.text?]
  rw [hparts, Attr.mk.injEq, eq_comm, @eq_comm _ v']

theorem equal_list_map_toValue_iff {as bs : List Attr} :
    (Value.list (as.map toValue)).equal (.list (bs.map toValue)) = true ↔ as = bs := by
  change Value.equalItems _ _ = true ↔ _
  induction as generalizing bs with
  | nil => cases bs <;> simp [Value.equalItems]
  | cons a as ih =>
    cases bs with
    | nil => simp [Value.equalItems]
    | cons b bs =>
      rw [List.map_cons, List.map_cons, Value.equalItems, Bool.and_eq_true, equal_toValue_iff, ih,
        List.cons.injEq]

end Attr

open Attr (Agree Sorts valuesOf)
open MarkupDiff.Tree (sortAttributes)

-- Sorting attributes puts them into ascending order of their names, keeps the order of those of one
-- name, and changes nothing but class values in the list that was given. Two lists of attributes
-- are sorted into equal ones exactly when they say the same, where any blanks stand between the
-- tokens of a class value. If its blanks are all blanks of markup, these are the tokens of markup.
theorem sorting_attributes_is_canonical (as bs : List Attr) :
    ∃ ks rs ls ss : List Attr,
      sortAttributes (as.map Attr.toValue) =
        ⟨ks.map Attr.toValue, .ok (rs.map Attr.toValue)⟩ ∧ Sorts as ks rs ∧
      sortAttributes (bs.map Attr.toValue) =
        ⟨ls.map Attr.toValue, .ok (ss.map Attr.toValue)⟩ ∧ Sorts bs ls ss ∧
      ((Value.list (rs.map Attr.toValue)).equal (.list (ss.map Attr.toValue)) = true ↔
        Agree wordsOf as bs) ∧
      ((∀ v ∈ valuesOf "class" as, HasMarkupBlanksOnly v) →
        (∀ v ∈ valuesOf "class" bs, HasMarkupBlanksOnly v) →
        ((Value.list (rs.map Attr.toValue)).equal (.list (ss.map Attr.toValue)) = true ↔
          Agree markupTokensOf as bs)) := by
  refine ⟨_, _, _, _, Tree.sortAttributes_eq as, Attr.sorts_sorted as, Tree.sortAttributes_eq bs,
    Attr.sorts_sorted bs, ?_, fun ha hb => ?_⟩
  · rw [Attr.equal_list_map_toValue_iff, Attr.sorted_eq_iff_agree]
  · rw [Attr.equal_list_map_toValue_iff, Attr.sorted_eq_iff_agree,
      Attr.agree_markupTokensOf_iff ha hb]

-- Neither the order of the names nor that of the class tokens matters.
theorem sorting_reordered :
    let as : List Attr := [⟨"id", "1"⟩, ⟨"class", "b  a"⟩]
    let bs : List Attr := [⟨"class", "a b"⟩, ⟨"id", "1"⟩]
    (∀ v ∈ valuesOf "class" as, HasMarkupBlanksOnly v) ∧
      (∀ v ∈ valuesOf "class" bs, HasMarkupBlanksOnly v) ∧
      ∃ rs ss : List Attr,
        (sortAttributes (as.map Attr.toValue)).result = .ok (rs.map Attr.toValue) ∧
        (sortAttributes (bs.map Attr.toValue)).result = .ok (ss.map Attr.toValue) ∧
        (Value.list (rs.map Attr.toValue)).equal (.list (ss.map Attr.toValue)) = true := by
  intro as bs
  have ha : ∀ v ∈ valuesOf "class" as, HasMarkupBlanksOnly v := by
    simp [as, valuesOf, Attr.named, HasMarkupBlanksOnly, Text.isBlank, Text.isMarkupBlank]
  have hb : ∀ v ∈ valuesOf "class" bs, HasMarkupBlanksOnly v := by
    simp [bs, valuesOf, Attr.named, HasMarkupBlanksOnly, Text.isBlank, Text.isMarkupBlank]
  have hagree : Agree markupTokensOf as bs := by
    refine ⟨fun name hname => ?_, .cons (by decide +kernel) .nil⟩
    simp [as, bs, valuesOf, Attr.named, List.filter_cons, Ne.symm hname]
  obtain ⟨ks, rs, ls, ss, hleft, -, hright, -, -, hiff⟩ := sorting_attributes_is_canonical as bs
  exact ⟨ha, hb, rs, ss, by rw [hleft], by rw [hright], (hiff ha hb).mpr hagree⟩

-- A no-break space parts two class words, though it stands inside one token of markup.
theorem sorting_no_break_space :
    let as : List Attr := [⟨"class", "x\u00a0y"⟩]
    let bs : List Attr := [⟨"class", "x y"⟩]
    (sortAttributes (as.map Attr.toValue)).result =
      (sortAttributes (bs.map Attr.toValue)).result ∧ ¬Agree markupTokensOf as bs := by
  intro as bs
  constructor
  · have hagree : Agree wordsOf as bs := by
      refine ⟨fun name hname => ?_, .cons (by decide +kernel) .nil⟩
      simp [as, bs, valuesOf, Attr.named, Ne.symm hname]
    rw [Tree.sortAttributes_map, Tree.sortAttributes_map, Attr.sorted_eq_iff_agree.mpr hagree]
  · rintro ⟨-, hclasses⟩
    obtain ⟨hperm, -⟩ := List.forall₂_cons.mp hclasses
    exact absurd hperm (by decide +kernel)

end MarkupDiff
