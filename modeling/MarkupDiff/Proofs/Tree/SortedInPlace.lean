import MarkupDiff.Proofs.Tree.Attributes

namespace MarkupDiff.Tree

-- What sorting still has to do to a list: attributes at the positions to come are as they were
-- given, and everywhere else the list holds what it will hold in the end.
structure Remaining (ps : List (Attr × Nat)) (items done : List Value) : Prop where
  given : ∀ p ∈ ps, items[p.2]? = some p.1.toValue
  reached : ∀ p ∈ ps, done[p.2]? = some p.1.canonical.toValue
  others : ∀ i, i ∉ ps.map (·.2) → items[i]? = done[i]?

theorem Remaining.next {p : Attr × Nat} {ps : List (Attr × Nat)} {items done : List Value}
    (h : Remaining (p :: ps) items done) (hnodup : ((p :: ps).map (·.2)).Nodup) :
    Remaining ps (items.set p.2 p.1.canonical.toValue) done := by
  obtain ⟨hp, _⟩ := List.nodup_cons.mp hnodup
  refine ⟨fun q hq => ?_, fun q hq => h.reached q (List.mem_cons_of_mem _ hq), fun i hi => ?_⟩
  · have hmem : q.2 ∈ ps.map (·.2) := List.mem_map_of_mem hq
    have hne : p.2 ≠ q.2 := fun heq => hp (by rwa [← heq] at hmem)
    rw [List.getElem?_set_ne hne]
    exact h.given q (List.mem_cons_of_mem _ hq)
  · by_cases hip : p.2 = i
    · subst hip
      obtain ⟨hlt, _⟩ := List.getElem?_eq_some_iff.mp (h.given p List.mem_cons_self)
      rw [List.getElem?_set_self hlt, h.reached p List.mem_cons_self]
    · rw [List.getElem?_set_ne hip]
      exact h.others i (by simpa [Ne.symm hip] using hi)

-- Once every position has had its turn, the list is as it will be in the end.
theorem items_canonicalAt {ps : List (Attr × Nat)} {items done : List Value}
    (h : Remaining ps items done) (hnodup : (ps.map (·.2)).Nodup) :
    (canonicalAt items (ps.map (·.2))).items = done := by
  induction ps generalizing items with
  | nil => exact List.ext_getElem? fun i => h.others i List.not_mem_nil
  | cons p ps ih =>
    have hgiven : items.getD p.2 .null = p.1.toValue := by
      simp [List.getD_eq_getElem?_getD, h.given p List.mem_cons_self]
    rw [List.map_cons, canonicalAt, hgiven, canonicalAttr_toValue]
    exact ih (h.next hnodup) (List.nodup_cons.mp hnodup).2

-- Sorting leaves the given attributes in their order, each in its usual form.
theorem sortAttributes_eq (attrs : List Attr) :
    sortAttributes (attrs.map Attr.toValue) =
      ⟨(attrs.map Attr.canonical).map Attr.toValue,
        .ok ((Attr.sorted attrs).map Attr.toValue)⟩ := by
  obtain ⟨ps, hps, -, hperm⟩ := orderByName_map attrs
  have hpositions : (ps.map (·.2)).Perm (List.range attrs.length) := by
    have hsnd := hperm.map (·.2)
    rwa [List.zipIdx_map_snd, ← List.range_eq_range'] at hsnd
  have hplaced : ∀ p ∈ ps, attrs[p.2]? = some p.1 := fun p hp =>
    List.mem_zipIdx_iff_getElem?.mp (hperm.subset hp)
  have hremaining : Remaining ps (attrs.map Attr.toValue)
      ((attrs.map Attr.canonical).map Attr.toValue) := by
    refine ⟨fun p hp => by simp [hplaced p hp], fun p hp => by simp [hplaced p hp], fun i hi => ?_⟩
    rw [hpositions.mem_iff, List.mem_range, Nat.not_lt] at hi
    simp [hi]
  have hitems : (sortAttributes (attrs.map Attr.toValue)).items =
      (attrs.map Attr.canonical).map Attr.toValue := by
    rw [sortAttributes, hps]
    exact items_canonicalAt hremaining (hpositions.nodup_iff.mpr List.nodup_range)
  rw [← hitems, ← sortAttributes_map]

end MarkupDiff.Tree
