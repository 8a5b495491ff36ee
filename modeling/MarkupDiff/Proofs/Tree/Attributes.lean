import MarkupDiff.Proofs.Node.AttributeOrder
import MarkupDiff.Tree.Normalize
import Mathlib.Data.List.Sort

namespace MarkupDiff

namespace Attr

-- Where the next attribute goes: behind all whose names do not come after its own.
abbrev NameLt (a b : Attr) : Prop :=
  a.name < b.name

theorem nameLe_of_nameLt {a b : Attr} (h : NameLt a b) : nameLe a b = true :=
  textLe_iff.mpr (Std.le_of_lt h)

theorem nameLe_iff_not_nameLt {a b : Attr} : nameLe a b = true ↔ ¬NameLt b a := by
  rw [nameLe, textLe_iff, String.not_lt]

theorem pairwise_orderedInsert {a : Attr} {as : List Attr}
    (h : as.Pairwise fun a b => nameLe a b = true) :
    (as.orderedInsert NameLt a).Pairwise fun a b => nameLe a b = true := by
  induction as with
  | nil => simp
  | cons b as ih =>
    obtain ⟨hb, htail⟩ := List.pairwise_cons.mp h
    by_cases hab : NameLt a b
    · rw [List.orderedInsert_cons, if_pos hab]
      refine List.pairwise_cons.mpr ⟨fun c hc => ?_, h⟩
      rcases List.mem_cons.mp hc with rfl | hc
      · exact nameLe_of_nameLt hab
      · exact nameLe_trans a b c (nameLe_of_nameLt hab) (hb c hc)
    · rw [List.orderedInsert_cons, if_neg hab]
      refine List.pairwise_cons.mpr ⟨fun c hc => ?_, ih htail⟩
      rcases (List.mem_orderedInsert NameLt).mp hc with rfl | hc
      · exact nameLe_iff_not_nameLt.mpr hab
      · exact hb c hc

theorem named_append (name : String) (as bs : List Attr) :
    named name (as ++ bs) = named name as ++ named name bs :=
  List.filter_append as bs

-- An attribute that goes in comes after those of its own name.
theorem named_orderedInsert {a : Attr} {as : List Attr}
    (h : as.Pairwise fun a b => nameLe a b = true) (name : String) :
    named name (as.orderedInsert NameLt a) = named name (as ++ [a]) := by
  induction as with
  | nil => rfl
  | cons b as ih =>
    obtain ⟨hb, htail⟩ := List.pairwise_cons.mp h
    by_cases hab : NameLt a b
    · rw [List.orderedInsert_cons, if_pos hab]
      -- all that stand here come after it by name
      have hafter : ∀ c ∈ b :: as, a.name ≠ c.name := by
        intro c hc
        rcases List.mem_cons.mp hc with rfl | hc
        · exact Std.ne_of_lt hab
        · exact Std.ne_of_lt (Std.lt_of_lt_of_le hab (textLe_iff.mp (hb c hc)))
      by_cases hname : a.name = name
      · have hnone : named name (b :: as) = [] := by
          refine List.filter_eq_nil_iff.mpr fun c hc => ?_
          simpa using fun hc' : c.name = name => hafter c hc (hname.trans hc'.symm)
        subst hname
        rw [named_cons_self, named_append, hnone, named_cons_self]
        rfl
      · rw [named_cons_of_ne hname, named_append, named_cons_of_ne hname]
        simp [named]
    · rw [List.orderedInsert_cons, if_neg hab, List.cons_append, named, named,
        List.filter_cons, List.filter_cons, ← named, ← named, ih htail]

-- Putting the attributes in one after the other sorts them.
theorem foldl_orderedInsert_eq_mergeSort (attrs : List Attr) :
    attrs.foldl (fun sorted a => sorted.orderedInsert NameLt a) [] = attrs.mergeSort nameLe := by
  suffices hrun : ∀ bs : List Attr, (bs.Pairwise fun a b => nameLe a b = true) →
      ((attrs.foldl (fun sorted a => sorted.orderedInsert NameLt a) bs).Pairwise fun a b =>
        nameLe a b = true) ∧
      ∀ name, named name (attrs.foldl (fun sorted a => sorted.orderedInsert NameLt a) bs) =
        named name (bs ++ attrs) by
    obtain ⟨hsorted, hnamed⟩ := hrun [] List.Pairwise.nil
    refine eq_of_named_eq hsorted (List.pairwise_mergeSort nameLe_trans nameLe_total _) ?_
    intro name
    rw [hnamed, named_mergeSort, List.nil_append]
  induction attrs with
  | nil => exact fun bs hbs => ⟨hbs, fun name => by simp⟩
  | cons a attrs ih =>
    intro bs hbs
    obtain ⟨hsorted, hnamed⟩ := ih _ (pairwise_orderedInsert (a := a) hbs)
    refine ⟨hsorted, fun name => ?_⟩
    have hinsert := named_orderedInsert (a := a) hbs name
    rw [List.foldl_cons, hnamed, named_append, hinsert, ← named_append, ← List.append_cons]

end Attr

namespace Tree

open Attr (NameLt)

-- Attributes with their positions, the next one behind all whose names do not come after its own.
abbrev PlacedLt (p q : Attr × Nat) : Prop :=
  NameLt p.1 q.1

def namedPosition (p : Attr × Nat) : Value × Nat :=
  (.text p.1.name, p.2)

theorem insertByKey_map (p : Attr × Nat) (ps : List (Attr × Nat)) :
    Value.insertByKey (namedPosition p) (ps.map namedPosition) =
      .ok ((ps.orderedInsert PlacedLt p).map namedPosition) := by
  induction ps with
  | nil => rfl
  | cons q ps ih =>
    have hprecedes : Value.precedes (namedPosition p).1 (namedPosition q).1 =
        .ok (decide (PlacedLt p q)) := rfl
    rw [List.map_cons, Value.insertByKey, hprecedes, List.orderedInsert_cons]
    by_cases hpq : PlacedLt p q
    · simp [bind, Except.bind, pure, Except.pure, hpq]
    · simp [bind, Except.bind, pure, Except.pure, hpq, ih]

theorem sortByKey_map (ps : List (Attr × Nat)) :
    Value.sortByKey (ps.map namedPosition) =
      .ok ((ps.foldl (fun sorted p => sorted.orderedInsert PlacedLt p) []).map (·.2)) := by
  have hrun : ∀ qs : List (Attr × Nat),
      (ps.map namedPosition).foldlM (fun sorted p => Value.insertByKey p sorted)
          (qs.map namedPosition) =
        .ok ((ps.foldl (fun sorted p => sorted.orderedInsert PlacedLt p) qs).map
          namedPosition) := by
    induction ps with
    | nil => exact fun qs => rfl
    | cons p ps ih =>
      intro qs
      rw [List.map_cons, List.foldlM_cons, insertByKey_map, List.foldl_cons]
      exact ih _
  rw [Value.sortByKey, show ([] : List (Value × Nat)) = [].map namedPosition from rfl, hrun]
  simp [Except.map, namedPosition, Function.comp_def]

theorem foldl_orderedInsert_perm (ps qs : List (Attr × Nat)) :
    (ps.foldl (fun sorted p => sorted.orderedInsert PlacedLt p) qs).Perm (qs ++ ps) := by
  induction ps generalizing qs with
  | nil => simp
  | cons p ps ih =>
    have hinsert := (List.perm_orderedInsert PlacedLt p qs).append_right ps
    exact (ih _).trans (hinsert.trans List.perm_middle.symm)

theorem map_fst_foldl_orderedInsert (ps qs : List (Attr × Nat)) :
    (ps.foldl (fun sorted p => sorted.orderedInsert PlacedLt p) qs).map (·.1) =
      (ps.map (·.1)).foldl (fun sorted a => sorted.orderedInsert NameLt a) (qs.map (·.1)) := by
  induction ps generalizing qs with
  | nil => rfl
  | cons p ps ih =>
    have hinsert : (qs.orderedInsert PlacedLt p).map (·.1) =
        (qs.map (·.1)).orderedInsert NameLt p.1 :=
      List.map_orderedInsert PlacedLt NameLt _ qs p (fun _ _ => Iff.rfl) fun _ _ => Iff.rfl
    rw [List.foldl_cons, ih, hinsert, List.map_cons, List.foldl_cons]

-- The positions of attributes come out in the order of the attributes.
theorem orderByName_map (attrs : List Attr) :
    ∃ ps : List (Attr × Nat), orderByName (attrs.map Attr.toValue) = .ok (ps.map (·.2)) ∧
      ps.map (·.1) = attrs.mergeSort Attr.nameLe ∧ ps.Perm attrs.zipIdx := by
  refine ⟨attrs.zipIdx.foldl (fun sorted p => sorted.orderedInsert PlacedLt p) [], ?_, ?_,
    foldl_orderedInsert_perm _ []⟩
  · have hnames : ∀ as : List Attr, (as.map Attr.toValue).mapM (·.named "name") =
        .ok (as.map fun a => Value.text a.name) := by
      intro as
      induction as with
      | nil => rfl
      | cons a as ih =>
        rw [List.map_cons, List.mapM_cons, ih]
        rfl
    have hzip : (attrs.map fun a => Value.text a.name).zip
        (List.range (attrs.map Attr.toValue).length) = attrs.zipIdx.map namedPosition := by
      rw [List.length_map, List.zipIdx_eq_zip_range', ← List.range_eq_range',
        List.zip_map_left]
      rfl
    rw [orderByName, hnames, ← sortByKey_map, ← hzip]
    rfl
  · rw [map_fst_foldl_orderedInsert, ← Attr.foldl_orderedInsert_eq_mergeSort]
    simp

theorem canonicalAttr_toValue (a : Attr) :
    canonicalAttr a.toValue = .ok a.canonical.toValue := by
  by_cases hclass : a.name = "class"
  · obtain ⟨name, v⟩ := a
    obtain rfl : name = "class" := hclass
    rfl
  · have hname : a.toValue.named "name" = .ok (.text a.name) := rfl
    simp [canonicalAttr, hname, bind, Except.bind, pure, Except.pure, Value.isText, Value.text?,
      Attr.canonical, hclass]

theorem getD_set_of_ne {items : List Value} {i j : Nat} (h : i ≠ j) (v : Value) :
    (items.set i v).getD j .null = items.getD j .null := by
  simp [List.getD_eq_getElem?_getD, h]

-- Attributes at different positions do not get in each other's way.
theorem canonicalAt_map {ps : List (Attr × Nat)} {items : List Value}
    (hitems : ∀ p ∈ ps, items.getD p.2 .null = p.1.toValue) (hnodup : (ps.map (·.2)).Nodup) :
    (canonicalAt items (ps.map (·.2))).result = .ok (ps.map fun p => p.1.canonical.toValue) := by
  induction ps generalizing items with
  | nil => rfl
  | cons p ps ih =>
    obtain ⟨hp, hrest⟩ := List.nodup_cons.mp hnodup
    have hlater : ∀ q ∈ ps,
        (items.set p.2 p.1.canonical.toValue).getD q.2 .null = q.1.toValue := by
      intro q hq
      have hmem : q.2 ∈ ps.map (·.2) := List.mem_map_of_mem hq
      have hne : p.2 ≠ q.2 := fun heq => hp (by rwa [← heq] at hmem)
      rw [getD_set_of_ne hne]
      exact hitems q (List.mem_cons_of_mem _ hq)
    rw [List.map_cons, canonicalAt, hitems p List.mem_cons_self, canonicalAttr_toValue]
    simp [ih hlater hrest, Except.map]

theorem sortAttributes_map (attrs : List Attr) :
    (sortAttributes (attrs.map Attr.toValue)).result =
      .ok ((Attr.sorted attrs).map Attr.toValue) := by
  obtain ⟨ps, hps, hsorted, hperm⟩ := orderByName_map attrs
  have hitems : ∀ p ∈ ps, (attrs.map Attr.toValue).getD p.2 .null = p.1.toValue := by
    intro p hp
    have hmem := List.mem_zipIdx_iff_getElem?.mp (hperm.subset hp)
    simp [List.getD_eq_getElem?_getD, hmem]
  have hnodup : (ps.map (·.2)).Nodup := by
    rw [(hperm.map (·.2)).nodup_iff, List.zipIdx_map_snd]
    exact List.nodup_range'
  rw [sortAttributes, hps]
  simp only [canonicalAt_map hitems hnodup, Attr.sorted]
  rw [show (fun a b : Attr => textLe a.name b.name) = Attr.nameLe from rfl, ← hsorted, List.map_map,
    List.map_map]
  rfl

end Tree

end MarkupDiff
