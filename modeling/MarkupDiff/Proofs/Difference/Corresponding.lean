import MarkupDiff.Proofs.Value.Reordered

namespace MarkupDiff.Change

open Value (DistinctKeys lookup)

-- Two changes of one kind, under one key or index, at related paths and with related values.
inductive Corresponds (samePath : Path → Path → Prop) (sameValue : Value → Value → Prop) :
    Change → Change → Prop
  | edited {p q : Path} {v v' w w' : Value} (hp : samePath p q) (hv : sameValue v v')
      (hw : sameValue w w') : Corresponds samePath sameValue (.edited p v w) (.edited q v' w')
  | removedKey {p q : Path} {v v' : Value} (hp : samePath p q) (k : Value) (hv : sameValue v v') :
      Corresponds samePath sameValue (.removedKey p k v) (.removedKey q k v')
  | addedKey {p q : Path} {w w' : Value} (hp : samePath p q) (k : Value) (hw : sameValue w w') :
      Corresponds samePath sameValue (.addedKey p k w) (.addedKey q k w')
  | removedItem {p q : Path} {v v' : Value} (hp : samePath p q) (i : Nat) (hv : sameValue v v') :
      Corresponds samePath sameValue (.removedItem p i v) (.removedItem q i v')
  | addedItem {p q : Path} {w w' : Value} (hp : samePath p q) (i : Nat) (hw : sameValue w w') :
      Corresponds samePath sameValue (.addedItem p i w) (.addedItem q i w')

-- Related without regard to order, and so one after the other once one side is put in the right
-- order.
theorem exists_perm_of_rel {r : Change → Change → Prop} {cs ds : List Change}
    (h : Multiset.Rel r cs ds) : ∃ bs, bs.Perm cs ∧ List.Forall₂ r bs ds := by
  induction ds generalizing cs with
  | nil =>
    rw [Multiset.coe_nil, Multiset.rel_zero_right, Multiset.coe_eq_zero] at h
    exact ⟨[], h ▸ .refl _, .nil⟩
  | cons d ds ih =>
    rw [← Multiset.cons_coe, Multiset.rel_cons_right] at h
    obtain ⟨b, rest, hbd, hrest, hcs⟩ := h
    obtain ⟨rest, rfl⟩ := Quot.exists_rep rest
    obtain ⟨bs, hperm, hbs⟩ := ih hrest
    have hcs : cs.Perm (b :: rest) := Multiset.coe_eq_coe.mp hcs
    exact ⟨b :: bs, (hperm.cons b).trans hcs.symm, .cons hbd hbs⟩

variable {path : Path}

-- What the walk through two records says about two entries: something, if they have one key.
def matched (path : Path) (e f : Value × Value) : List Change :=
  if e.1.equal f.1 then between ignoringNothing (path ++ [e.1]) e.2 f.2 else []

-- What it says about an entry whose key the other record lacks.
def unmatched (change : Value → Value → Change) (others : List (Value × Value))
    (e : Value × Value) : List Change :=
  if (lookup e.1 others).isNone then [change e.1 e.2] else []

theorem foreign_eq_flatMap (es fs : List (Value × Value)) :
    foreign ignoringNothing path es fs = fs.flatMap (unmatched (.addedKey path) es) := by
  induction fs with
  | nil => rfl
  | cons f fs ih =>
    rw [List.flatMap_cons, ← ih, unmatched, foreign, List.filter_cons]
    split <;> simp_all [foreign]

-- No more than one entry of a record has the key of a given one.
theorem inEntry_eq_append {fs : List (Value × Value)} (hfs : DistinctKeys fs)
    {e : Value × Value} (he : e.1.IsKey) : inEntry ignoringNothing path fs e =
      fs.flatMap (matched path e) ++ unmatched (.removedKey path) fs e := by
  have hnone : ∀ gs : List (Value × Value), (∀ f ∈ gs, e.1.equal f.1 = false) →
      gs.flatMap (matched path e) = [] := by
    intro gs hgs
    refine List.flatMap_eq_nil_iff.mpr fun f hf => ?_
    rw [matched, hgs f hf]
    rfl
  cases hlookup : lookup e.1 fs with
  | none =>
    rw [inEntry_of_none hlookup, hnone fs (Value.lookup_eq_none_iff.mp hlookup), unmatched, hlookup]
    rfl
  | some w =>
    obtain ⟨k, hmem, hequal⟩ := Value.exists_mem_of_lookup hlookup
    have hk := hfs.isKey _ hmem
    obtain ⟨before, after, rfl⟩ := List.append_of_mem hmem
    have hother : ∀ f : Value × Value, f.1.IsKey → k.equal f.1 = false → e.1.equal f.1 = false := by
      intro f hf hne
      rw [← Bool.not_eq_true, Value.equal_iff_form_eq hk hf] at hne
      rw [← Bool.not_eq_true, Value.equal_iff_form_eq he hf,
        (Value.equal_iff_form_eq he hk).mp hequal]
      exact hne
    have hbefore := hnone before fun f hf =>
      hother f (hfs.isKey f (by simp [hf])) (hfs.others.1 f hf)
    have hafter := hnone after fun f hf =>
      hother f (hfs.isKey f (by simp [hf])) (hfs.others.2 f hf)
    rw [inEntry_of_some hlookup, List.flatMap_append, List.flatMap_cons, hbefore, hafter,
      unmatched, hlookup, matched, hequal]
    simp

-- The changes between two records, in no order: those between entries under one key, and one for
-- each entry whose key the other record lacks.
theorem coe_between_record {es fs : List (Value × Value)} (hes : ∀ e ∈ es, e.1.IsKey)
    (hfs : DistinctKeys fs) :
    (between ignoringNothing path (.record es) (.record fs) : Multiset Change) =
      (es : Multiset (Value × Value)).bind (fun e =>
          (fs : Multiset (Value × Value)).bind fun f => matched path e f) +
        ((es : Multiset (Value × Value)).bind (fun e => unmatched (.removedKey path) fs e) +
          (fs : Multiset (Value × Value)).bind fun f => unmatched (.addedKey path) es f) := by
  have hentries : (es : Multiset (Value × Value)).bind
      (fun e => (inEntry ignoringNothing path fs e : Multiset Change)) =
      (es : Multiset (Value × Value)).bind fun e =>
        (fs : Multiset (Value × Value)).bind (fun f => (matched path e f : Multiset Change)) +
          (unmatched (.removedKey path) fs e : Multiset Change) := by
    refine Multiset.bind_congr fun e he => ?_
    rw [inEntry_eq_append hfs (hes e he), Multiset.coe_bind, Multiset.coe_add]
  rw [between, inEntries_eq_flatMap, foreign_eq_flatMap, ← Multiset.coe_add, ← Multiset.coe_bind,
    ← Multiset.coe_bind, hentries, Multiset.bind_add, add_assoc]

theorem rel_unmatched {r : Change → Change → Prop} {change change' : Value → Value → Change}
    {gs hs : List (Value × Value)} {e f : Value × Value}
    (hnone : (lookup e.1 gs).isNone = (lookup f.1 hs).isNone)
    (h : r (change e.1 e.2) (change' f.1 f.2)) :
    Multiset.Rel r (unmatched change gs e) (unmatched change' hs f) := by
  rw [unmatched, unmatched, hnone]
  split
  · exact .cons h .zero
  · exact .zero

theorem surplus_cons (change : Nat → Value → Change) (i : Nat) (x : Value) (xs : List Value) :
    surplus change i (x :: xs) = change i x :: surplus change (i + 1) xs := by
  rw [surplus, List.zipIdx_cons, List.map_cons, surplus]

theorem rel_surplus {r : Value → Value → Prop} {s : Change → Change → Prop}
    {change change' : Nat → Value → Change}
    (h : ∀ i x y, r x y → s (change i x) (change' i y)) {xs ys : List Value}
    (hxy : List.Forall₂ r xs ys) (i : Nat) :
    Multiset.Rel s (surplus change i xs) (surplus change' i ys) := by
  induction hxy generalizing i with
  | nil => exact .zero
  | cons hx _ ih =>
    rw [surplus_cons, surplus_cons]
    exact .cons (h i _ _ hx) (ih (i + 1))

end MarkupDiff.Change
