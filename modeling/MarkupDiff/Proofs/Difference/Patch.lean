import MarkupDiff.Proofs.Difference.Agreement
import MarkupDiff.Proofs.Difference.Membership
import MarkupDiff.Proofs.Place.Item

namespace MarkupDiff

open Value (DistinctKeys lookup)

def Value.appended (container item : Value) : Except Fault Value :=
  match container with
  | .list xs => .ok (.list (xs ++ [item]))
  | v => .error (.noMember v.kind "append")

-- What stands at the end of a path becomes something else, and everything around it stays.
def Place.changed (p : Place) (path : Path) (effect : Value → Except Fault Value) :
    Except Fault Value := do
  let q ← p.follow path
  let v ← effect q.focus
  return rebuilt { q with focus := v }

namespace Change

def site : Change → Path
  | edited p _ _ => p
  | removedKey p _ _ => p
  | addedKey p _ _ => p
  | removedItem p _ _ => p
  | addedItem p _ _ => p

-- What becomes of the value there: it gives way to the right one, or loses or gains a key or an
-- item. An item is added at the end.
def effect : Change → Value → Except Fault Value
  | edited _ _ w, _ => .ok w
  | removedKey _ k _, v => Place.removed v k
  | addedKey _ k w, v => Place.replaced v k w
  | removedItem _ i _, v => Place.removed v (.nat i)
  | addedItem _ _ w, v => v.appended w

def applied (c : Change) (v : Value) : Except Fault Value :=
  (Place.root v).changed c.site c.effect

def appliedAll (cs : List Change) (v : Value) : Except Fault Value :=
  cs.foldlM (fun v c => c.applied v) v

-- The first change may come before the second one: the items of one list are taken out from the
-- last one on, and put in from the first one on.
def MayPrecede : Change → Change → Prop
  | removedItem p i _, removedItem q j _ => p = q → j ≤ i
  | addedItem p i _, addedItem q j _ => p = q → i ≤ j
  | _, _ => True

theorem exists_append_of_getElem? {α : Type} {as : List α} {i : Nat} {a : α}
    (h : as[i]? = some a) : ∃ before after, as = before ++ a :: after ∧ before.length = i := by
  obtain ⟨hlt, rfl⟩ := List.getElem?_eq_some_iff.mp h
  refine ⟨as.take i, as.drop (i + 1), ?_, List.length_take_of_le (Nat.le_of_lt hlt)⟩
  rw [← List.drop_eq_getElem_cons hlt, List.take_append_drop]

section Lists

variable {path : Path}

theorem inItems_append {ignore : Path → Value → Bool} {i : Nat} {xs ys : List Value}
    (h : xs.length = ys.length) (xs' ys' : List Value) :
    inItems ignore path i (xs ++ xs') (ys ++ ys') =
      inItems ignore path i xs ys ++ inItems ignore path (i + xs.length) xs' ys' := by
  induction xs generalizing i ys with
  | nil =>
    obtain rfl := List.length_eq_zero_iff.mp h.symm
    rfl
  | cons x xs ih =>
    cases ys with
    | nil => exact absurd h (by simp)
    | cons y ys =>
      have hrest := @ih (i + 1) ys (Nat.succ.inj h)
      have hnext : i + 1 + xs.length = i + (x :: xs).length := by
        rw [List.length_cons]
        omega
      rw [List.cons_append, List.cons_append, inItems, hrest, inItems, List.append_assoc, hnext]

theorem inItems_nil_right {ignore : Path → Value → Bool} (i : Nat) (xs : List Value) :
    inItems ignore path i xs [] = surplus (.removedItem path) i xs := by
  cases xs <;> rfl

theorem inItems_nil_left {ignore : Path → Value → Bool} (i : Nat) (ys : List Value) :
    inItems ignore path i [] ys = surplus (.addedItem path) i ys := by
  cases ys <;> rfl

theorem surplus_append {change : Nat → Value → Change} (i : Nat) (xs ys : List Value) :
    surplus change i (xs ++ ys) = surplus change i xs ++ surplus change (i + xs.length) ys := by
  rw [surplus, List.zipIdx_append, List.map_append]
  rfl

-- Without its last item, a list that is too long has one change less.
theorem inItems_concat_of_le {ignore : Path → Value → Bool} {xs ys : List Value} {x : Value}
    (h : ys.length ≤ xs.length) :
    inItems ignore path 0 (xs ++ [x]) ys =
      inItems ignore path 0 xs ys ++ [.removedItem path xs.length x] := by
  have htake : (xs.take ys.length).length = ys.length := by simp [h]
  have hsplit : ∀ zs, inItems ignore path 0 (xs ++ zs) ys =
      inItems ignore path 0 (xs.take ys.length) ys ++
        surplus (.removedItem path) ys.length (xs.drop ys.length ++ zs) := by
    intro zs
    have hjoin : inItems ignore path 0 (xs.take ys.length ++ (xs.drop ys.length ++ zs))
        (ys ++ []) = _ := inItems_append htake _ _
    rw [← List.append_assoc, List.take_append_drop, List.append_nil, inItems_nil_right, htake,
      Nat.zero_add] at hjoin
    exact hjoin
  have hxs := hsplit []
  rw [List.append_nil, List.append_nil] at hxs
  rw [hsplit, hxs, surplus_append, List.append_assoc]
  have hlen : ys.length + (xs.drop ys.length).length = xs.length := by
    rw [List.length_drop]
    omega
  rw [hlen]
  rfl

-- With its next item added, a list that is too short has one change less.
theorem inItems_concat_right (path : Path) {xs ys : List Value} {y : Value}
    (h : xs.length = ys.length) (hy : y.Nested) (zs : List Value) :
    inItems ignoringNothing path 0 xs (ys ++ y :: zs) =
        inItems ignoringNothing path 0 xs ys ++
          .addedItem path xs.length y :: surplus (.addedItem path) (xs.length + 1) zs ∧
      inItems ignoringNothing path 0 (xs ++ [y]) (ys ++ y :: zs) =
        inItems ignoringNothing path 0 xs ys ++ surplus (.addedItem path) (xs.length + 1) zs := by
  constructor
  · have hjoin : inItems ignoringNothing path 0 (xs ++ []) (ys ++ y :: zs) = _ :=
      inItems_append h _ _
    rw [List.append_nil, Nat.zero_add, inItems_nil_left] at hjoin
    exact hjoin
  · rw [inItems_append h, inItems, between_self hy, List.nil_append, Nat.zero_add,
      inItems_nil_left]

end Lists

section Records

variable {path : Path} {es fs before after : List (Value × Value)} {k v w : Value}

theorem isNone_lookup_iff : (lookup k es).isNone = true ↔ ∀ e ∈ es, k.equal e.1 = false := by
  rw [Option.isNone_iff_eq_none, Value.lookup_eq_none_iff]

-- Which entries are found on the right only depends on the keys on the left.
theorem foreign_congr {es' : List (Value × Value)} (h : es.map (·.1) = es'.map (·.1)) :
    foreign ignoringNothing path es fs = foreign ignoringNothing path es' fs := by
  have hkeys : ∀ {ds : List (Value × Value)} {k : Value},
      (lookup k ds).isNone = true ↔ ∀ key ∈ ds.map (·.1), k.equal key = false := by
    intro ds k
    rw [isNone_lookup_iff, List.forall_mem_map]
  unfold foreign
  rw [List.filter_congr]
  intro f _
  rw [Bool.eq_iff_iff, Bool.and_eq_true, Bool.and_eq_true, hkeys, hkeys, h]

theorem between_record_split (h : lookup k fs = some w) :
    between ignoringNothing path (.record (before ++ (k, v) :: after)) (.record fs) =
      before.flatMap (inEntry ignoringNothing path fs) ++
        (between ignoringNothing (path ++ [k]) v w ++
          (after.flatMap (inEntry ignoringNothing path fs) ++
            foreign ignoringNothing path (before ++ (k, v) :: after) fs)) := by
  rw [between, inEntries_eq_flatMap, List.flatMap_append, List.flatMap_cons,
    inEntry_of_some (e := (k, v)) h]
  simp only [List.append_assoc]

-- Without a key that the right record lacks, a record has one change less.
theorem between_record_drop (hes : DistinctKeys (before ++ (k, v) :: after))
    (hfs : ∀ f ∈ fs, f.1.IsKey) (h : lookup k fs = none) :
    (between ignoringNothing path (.record (before ++ (k, v) :: after)) (.record fs)).Perm
      (.removedKey path k v ::
        between ignoringNothing path (.record (before ++ after)) (.record fs)) := by
  have hk : k.IsKey := hes.isKey (k, v) (by simp)
  have hforeign : foreign ignoringNothing path (before ++ (k, v) :: after) fs =
      foreign ignoringNothing path (before ++ after) fs := by
    unfold foreign
    rw [List.filter_congr]
    intro f hf
    have hne : f.1.equal k = false := by
      rw [Value.equal_eq_false_comm (hfs f hf) hk]
      exact Value.lookup_eq_none_iff.mp h f hf
    rw [Bool.eq_iff_iff, Bool.and_eq_true, Bool.and_eq_true, isNone_lookup_iff, isNone_lookup_iff]
    simp [or_imp, forall_and, hne]
  rw [between, between, inEntries_eq_flatMap, inEntries_eq_flatMap, hforeign, List.flatMap_append,
    List.flatMap_append, List.flatMap_cons, inEntry_of_none (e := (k, v)) h]
  simp only [List.append_assoc, List.singleton_append]
  exact List.perm_middle

-- With a key that only the right record has, a record has one change less.
theorem between_record_put (hfs : DistinctKeys (before ++ (k, w) :: after)) (hw : w.Nested)
    (h : lookup k es = none) :
    (between ignoringNothing path (.record es) (.record (before ++ (k, w) :: after))).Perm
      (.addedKey path k w :: between ignoringNothing path (.record (es ++ [(k, w)]))
        (.record (before ++ (k, w) :: after))) := by
  have hk : k.IsKey := hfs.isKey (k, w) (by simp)
  have hentry : inEntry ignoringNothing path (before ++ (k, w) :: after) (k, w) = [] := by
    rw [inEntry_of_some (e := (k, w)) (Value.lookup_split hfs), between_self hw]
  have hother : ∀ f : Value × Value, f.1.IsKey → k.equal f.1 = false →
      ((lookup f.1 (es ++ [(k, w)])).isNone && !ignoringNothing path f.1) =
        ((lookup f.1 es).isNone && !ignoringNothing path f.1) := by
    intro f hf hne
    rw [Value.equal_eq_false_comm hk hf] at hne
    rw [Bool.eq_iff_iff, Bool.and_eq_true, Bool.and_eq_true, isNone_lookup_iff, isNone_lookup_iff]
    simp [or_imp, forall_and, hne]
  have hfilter : ∀ ds : List (Value × Value), (∀ f ∈ ds, f.1.IsKey ∧ k.equal f.1 = false) →
      foreign ignoringNothing path (es ++ [(k, w)]) ds = foreign ignoringNothing path es ds := by
    intro ds hds
    unfold foreign
    rw [List.filter_congr fun f hf => hother f (hds f hf).1 (hds f hf).2]
  have hsplit : ∀ ds, foreign ignoringNothing path ds (before ++ (k, w) :: after) =
      foreign ignoringNothing path ds before ++ (foreign ignoringNothing path ds [(k, w)] ++
        foreign ignoringNothing path ds after) := by
    intro ds
    unfold foreign
    rw [← List.map_append, ← List.map_append, ← List.filter_append, ← List.filter_append,
      List.singleton_append]
  have hbefore := hfilter before fun f hf => ⟨hfs.isKey f (by simp [hf]), hfs.others.1 f hf⟩
  have hafter := hfilter after fun f hf => ⟨hfs.isKey f (by simp [hf]), hfs.others.2 f hf⟩
  have hold : foreign ignoringNothing path es [(k, w)] = [.addedKey path k w] := by
    simp [foreign, h]
  have hnew : foreign ignoringNothing path (es ++ [(k, w)]) [(k, w)] = [] := by
    rw [foreign_eq_nil_iff]
    simp [lookup, Value.equal_refl_of_isKey hk]
  rw [between, between, inEntries_eq_flatMap, inEntries_eq_flatMap, List.flatMap_append,
    List.flatMap_singleton, hentry, List.append_nil, hsplit, hsplit, hbefore, hafter, hold, hnew,
    List.nil_append, ← List.append_assoc, List.singleton_append, ← List.append_assoc]
  exact List.perm_middle

end Records

-- A change takes effect below a path, if its site is there: the value that it makes out of the left
-- one differs from the right one in everything else, and no more in this.
def TakesEffect (path : Path) (v w : Value) (c : Change) : Prop :=
  ∃ rest v', c.site = path ++ rest ∧
    (∀ above, (Place.mk v above).changed rest c.effect = .ok (Place.rebuilt ⟨v', above⟩)) ∧
    v'.Nested ∧
    (between ignoringNothing path v w).Perm (c :: between ignoringNothing path v' w)

theorem takesEffect_here (v' : Value) {path : Path} {v w : Value} {c : Change}
    (hsite : c.site = path) (heffect : c.effect v = .ok v') (hv' : v'.Nested)
    (hperm : (between ignoringNothing path v w).Perm
      (c :: between ignoringNothing path v' w)) : c.TakesEffect path v w := by
  refine ⟨[], v', by rw [hsite, List.append_nil], ?_, hv', hperm⟩
  intro above
  simp [Place.changed, Place.follow, heffect, bind, Except.bind, pure, Except.pure]

-- What takes effect one step further in takes effect in the value around it.
theorem takesEffect_inside {path : Path} {s v x w y : Value} {c : Change}
    (hitem : ∀ above, (Place.mk v above).item s = .ok ⟨x, ⟨v, s⟩ :: above⟩)
    (h : c.TakesEffect (path ++ [s]) x y)
    (hnested : ∀ x', x'.Nested → (Place.filled ⟨v, s⟩ x').Nested)
    (hperm : ∀ x', (between ignoringNothing (path ++ [s]) x y).Perm
        (c :: between ignoringNothing (path ++ [s]) x' y) →
      (between ignoringNothing path v w).Perm
        (c :: between ignoringNothing path (Place.filled ⟨v, s⟩ x') w)) :
    c.TakesEffect path v w := by
  obtain ⟨rest, x', hsite, hchanged, hx', hx⟩ := h
  refine ⟨s :: rest, Place.filled ⟨v, s⟩ x', by simp [hsite], ?_, hnested x' hx', hperm x' hx⟩
  intro above
  have := hchanged (⟨v, s⟩ :: above)
  simp only [Place.changed, Place.follow, hitem, Except.bind] at this ⊢
  exact this

theorem perm_cons_of_middle {α : Type} {a : α} {as bs bs' cs : List α} (h : bs.Perm (a :: bs')) :
    (as ++ (bs ++ cs)).Perm (a :: (as ++ (bs' ++ cs))) :=
  ((h.append_right cs).append_left as).trans List.perm_middle

section Containers

variable {path : Path} {c : Change} {k x w : Value} {before after fs : List (Value × Value)}

theorem takesEffect_entry (hv : (Value.record (before ++ (k, x) :: after)).Nested)
    (hlookup : lookup k fs = some w) (h : c.TakesEffect (path ++ [k]) x w) :
    c.TakesEffect path (.record (before ++ (k, x) :: after)) (.record fs) := by
  rw [Value.nested_record] at hv
  obtain ⟨hes, hvalues⟩ := hv
  have hkey : k.unhashablePart? = none := hes.isKey (k, x) (by simp)
  have howner : x ≠ .owner := (hvalues (k, x) (by simp)).ne_owner
  have hkeys : ∀ x' : Value, DistinctKeys (before ++ (k, x') :: after) :=
    fun x' => hes.congr (by simp)
  have hfilled : ∀ x', Place.filled ⟨.record (before ++ (k, x) :: after), k⟩ x' =
      .record (before ++ (k, x') :: after) := by
    intro x'
    simp only [Place.filled, Value.put_split hes]
  apply takesEffect_inside (fun above => ?_) h
  · intro x' hx'
    rw [hfilled, Value.nested_record]
    refine ⟨hkeys x', ?_⟩
    simp only [List.mem_append, List.mem_cons] at hvalues ⊢
    rintro e (he | rfl | he)
    · exact hvalues e (.inl he)
    · exact hx'
    · exact hvalues e (.inr (.inr he))
  · intro x' hx
    have hforeign : foreign ignoringNothing path (before ++ (k, x) :: after) fs =
        foreign ignoringNothing path (before ++ (k, x') :: after) fs :=
      foreign_congr (by simp)
    rw [hfilled, between_record_split hlookup, between_record_split hlookup, hforeign]
    exact perm_cons_of_middle hx
  · exact Place.item_key hkey (Value.lookup_split hes) howner above

theorem takesEffect_item {xs ys xs' ys' : List Value} {y : Value}
    (hv : ∀ z ∈ xs ++ x :: xs', z.Nested) (hlen : xs.length = ys.length)
    (h : c.TakesEffect (path ++ [.nat xs.length]) x y) :
    c.TakesEffect path (.list (xs ++ x :: xs')) (.list (ys ++ y :: ys')) := by
  have hfilled : ∀ x', Place.filled ⟨.list (xs ++ x :: xs'), .nat xs.length⟩ x' =
      .list (xs ++ x' :: xs') := by
    intro x'
    simp [Place.filled, Value.nat, Value.int, Value.int?]
  have hbetween : ∀ x' : Value, between ignoringNothing path (.list (xs ++ x' :: xs'))
      (.list (ys ++ y :: ys')) = inItems ignoringNothing path 0 xs ys ++
        (between ignoringNothing (path ++ [.nat xs.length]) x' y ++
          inItems ignoringNothing path (xs.length + 1) xs' ys') := by
    intro x'
    rw [between, inItems_append hlen, inItems, Nat.zero_add]
  apply takesEffect_inside (fun above => ?_) h
  · intro x' hx'
    rw [hfilled, Value.nested_list]
    simp only [List.mem_append, List.mem_cons] at hv ⊢
    rintro z (hz | rfl | hz)
    · exact hv z (.inl hz)
    · exact hx'
    · exact hv z (.inr (.inr hz))
  · intro x' hx
    rw [hfilled, hbetween, hbetween]
    exact perm_cons_of_middle hx
  · exact Place.item_nat (by simp) above

theorem takesEffect_removedKey (hv : (Value.record (before ++ (k, x) :: after)).Nested)
    (hfs : DistinctKeys fs) (hlookup : lookup k fs = none) :
    (removedKey path k x).TakesEffect path (.record (before ++ (k, x) :: after)) (.record fs) := by
  rw [Value.nested_record] at hv
  obtain ⟨hes, hvalues⟩ := hv
  have hkey : k.unhashablePart? = none := hes.isKey (k, x) (by simp)
  apply takesEffect_here (.record (before ++ after)) rfl
  · simp only [effect, Place.removed, hkey, Value.lookup_split hes, Value.drop_split hes]
  · rw [Value.nested_record]
    have hsub : (before ++ after).Sublist (before ++ (k, x) :: after) := by simp
    exact ⟨hes.sublist hsub, fun e he => hvalues e (hsub.subset he)⟩
  · exact between_record_drop hes hfs.isKey hlookup

theorem takesEffect_addedKey {es : List (Value × Value)} (hv : (Value.record es).Nested)
    (hw : (Value.record (before ++ (k, w) :: after)).Nested) (hlookup : lookup k es = none) :
    (addedKey path k w).TakesEffect path (.record es) (.record (before ++ (k, w) :: after)) := by
  rw [Value.nested_record] at hv hw
  have hk : k.IsKey := hw.1.isKey (k, w) (by simp)
  have hwn : w.Nested := hw.2 (k, w) (by simp)
  have hkey : k.unhashablePart? = none := hk
  apply takesEffect_here (.record (es ++ [(k, w)])) rfl
  · simp only [effect, Place.replaced, hkey, Value.put_of_lookup_eq_none hlookup]
  · rw [Value.nested_record]
    refine ⟨hv.1.concat hk (Value.lookup_eq_none_iff.mp hlookup), ?_⟩
    intro e he
    rcases List.mem_append.mp he with he | he
    · exact hv.2 e he
    · exact List.mem_singleton.mp he ▸ hwn
  · exact between_record_put hw.1 hwn hlookup

theorem takesEffect_removedItem {xs ys : List Value} (hxs : ∀ z ∈ xs ++ [x], z.Nested)
    (hlen : ys.length ≤ xs.length) :
    (removedItem path xs.length x).TakesEffect path (.list (xs ++ [x])) (.list ys) := by
  have hpos := Place.position_nat .list true (n := (xs ++ [x]).length) (i := xs.length) (by simp)
  apply takesEffect_here (.list xs) rfl
  · simp only [effect, Place.removed, hpos]
    simp [Except.map, List.eraseIdx_append_of_length_le]
  · exact Value.nested_list.mpr fun z hz => hxs z (List.mem_append_left _ hz)
  · rw [between, between, inItems_concat_of_le hlen]
    exact List.perm_append_singleton _ _

theorem takesEffect_addedItem {xs ys ys' : List Value} (hxs : ∀ z ∈ xs, z.Nested)
    (hw : w.Nested) (hlen : xs.length = ys.length) :
    (addedItem path xs.length w).TakesEffect path (.list xs) (.list (ys ++ w :: ys')) := by
  have hitems := inItems_concat_right path hlen hw ys'
  apply takesEffect_here (.list (xs ++ [w])) rfl rfl
  · rw [Value.nested_list]
    intro z hz
    rcases List.mem_append.mp hz with hz | hz
    · exact hxs z hz
    · exact List.mem_singleton.mp hz ▸ hw
  · simp only [site]
    rw [between, between, hitems.1, hitems.2]
    exact List.perm_middle

end Containers

-- An item that is taken out first has no item behind it.
theorem eq_nil_of_removedItem_first {path : Path} {xs zs ys : List Value} {x : Value}
    (hlength : ys.length ≤ xs.length)
    (hfirst : ∀ d ∈ inItems ignoringNothing path 0 (xs ++ x :: zs) ys,
      (Change.removedItem path (0 + xs.length) x).MayPrecede d) : zs = [] := by
  by_contra hne
  obtain ⟨z, hz⟩ : ∃ z, (xs ++ x :: zs)[xs.length + zs.length]? = some z :=
    ⟨_, List.getElem?_eq_getElem (by rw [List.length_append, List.length_cons]; omega)⟩
  have hlast := hfirst _ (mem_inItems.mpr (.inr (.inl
    ⟨xs.length + zs.length, z, by omega, hz, rfl⟩)))
  have hle := hlast rfl
  have := List.length_pos_iff.mpr hne
  omega

-- An item that is put in first comes right behind the items that are there.
theorem length_eq_of_addedItem_first {path : Path} {xs ys zs : List Value} {y : Value}
    (hlength : xs.length ≤ ys.length)
    (hfirst : ∀ d ∈ inItems ignoringNothing path 0 xs (ys ++ y :: zs),
      (Change.addedItem path (0 + ys.length) y).MayPrecede d) : xs.length = ys.length := by
  obtain ⟨z, hz⟩ : ∃ z, (ys ++ y :: zs)[xs.length]? = some z :=
    ⟨_, List.getElem?_eq_getElem (by rw [List.length_append, List.length_cons]; omega)⟩
  have hnext := hfirst _
    (mem_inItems.mpr (.inr (.inr ⟨xs.length, z, Nat.le_refl _, hz, rfl⟩)))
  have hle := hnext rfl
  omega

-- Every change between nested data takes effect, if it may come before all the others.
theorem takesEffect_of_mem {v w : Value} (hv : v.Nested) (hw : w.Nested) {path : Path} {c : Change}
    (hc : c ∈ between ignoringNothing path v w)
    (hfirst : ∀ d ∈ between ignoringNothing path v w, c.MayPrecede d) :
    c.TakesEffect path v w := by
  by_cases halike : v.Alike w
  · obtain ⟨es, fs, rfl, rfl⟩ | ⟨xs, ys, rfl, rfl⟩ := halike.cases
    · have hes := Value.nested_record.mp hv
      have hfs := Value.nested_record.mp hw
      rw [between, inEntries_eq_flatMap] at hc hfirst
      rcases List.mem_append.mp hc with hc | hc
      · obtain ⟨⟨k, x⟩, hmem, hentry⟩ := List.mem_flatMap.mp hc
        have hlt : sizeOf x < sizeOf (Value.record es) := Value.sizeOf_lt_record hmem
        obtain ⟨before, after, rfl⟩ := List.append_of_mem hmem
        cases hlookup : lookup k fs with
        | some y =>
          obtain ⟨k', hy, _⟩ := Value.exists_mem_of_lookup hlookup
          rw [inEntry_of_some (e := (k, x)) hlookup] at hentry
          refine takesEffect_entry hv hlookup
            (takesEffect_of_mem (hes.2 (k, x) hmem) (hfs.2 _ hy) hentry fun d hd => hfirst d ?_)
          apply List.mem_append_left
          exact List.mem_flatMap.mpr
            ⟨(k, x), hmem, by rwa [inEntry_of_some (e := (k, x)) hlookup]⟩
        | none =>
          rw [inEntry_of_none (e := (k, x)) hlookup] at hentry
          obtain rfl := List.mem_singleton.mp hentry
          exact takesEffect_removedKey hv hfs.1 hlookup
      · obtain ⟨⟨k, y⟩, hmem, hlookup, rfl⟩ := mem_foreign.mp hc
        obtain ⟨before, after, rfl⟩ := List.append_of_mem hmem
        exact takesEffect_addedKey hv hw hlookup
    · have hxs := Value.nested_list.mp hv
      have hys := Value.nested_list.mp hw
      rw [between] at hc hfirst
      rcases mem_inItems.mp hc with ⟨j, x, y, hx, hy, hitem⟩ | ⟨j, x, hj, hx, rfl⟩ |
        ⟨j, y, hj, hy, rfl⟩
      · have hlt : sizeOf x < sizeOf (Value.list xs) := Value.sizeOf_lt_list hx
        have hxn := hxs x (List.mem_of_getElem? hx)
        have hyn := hys y (List.mem_of_getElem? hy)
        have hinside := takesEffect_of_mem hxn hyn hitem fun d hd =>
          hfirst d (mem_inItems.mpr (.inl ⟨j, x, y, hx, hy, hd⟩))
        obtain ⟨as, as', rfl, rfl⟩ := exists_append_of_getElem? hx
        obtain ⟨bs, bs', rfl, hlen⟩ := exists_append_of_getElem? hy
        rw [Nat.zero_add] at hinside
        exact takesEffect_item hxs hlen.symm hinside
      · obtain ⟨as, as', rfl, rfl⟩ := exists_append_of_getElem? hx
        obtain rfl := eq_nil_of_removedItem_first hj hfirst
        rw [Nat.zero_add]
        exact takesEffect_removedItem hxs hj
      · obtain ⟨bs, bs', rfl, rfl⟩ := exists_append_of_getElem? hy
        have hlen := length_eq_of_addedItem_first hj hfirst
        rw [Nat.zero_add, ← hlen]
        exact takesEffect_addedItem hxs (hys y (by simp)) hlen
  · rw [between_of_not_alike halike] at hc
    split at hc
    · exact absurd hc List.not_mem_nil
    · rename_i hne
      obtain rfl := List.mem_singleton.mp hc
      apply takesEffect_here w rfl rfl hw
      rw [between_of_not_alike halike, if_neg hne, between_self hw]
      exact List.Perm.refl _
termination_by sizeOf v

theorem mayPrecede_self (c : Change) : c.MayPrecede c := by
  cases c with
  | removedItem p i v => exact fun _ => Nat.le_refl i
  | addedItem p i v => exact fun _ => Nat.le_refl i
  | _ => trivial

-- A first change can be applied, and the others are the changes that are left.
theorem exists_applied_of_perm_cons {v w : Value} (hv : v.Nested) (hw : w.Nested) {c : Change}
    {cs : List Change} (hperm : (c :: cs).Perm (structuralDiff v w))
    (hfirst : ∀ d ∈ cs, c.MayPrecede d) :
    ∃ v', c.applied v = .ok v' ∧ v'.Nested ∧ cs.Perm (structuralDiff v' w) := by
  have hall : ∀ d ∈ structuralDiff v w, c.MayPrecede d := by
    intro d hd
    rcases List.mem_cons.mp (hperm.mem_iff.mpr hd) with rfl | hd
    · exact mayPrecede_self d
    · exact hfirst d hd
  have hc : c ∈ structuralDiff v w := hperm.mem_iff.mp List.mem_cons_self
  obtain ⟨rest, v', hsite, hchanged, hv', hrest⟩ := takesEffect_of_mem hv hw hc hall
  refine ⟨v', ?_, hv', (hperm.trans hrest).cons_inv⟩
  rw [applied, hsite, List.nil_append]
  exact hchanged []

-- Changes in any order that removes and adds the items of each list at its end lead from the left
-- value to the right one. Each of them leaves fewer.
theorem exists_appliedAll_equal {v w : Value} (hv : v.Nested) (hw : w.Nested) {cs : List Change}
    (hperm : cs.Perm (structuralDiff v w)) (horder : cs.Pairwise MayPrecede) :
    ∃ v', appliedAll cs v = .ok v' ∧ v'.equal w = true := by
  induction cs generalizing v with
  | nil => exact ⟨v, rfl, (between_eq_nil_iff hv hw []).mp hperm.nil_eq.symm⟩
  | cons c cs ih =>
    rw [List.pairwise_cons] at horder
    obtain ⟨v', happlied, hv', hrest⟩ := exists_applied_of_perm_cons hv hw hperm horder.1
    obtain ⟨u, hall, hu⟩ := ih hv' hrest horder.2
    refine ⟨u, ?_, hu⟩
    rw [appliedAll, List.foldlM_cons, happlied]
    exact hall

-- Removed items from the last one on, then everything else, then added items from the first one on.
def rank : Change → Int
  | removedItem _ i _ => -i - 1
  | addedItem _ i _ => i + 1
  | _ => 0

theorem mayPrecede_of_rank_le {c d : Change} (h : c.rank ≤ d.rank) : c.MayPrecede d := by
  cases c <;> cases d <;> first | trivial | (intro _; simp only [rank] at h; omega)

def rankLe (c d : Change) : Bool :=
  c.rank ≤ d.rank

theorem rankLe_trans (a b c : Change) (hab : rankLe a b = true) (hbc : rankLe b c = true) :
    rankLe a c = true := by
  simp only [rankLe, decide_eq_true_eq] at hab hbc ⊢
  omega

theorem rankLe_total (a b : Change) : (rankLe a b || rankLe b a) = true := by
  simp only [rankLe, Bool.or_eq_true, decide_eq_true_eq]
  omega

theorem exists_ordered (cs : List Change) :
    ∃ ds : List Change, ds.Perm cs ∧ ds.Pairwise MayPrecede := by
  have hsorted := List.pairwise_mergeSort rankLe_trans rankLe_total cs
  refine ⟨cs.mergeSort rankLe, List.mergeSort_perm cs rankLe, hsorted.imp ?_⟩
  intro c d h
  exact mayPrecede_of_rank_le (by simpa [rankLe] using h)

end Change

end MarkupDiff
