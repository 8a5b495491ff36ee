import MarkupDiff.Difference.Entry
import MarkupDiff.Proofs.Difference.Membership
import MarkupDiff.Proofs.Difference.Remainder
import MarkupDiff.Proofs.Place.Item

namespace MarkupDiff

open Value (DistinctKeys lookup)

-- The entries that count have a match under their keys.
def Value.EntriesMatch (ignore : Path → Value → Bool) (path : Path)
    (es fs : List (Value × Value)) : Prop :=
  ∀ k v, (k, v) ∈ es → ignore path k = false →
    ∃ w, lookup k fs = some w ∧ v.Matches ignore (path ++ [k]) w

-- Two containers of one kind at the end of a path match in everything that a walk through both of
-- them comes to before a step into them.
inductive Value.AgreeBefore (ignore : Path → Value → Bool) (path : Path) (s : Value) :
    Value → Value → Prop
  -- the items before an index
  | index {xs ys : List Value} (i : Nat) (hs : s = .nat i)
      (h : ∀ j < i, ∃ x y, xs[j]? = some x ∧ ys[j]? = some y ∧
        x.Matches ignore (path ++ [.nat j]) y) :
      AgreeBefore ignore path s (.list xs) (.list ys)
  -- the entries before a key of the left record
  | leftKey {before after fs : List (Value × Value)} {v : Value} (hs : ignore path s = false)
      (h : EntriesMatch ignore path before fs) :
      AgreeBefore ignore path s (.record (before ++ (s, v) :: after)) (.record fs)
  -- all entries of the left record, and no new key before one of the right record
  | rightKey {es before after : List (Value × Value)} {w : Value} (hs : ignore path s = false)
      (hnew : lookup s es = none)
      (h : EntriesMatch ignore path es (before ++ (s, w) :: after))
      (hbefore : ∀ f ∈ before, ignore path f.1 = false → (lookup f.1 es).isSome = true) :
      AgreeBefore ignore path s (.record es) (.record (before ++ (s, w) :: after))

namespace Change

variable {ignore : Path → Value → Bool} {c : Change} {cs : List Change}

-- A change between two values lies below the path to them.
theorem exists_path_eq {path : Path} {v w : Value} (hc : c ∈ between ignore path v w) :
    ∃ rest, c.toEntry.path = path ++ rest := by
  by_cases halike : v.Alike w
  · obtain ⟨es, fs, rfl, rfl⟩ | ⟨xs, ys, rfl, rfl⟩ := halike.cases
    · rw [between, inEntries_eq_flatMap] at hc
      rcases List.mem_append.mp hc with hc | hc
      · obtain ⟨⟨k, x⟩, hmem, hentry⟩ := List.mem_flatMap.mp hc
        have hlt : sizeOf x < sizeOf (Value.record es) := Value.sizeOf_lt_record hmem
        rw [inEntry] at hentry
        split at hentry
        · exact absurd hentry List.not_mem_nil
        · split at hentry
          · obtain ⟨rest, hrest⟩ := exists_path_eq hentry
            exact ⟨k :: rest, by rw [hrest]; simp⟩
          · exact ⟨[k], by rw [List.mem_singleton.mp hentry]; rfl⟩
      · obtain ⟨f, _, rfl⟩ := List.mem_map.mp hc
        exact ⟨[f.1], rfl⟩
    · rw [between] at hc
      rcases mem_inItems.mp hc with ⟨j, x, y, hx, _, hitem⟩ | ⟨j, x, _, _, rfl⟩ |
        ⟨j, y, _, _, rfl⟩
      · have hlt : sizeOf x < sizeOf (Value.list xs) := Value.sizeOf_lt_list hx
        obtain ⟨rest, hrest⟩ := exists_path_eq hitem
        exact ⟨.nat (0 + j) :: rest, by rw [hrest]; simp⟩
      · exact ⟨[], (List.append_nil path).symm⟩
      · exact ⟨[], (List.append_nil path).symm⟩
  · rw [between_of_not_alike halike] at hc
    split at hc
    · exact absurd hc List.not_mem_nil
    · exact ⟨[], by rw [List.mem_singleton.mp hc, List.append_nil]; rfl⟩
termination_by sizeOf v

theorem exists_fullPath_eq {path : Path} {v w : Value} (hc : c ∈ between ignore path v w) :
    ∃ rest, c.fullPath = path ++ rest := by
  obtain ⟨rest, hrest⟩ := exists_path_eq hc
  rw [← c.fullPath_toEntry, Entry.fullPath, hrest]
  split
  · exact ⟨_, List.append_assoc _ _ _⟩
  · exact ⟨rest, rfl⟩

-- The first member of a list that is put together out of parts, and then of one more, stands in the
-- first part that is not empty.
theorem flatMap_append_eq_cons {α β : Type} {f : α → List β} {as : List α} {bs cs : List β} {b : β}
    (h : as.flatMap f ++ bs = b :: cs) :
    (∃ before a after ds, as = before ++ a :: after ∧ (∀ x ∈ before, f x = []) ∧
      f a = b :: ds) ∨ ((∀ a ∈ as, f a = []) ∧ bs = b :: cs) := by
  induction as with
  | nil => exact .inr ⟨by simp, h⟩
  | cons a as ih =>
    cases ha : f a with
    | nil =>
      rw [List.flatMap_cons, ha, List.nil_append] at h
      obtain ⟨before, x, after, ds, rfl, hbefore, hx⟩ | ⟨hall, hbs⟩ := ih h
      · exact .inl ⟨a :: before, x, after, ds, rfl, List.forall_mem_cons.mpr ⟨ha, hbefore⟩, hx⟩
      · exact .inr ⟨List.forall_mem_cons.mpr ⟨ha, hall⟩, hbs⟩
    | cons d ds =>
      rw [List.flatMap_cons, ha, List.cons_append, List.cons_append] at h
      obtain ⟨rfl, -⟩ := List.cons.inj h
      exact .inl ⟨[], a, as, ds, rfl, by simp, ha⟩

-- The first key that only the right record has.
theorem foreign_eq_cons {path : Path} {es fs : List (Value × Value)}
    (h : foreign ignore path es fs = c :: cs) :
    ∃ before f after, fs = before ++ f :: after ∧
      (∀ e ∈ before, ¬((lookup e.1 es).isNone && !ignore path e.1) = true) ∧
      ((lookup f.1 es).isNone && !ignore path f.1) = true ∧ c = .addedKey path f.1 f.2 := by
  obtain ⟨f, fs', hfilter, rfl, _⟩ := List.map_eq_cons_iff.mp h
  obtain ⟨before, after, hsplit, hbefore, hf, _⟩ := List.filter_eq_cons_iff.mp hfilter
  exact ⟨before, f, after, hsplit, hbefore, hf, rfl⟩

-- Where the first change between two lists comes from: the items before it do not differ.
theorem inItems_eq_cons {path : Path} {i : Nat} {xs ys : List Value}
    (h : inItems ignore path i xs ys = c :: cs) :
    ∃ j, (∀ m < j, ∃ x y, xs[m]? = some x ∧ ys[m]? = some y ∧
        between ignore (path ++ [.nat (i + m)]) x y = []) ∧
      ((∃ x y ds, xs[j]? = some x ∧ ys[j]? = some y ∧
          between ignore (path ++ [.nat (i + j)]) x y = c :: ds) ∨
        c.fullPath = path ++ [.nat (i + j)]) := by
  induction xs generalizing i ys with
  | nil =>
    cases ys with
    | nil => simp [inItems, surplus] at h
    | cons y ys =>
      obtain ⟨rfl, -⟩ := List.cons.inj h
      exact ⟨0, by simp, .inr rfl⟩
  | cons x xs ih =>
    cases ys with
    | nil =>
      obtain ⟨rfl, -⟩ := List.cons.inj h
      exact ⟨0, by simp, .inr rfl⟩
    | cons y ys =>
      rw [inItems] at h
      cases hxy : between ignore (path ++ [.nat i]) x y with
      | cons d ds =>
        rw [hxy, List.cons_append] at h
        obtain ⟨rfl, -⟩ := List.cons.inj h
        exact ⟨0, by simp, .inl ⟨x, y, ds, rfl, rfl, hxy⟩⟩
      | nil =>
        rw [hxy, List.nil_append] at h
        obtain ⟨j, hbefore, hfirst⟩ := ih h
        have hnext : ∀ m, i + 1 + m = i + (m + 1) := fun m => by omega
        refine ⟨j + 1, ?_, hnext j ▸ hfirst⟩
        intro m hm
        cases m with
        | zero => exact ⟨x, y, rfl, rfl, hxy⟩
        | succ m => exact hnext m ▸ hbefore m (Nat.lt_of_succ_lt_succ hm)

section Step

variable {path rest : Path} {s : Value}

theorem path_of_between {v w : Value} {k : Value} {ds : List Change}
    (hc : between ignore (path ++ [k]) v w = c :: ds) (hpath : c.fullPath = path ++ s :: rest) :
    s = k := by
  obtain ⟨more, hmore⟩ := exists_fullPath_eq (hc ▸ List.mem_cons_self)
  rw [hpath, List.append_assoc] at hmore
  exact (List.cons.inj (List.append_cancel_left hmore)).1

theorem path_of_eq {k : Value} (hc : c.fullPath = path ++ [k])
    (hpath : c.fullPath = path ++ s :: rest) : s = k ∧ rest = [] := by
  rw [hc] at hpath
  obtain ⟨rfl, rfl⟩ := List.cons.inj (List.append_cancel_left hpath)
  exact ⟨rfl, rfl⟩

-- The first change stands inside of what a step leads to on both sides.
def GoesOn (ignore : Path → Value → Bool) (path : Path) (s v w : Value) (c : Change) : Prop :=
  ∃ x y ds, (∀ above, (Place.mk v above).item s = .ok ⟨x, ⟨v, s⟩ :: above⟩) ∧
    (∀ above, (Place.mk w above).item s = .ok ⟨y, ⟨w, s⟩ :: above⟩) ∧
    (x.without ignore (path ++ [s])).Nested ∧ (y.without ignore (path ++ [s])).Nested ∧
    between ignore (path ++ [s]) x y = c :: ds

theorem first_in_list {xs ys : List Value} (h : Respects ignore)
    (hxs : ((Value.list xs).without ignore path).Nested)
    (hys : ((Value.list ys).without ignore path).Nested)
    (hc : between ignore path (.list xs) (.list ys) = c :: cs)
    (hpath : c.fullPath = path ++ s :: rest) :
    Value.AgreeBefore ignore path s (.list xs) (.list ys) ∧
      (rest ≠ [] → GoesOn ignore path s (.list xs) (.list ys) c) := by
  obtain ⟨j, hbefore, hfirst⟩ := inItems_eq_cons hc
  simp only [Nat.zero_add] at hbefore hfirst
  have hagree : ∀ m < j, ∃ x y, xs[m]? = some x ∧ ys[m]? = some y ∧
      x.Matches ignore (path ++ [.nat m]) y := by
    intro m hm
    obtain ⟨x, y, hx, hy, hnone⟩ := hbefore m hm
    exact ⟨x, y, hx, hy, (between_eq_nil_iff_matches h (Value.nested_of_getElem? hxs hx)
      (Value.nested_of_getElem? hys hy)).mp hnone⟩
  obtain ⟨x, y, ds, hx, hy, hxy⟩ | hend := hfirst
  · obtain rfl := path_of_between hxy hpath
    exact ⟨.index j rfl hagree, fun _ => ⟨x, y, ds, Place.item_nat hx, Place.item_nat hy,
      Value.nested_of_getElem? hxs hx, Value.nested_of_getElem? hys hy, hxy⟩⟩
  · obtain ⟨rfl, rfl⟩ := path_of_eq hend hpath
    exact ⟨.index j rfl hagree, fun hne => absurd rfl hne⟩

-- Entries in which the walk finds no change match those that the other record has.
theorem entriesMatch_of_inEntry_eq_nil {es ds fs : List (Value × Value)} (h : Respects ignore)
    (hes : ((Value.record es).without ignore path).Nested)
    (hfs : ((Value.record fs).without ignore path).Nested) (hsub : ds ⊆ es)
    (hnone : ∀ e ∈ ds, inEntry ignore path fs e = []) :
    Value.EntriesMatch ignore path ds fs := by
  intro k v hmem hk
  have hentry := hnone (k, v) hmem
  rw [inEntry, hk] at hentry
  cases hlookup : lookup k fs with
  | none => simp [hlookup] at hentry
  | some w =>
    rw [hlookup] at hentry
    exact ⟨w, rfl, (between_eq_nil_iff_matches h (Value.nested_of_mem_kept hes (hsub hmem) hk)
      (Value.nested_of_lookup_kept h hfs hlookup hk)).mp hentry⟩

theorem first_in_record {es fs : List (Value × Value)} (h : Respects ignore)
    (hes : ((Value.record es).without ignore path).Nested)
    (hfs : ((Value.record fs).without ignore path).Nested)
    (hc : between ignore path (.record es) (.record fs) = c :: cs)
    (hpath : c.fullPath = path ++ s :: rest) :
    Value.AgreeBefore ignore path s (.record es) (.record fs) ∧
      (rest ≠ [] → GoesOn ignore path s (.record es) (.record fs) c) := by
  rw [between, inEntries_eq_flatMap] at hc
  obtain ⟨before, ⟨k, x⟩, after, ds, hsplit, hbefore, hentry⟩ | ⟨hall, hforeign⟩ :=
    flatMap_append_eq_cons hc
  · have hmem : (k, x) ∈ es := by simp [hsplit]
    have hmatch := entriesMatch_of_inEntry_eq_nil h hes hfs (by simp [hsplit] : before ⊆ es) hbefore
    have hk : ignore path k = false := by
      by_contra hk
      rw [inEntry, if_pos (by simpa using hk)] at hentry
      exact absurd hentry (by simp)
    have hagree : Value.AgreeBefore ignore path k (.record es) (.record fs) :=
      hsplit ▸ .leftKey hk hmatch
    rw [inEntry, if_neg (by simp [hk])] at hentry
    cases hlookup : lookup k fs with
    | none =>
      rw [hlookup] at hentry
      obtain ⟨rfl, -⟩ := List.cons.inj hentry
      obtain ⟨rfl, rfl⟩ := path_of_eq rfl hpath
      exact ⟨hagree, fun hne => absurd rfl hne⟩
    | some y =>
      rw [hlookup] at hentry
      obtain rfl := path_of_between hentry hpath
      have hx := Value.nested_of_mem_kept hes hmem hk
      have hy := Value.nested_of_lookup_kept h hfs hlookup hk
      have hkeys := (Value.nested_record.mp hes).1
      have hkey : s.IsKey := hkeys.isKey _ (Value.mem_withoutEntries hmem hk)
      have hleft := Place.item_key hkey (Value.lookup_of_mem_kept h hkeys hmem hk)
        (Value.without_ne_owner hx)
      have hright := Place.item_key hkey hlookup (Value.without_ne_owner hy)
      exact ⟨hagree, fun _ => ⟨x, y, ds, hleft, hright, hx, hy, hentry⟩⟩
  · obtain ⟨before, ⟨k, y⟩, after, hsplit, hbefore, hnew, rfl⟩ := foreign_eq_cons hforeign
    obtain ⟨rfl, rfl⟩ := path_of_eq rfl hpath
    have hmatch := entriesMatch_of_inEntry_eq_nil h hes hfs (fun _ he => he) hall
    rw [Bool.and_eq_true, Option.isNone_iff_eq_none, Bool.not_eq_true'] at hnew
    refine ⟨?_, fun hne => absurd rfl hne⟩
    subst hsplit
    refine .rightKey hnew.2 hnew.1 hmatch fun f hf hkept => ?_
    have hold := hbefore f hf
    cases hlookup : lookup f.1 es with
    | some v => rfl
    | none => simp [hlookup, hkept] at hold

theorem first_step {v w : Value} (h : Respects ignore)
    (hv : (v.without ignore path).Nested) (hw : (w.without ignore path).Nested)
    (hc : between ignore path v w = c :: cs) (hpath : c.fullPath = path ++ s :: rest) :
    Value.AgreeBefore ignore path s v w ∧ (rest ≠ [] → GoesOn ignore path s v w c) := by
  by_cases halike : v.Alike w
  · obtain ⟨es, fs, rfl, rfl⟩ | ⟨xs, ys, rfl, rfl⟩ := halike.cases
    · exact first_in_record h hv hw hc hpath
    · exact first_in_list h hv hw hc hpath
  · -- two values that differ as a whole do so where the path ends
    rw [between_of_not_alike halike] at hc
    split at hc
    · exact absurd hc (by simp)
    · obtain ⟨rfl, -⟩ := List.cons.inj hc
      have hlength := congrArg List.length hpath
      simp [fullPath] at hlength

-- At every step of the path to the first change both sides agree before that step.
theorem first_agrees (h : Respects ignore) {v w : Value}
    (hv : (v.without ignore path).Nested) (hw : (w.without ignore path).Nested)
    (hc : between ignore path v w = c :: cs) {q : Path}
    (hpath : c.fullPath = path ++ (q ++ s :: rest)) (above above' : List Frame) :
    ∃ a b, (Place.mk v above).follow q = .ok a ∧ (Place.mk w above').follow q = .ok b ∧
      Value.AgreeBefore ignore (path ++ q) s a.focus b.focus := by
  induction q generalizing path v w cs above above' with
  | nil =>
    obtain ⟨hagree, _⟩ := first_step h hv hw hc hpath
    exact ⟨_, _, rfl, rfl, by rwa [List.append_nil]⟩
  | cons t q ih =>
    obtain ⟨_, hon⟩ := first_step h hv hw hc hpath
    obtain ⟨x, y, ds, hleft, hright, hx, hy, hxy⟩ := hon (by simp)
    obtain ⟨a, b, ha, hb, hagree⟩ := ih hx hy hxy (by rw [hpath]; simp) (⟨v, t⟩ :: above)
      (⟨w, t⟩ :: above')
    refine ⟨a, b, ?_, ?_, ?_⟩
    · rw [Place.follow, hleft]
      exact ha
    · rw [Place.follow, hright]
      exact hb
    · rwa [List.append_assoc] at hagree

end Step

end Change

end MarkupDiff
