import MarkupDiff.Proofs.Difference.Corresponding
import MarkupDiff.Proofs.Difference.Shown

namespace MarkupDiff.Store

variable {Id : Type} {objects : Store Id} {ignore : Path → Value → Bool} {path : Path}
  {a b : Id} {v w : Value}

theorem Shows.exists_record {gs : List (Value × Value)}
    (h : objects.Shows ignore path a (.record gs)) :
    ∃ es hes, objects a = .record es hes ∧ objects.ShowsEntries ignore path es gs := by
  cases h with
  | record hes h hgs => exact ⟨_, hes, h, hgs⟩
  | atom hv _ => exact absurd hv id

theorem Shows.exists_list {vs : List Value} (h : objects.Shows ignore path a (.list vs)) :
    ∃ xs, objects a = .list xs ∧ objects.ShowsItems ignore path 0 xs vs := by
  cases h with
  | list h hxs => exact ⟨_, h, hxs⟩
  | atom hv _ => exact absurd hv id

theorem ShowsItems.length_eq {i : Nat} {xs : List Id} {vs : List Value}
    (h : objects.ShowsItems ignore path i xs vs) : xs.length = vs.length := by
  induction xs generalizing i vs with
  | nil =>
    cases h
    rfl
  | cons x xs ih =>
    cases h with
    | cons _ hxs => rw [List.length_cons, List.length_cons, ih hxs]

theorem ShowsEntries.length_eq {es : List (Value × Id)} {gs : List (Value × Value)}
    (h : objects.ShowsEntries ignoringNothing path es gs) : es.length = gs.length := by
  induction es generalizing gs with
  | nil =>
    cases h
    rfl
  | cons e es ih =>
    cases h with
    | ignored hk _ => exact Bool.noConfusion hk
    | counted _ _ hes => rw [List.length_cons, List.length_cons, ih hes]

section Equality

-- Comparing answers with the equality of the values, for values up to a size.
def Compares (objects : Store Id) (equal? : Id → Id → Option Bool) (size : Nat) : Prop :=
  ∀ {p q : Path} {x y : Id} {v w : Value}, objects.Shows ignoringNothing p x v →
    objects.Shows ignoringNothing q y w → sizeOf v < size → equal? x y = some (v.equal w)

variable {equal : Id → Id → Option Bool} {size : Nat}

theorem equalItems?_eq (hequal : objects.Compares equal size) {p q : Path} {i j : Nat}
    {xs ys : List Id} {vs ws : List Value} (hxs : objects.ShowsItems ignoringNothing p i xs vs)
    (hys : objects.ShowsItems ignoringNothing q j ys ws) (hsize : sizeOf vs < size) :
    equalItems? equal xs ys = some (Value.equalItems vs ws) := by
  match vs, ws, hxs, hys with
  | _, _, .nil, .nil => rfl
  | _, _, .nil, .cons _ _ => rfl
  | _, _, .cons _ _, .nil => rfl
  | v :: vs, w :: ws, .cons hx hxs, .cons hy hys =>
    rw [List.cons.sizeOf_spec] at hsize
    have hitem := hequal hx hy (by omega)
    have hrest := equalItems?_eq hequal hxs hys (by omega)
    rw [equalItems?, hitem, Value.equalItems]
    cases v.equal w <;> simp [hrest]

theorem equalEntries?_eq (hequal : objects.Compares equal size) {p q : Path}
    {es fs : List (Value × Id)} {gs hs : List (Value × Value)}
    (hes : objects.ShowsEntries ignoringNothing p es gs)
    (hfs : objects.ShowsEntries ignoringNothing q fs hs) (hsize : sizeOf gs < size) :
    equalEntries? equal fs es = some (Value.equalEntries gs hs) := by
  match gs, hes with
  | _, .nil => rfl
  | _, .ignored hk _ => exact Bool.noConfusion hk
  | (k, v) :: gs, .counted hk hx hes =>
    rw [List.cons.sizeOf_spec, Prod.mk.sizeOf_spec] at hsize
    have hrest := equalEntries?_eq hequal hes hfs (by omega)
    rw [Value.equalEntries_cons, equalEntries?]
    obtain ⟨hunder, hlookup⟩ | ⟨y, w, hunder, hlookup, hy⟩ :=
      hfs.under_eq respects_ignoringNothing hk
    · rw [hunder, hlookup]
      rfl
    · have hitem := hequal hx hy (by omega)
      rw [hunder, hlookup]
      simp only [hitem, Option.any_some]
      cases v.equal w <;> simp [hrest]

variable [DecidableEq Id]

-- Only the contents of tuples are asked for where two objects are not both records or both lists.
theorem equal?_of_not_alike {n : Nat} (hcompares : objects.Compares (equal? objects n) n)
    (hab : a ≠ b) {ignore ignore' : Path → Value → Bool} {p q : Path}
    (ha : objects.Shows ignore p a v) (hb : objects.Shows ignore' q b w) (halike : ¬v.Alike w)
    (hsize : sizeOf v < n + 1) : equal? objects (n + 1) a b = some (v.equal w) := by
  have hnested := ha.nested
  rw [equal?, if_neg hab]
  cases ha with
  | atom hv h =>
    cases hb with
    | atom hw h' => simp only [h, h']
    | tuple h' _ | list h' _ | record _ h' _ =>
      simp only [h, h']
      rw [hv.equal_eq_false id]
  | tuple h hxs =>
    cases hb with
    | tuple h' hys =>
      rw [Value.tuple.sizeOf_spec] at hsize
      simp only [h, h']
      exact equalItems?_eq hcompares hxs hys (by omega)
    | atom hw h' =>
      simp only [h, h']
      rw [Value.equal_comm hnested hw.nested, hw.equal_eq_false id]
    | list h' _ | record _ h' _ =>
      simp only [h, h']
      rfl
  | list h hxs =>
    cases hb with
    | list _ _ => exact absurd trivial halike
    | atom hw h' =>
      simp only [h, h']
      rw [Value.equal_comm hnested hw.nested, hw.equal_eq_false id]
    | tuple h' _ | record _ h' _ =>
      simp only [h, h']
      rfl
  | record hes h hgs =>
    cases hb with
    | record _ _ _ => exact absurd trivial halike
    | atom hw h' =>
      simp only [h, h']
      rw [Value.equal_comm hnested hw.nested, hw.equal_eq_false id]
    | tuple h' _ | list h' _ =>
      simp only [h, h']
      rfl

-- With room for a call for each level of the value on the left, comparing comes to an end.
theorem compares_equal? (objects : Store Id) (n : Nat) :
    objects.Compares (equal? objects n) n := by
  induction n with
  | zero => exact fun _ _ hsize => absurd hsize (Nat.not_lt_zero _)
  | succ n ih =>
    intro p q a b v w ha hb hsize
    by_cases hab : a = b
    · subst hab
      obtain rfl := ha.unique (hb.congr fun _ _ => rfl)
      rw [equal?, if_pos rfl, Value.equal_self ha.nested]
    · by_cases halike : v.Alike w
      · rw [equal?, if_neg hab]
        obtain ⟨gs, hs, rfl, rfl⟩ | ⟨vs, ws, rfl, rfl⟩ := halike.cases
        · obtain ⟨es, hes, h, hgs⟩ := ha.exists_record
          obtain ⟨fs, hfs, h', hhs⟩ := hb.exists_record
          rw [Value.record.sizeOf_spec] at hsize
          simp only [h, h', hgs.length_eq, hhs.length_eq, Value.equal]
          by_cases hlength : gs.length = hs.length
          · rw [if_pos hlength, hlength, beq_self_eq_true, Bool.true_and]
            exact equalEntries?_eq ih hgs hhs (by omega)
          · rw [if_neg hlength, beq_eq_false_iff_ne.mpr hlength, Bool.false_and]
        · obtain ⟨xs, h, hxs⟩ := ha.exists_list
          obtain ⟨ys, h', hys⟩ := hb.exists_list
          rw [Value.list.sizeOf_spec] at hsize
          simp only [h, h', hxs.length_eq, hys.length_eq, Value.equal]
          by_cases hlength : vs.length = ws.length
          · rw [if_pos hlength]
            exact equalItems?_eq ih hxs hys (by omega)
          · rw [if_neg hlength, Value.equalItems_eq_false hlength]
      · exact equal?_of_not_alike ih hab ha hb halike hsize

end Equality

section Walk

-- A finding is a change with the objects in place of what remains of them.
inductive Tells (objects : Store Id) (ignore : Path → Value → Bool) : Finding Id → Change → Prop
  | edited {path : Path} {a b : Id} {v w : Value} (ha : objects.Shows ignore path a v)
      (hb : objects.Shows ignore path b w) :
      Tells objects ignore (.edited path a b) (.edited path v w)
  | removedKey {path : Path} {k : Value} {a : Id} {v : Value}
      (ha : objects.Shows ignore (path ++ [k]) a v) :
      Tells objects ignore (.removedKey path k a) (.removedKey path k v)
  | addedKey {path : Path} {k : Value} {b : Id} {w : Value}
      (hb : objects.Shows ignore (path ++ [k]) b w) :
      Tells objects ignore (.addedKey path k b) (.addedKey path k w)
  | removedItem {path : Path} {i : Nat} {a : Id} {v : Value}
      (ha : objects.Shows ignore (path ++ [.nat i]) a v) :
      Tells objects ignore (.removedItem path i a) (.removedItem path i v)
  | addedItem {path : Path} {i : Nat} {b : Id} {w : Value}
      (hb : objects.Shows ignore (path ++ [.nat i]) b w) :
      Tells objects ignore (.addedItem path i b) (.addedItem path i w)

theorem foreign_cons (k : Value) (x : Id) (es fs : List (Value × Id)) :
    foreign ignore path es ((k, x) :: fs) =
      (if (under k es).isNone && !ignore path k then [.addedKey path k x] else []) ++
        foreign ignore path es fs := by
  rw [foreign, List.filter_cons]
  split <;> rfl

theorem forall₂_foreign (hignore : Respects ignore) {es fs : List (Value × Id)}
    {gs hs : List (Value × Value)} (hes : objects.ShowsEntries ignore path es gs)
    (hfs : objects.ShowsEntries ignore path fs hs) :
    List.Forall₂ (objects.Tells ignore) (foreign ignore path es fs)
      (Change.foreign ignoringNothing path gs hs) := by
  induction fs generalizing hs with
  | nil =>
    cases hfs
    exact .nil
  | cons f fs ih =>
    cases hfs with
    | ignored hk hfs =>
      rw [foreign_cons, hk, Bool.not_true, Bool.and_false]
      exact ih hfs
    | counted hk hx hfs =>
      rw [foreign_cons, hk, Bool.not_false, Bool.and_true, Change.foreign_eq_flatMap,
        List.flatMap_cons, ← Change.foreign_eq_flatMap, Change.unmatched]
      refine List.rel_append ?_ (ih hfs)
      obtain ⟨hunder, hlookup⟩ | ⟨y, w, hunder, hlookup, -⟩ := hes.under_eq hignore hk
      · rw [hunder, hlookup]
        exact .cons (.addedKey hx) .nil
      · rw [hunder, hlookup]
        exact .nil

theorem surplus_cons (finding : Nat → Id → Finding Id) (i : Nat) (x : Id) (xs : List Id) :
    surplus finding i (x :: xs) = finding i x :: surplus finding (i + 1) xs := by
  rw [surplus, List.zipIdx_cons, List.map_cons, surplus]

theorem forall₂_surplus (finding : Nat → Id → Finding Id) (change : Nat → Value → Change)
    (h : ∀ i x v, objects.Shows ignore (path ++ [.nat i]) x v →
      objects.Tells ignore (finding i x) (change i v)) {i : Nat} {xs : List Id} {vs : List Value}
    (hxs : objects.ShowsItems ignore path i xs vs) :
    List.Forall₂ (objects.Tells ignore) (surplus finding i xs) (Change.surplus change i vs) := by
  induction xs generalizing i vs with
  | nil =>
    cases hxs
    exact .nil
  | cons x xs ih =>
    cases hxs with
    | cons hx hxs =>
      rw [surplus_cons, Change.surplus_cons]
      exact .cons (h i x _ hx) (ih hxs)

variable [DecidableEq Id]

-- The walk comes to an end, with the changes between the values of the two objects.
def Tracks (objects : Store Id) (ignore : Path → Value → Bool) (size : Nat) : Prop :=
  ∀ {path : Path} {a b : Id} {v w : Value}, objects.Shows ignore path a v →
    objects.Shows ignore path b w → sizeOf v < size →
      ∃ cs, (∀ n, sizeOf v < n → objects.walk ignore n path a b = some cs) ∧
        List.Forall₂ (objects.Tells ignore) cs (Change.between ignoringNothing path v w)

theorem Tracks.entries {size : Nat} (htracks : objects.Tracks ignore size)
    (hignore : Respects ignore) {es fs : List (Value × Id)} {gs hs : List (Value × Value)}
    (hes : objects.ShowsEntries ignore path es gs) (hfs : objects.ShowsEntries ignore path fs hs)
    (hsize : sizeOf gs < size) :
    ∃ cs, (∀ n, sizeOf gs < n → walkEntries (objects.walk ignore n) ignore path fs es = some cs) ∧
      List.Forall₂ (objects.Tells ignore) cs (Change.inEntries ignoringNothing path hs gs) := by
  match es, gs, hes with
  | _, _, .nil => exact ⟨[], fun _ _ => rfl, .nil⟩
  | _, gs, .ignored hk hes =>
    obtain ⟨cs, hcs, htells⟩ := htracks.entries hignore hes hfs hsize
    refine ⟨cs, fun n hn => ?_, htells⟩
    simp [walkEntries, hk, hcs n hn]
  | (k, x) :: es, (_, v) :: gs, .counted hk hx hes =>
    rw [List.cons.sizeOf_spec, Prod.mk.sizeOf_spec] at hsize
    obtain ⟨rest, hrest, hrestTells⟩ := htracks.entries hignore hes hfs (by omega)
    obtain ⟨hunder, hlookup⟩ | ⟨y, w, hunder, hlookup, hy⟩ := hfs.under_eq hignore hk
    · refine ⟨[.removedKey path k x] ++ rest, fun n hn => ?_, ?_⟩
      · rw [List.cons.sizeOf_spec] at hn
        simp [walkEntries, hk, hunder, hrest n (by omega)]
      · simp only [Change.inEntries, hlookup]
        exact List.rel_append (.cons (.removedKey hx) .nil) hrestTells
    · obtain ⟨inside, hinside, hinsideTells⟩ := htracks hx hy (by omega)
      refine ⟨inside ++ rest, fun n hn => ?_, ?_⟩
      · rw [List.cons.sizeOf_spec, Prod.mk.sizeOf_spec] at hn
        simp [walkEntries, hk, hunder, hinside n (by omega), hrest n (by omega)]
      · simp only [Change.inEntries, hlookup]
        exact List.rel_append hinsideTells hrestTells

theorem Tracks.items {size : Nat} (htracks : objects.Tracks ignore size) {i : Nat}
    {xs ys : List Id} {vs ws : List Value} (hxs : objects.ShowsItems ignore path i xs vs)
    (hys : objects.ShowsItems ignore path i ys ws) (hsize : sizeOf vs < size) :
    ∃ cs, (∀ n, sizeOf vs < n → walkItems (objects.walk ignore n) path i xs ys = some cs) ∧
      List.Forall₂ (objects.Tells ignore) cs (Change.inItems ignoringNothing path i vs ws) := by
  match vs, ws, hxs, hys with
  | _, _, .nil, hys =>
    exact ⟨_, fun _ _ => rfl,
      forall₂_surplus (.addedItem path) (.addedItem path) (fun _ _ _ h => .addedItem h) hys⟩
  | _, _, .cons hx hxs, .nil =>
    exact ⟨_, fun _ _ => rfl, forall₂_surplus (.removedItem path) (.removedItem path)
      (fun _ _ _ h => .removedItem h) (.cons hx hxs)⟩
  | v :: vs, w :: ws, .cons hx hxs, .cons hy hys =>
    rw [List.cons.sizeOf_spec] at hsize
    obtain ⟨inside, hinside, hinsideTells⟩ := htracks hx hy (by omega)
    obtain ⟨rest, hrest, hrestTells⟩ := htracks.items hxs hys (by omega)
    refine ⟨inside ++ rest, fun n hn => ?_, List.rel_append hinsideTells hrestTells⟩
    rw [List.cons.sizeOf_spec] at hn
    simp [walkItems, hinside n (by omega), hrest n (by omega)]

-- Two objects that are not both records or both lists are edited or equal.
theorem walk_of_not_alike {n : Nat} (hab : a ≠ b) (ha : objects.Shows ignore path a v)
    (hb : objects.Shows ignore path b w) (halike : ¬v.Alike w) (hsize : sizeOf v < n + 1) :
    objects.walk ignore (n + 1) path a b =
      some (if v.equal w then [] else [.edited path a b]) := by
  have hequal := equal?_of_not_alike (compares_equal? objects n) hab ha hb halike hsize
  have hwalk : objects.walk ignore (n + 1) path a b = (do
      if ← equal? objects (n + 1) a b then return [] else return [.edited path a b]) := by
    rw [walk, if_neg hab]
    cases ha with
    | atom _ h | tuple h _ => simp only [h]
    | list h _ => cases hb with
      | list _ _ => exact absurd trivial halike
      | atom _ h' | tuple h' _ | record _ h' _ => simp only [h, h']
    | record _ h _ => cases hb with
      | record _ _ _ => exact absurd trivial halike
      | atom _ h' | tuple h' _ | list h' _ => simp only [h, h']
  rw [hwalk, hequal]
  cases v.equal w <;> rfl

theorem Tracks.records {size : Nat} (htracks : objects.Tracks ignore size)
    (hignore : Respects ignore) (hab : a ≠ b) {gs hs : List (Value × Value)}
    (ha : objects.Shows ignore path a (.record gs)) (hb : objects.Shows ignore path b (.record hs))
    (hsize : sizeOf gs < size) :
    ∃ cs, (∀ n, sizeOf gs < n → objects.walk ignore (n + 1) path a b = some cs) ∧
      List.Forall₂ (objects.Tells ignore) cs
        (Change.between ignoringNothing path (.record gs) (.record hs)) := by
  obtain ⟨es, hes, h, hgs⟩ := ha.exists_record
  obtain ⟨fs, hfs, h', hhs⟩ := hb.exists_record
  obtain ⟨cs, hcs, htells⟩ := htracks.entries hignore hgs hhs hsize
  refine ⟨cs ++ foreign ignore path es fs, fun n hn => ?_, ?_⟩
  · rw [walk, if_neg hab]
    simp only [h, h', hcs n hn]
    rfl
  · exact List.rel_append htells (forall₂_foreign hignore hgs hhs)

theorem Tracks.lists {size : Nat} (htracks : objects.Tracks ignore size) (hab : a ≠ b)
    {vs ws : List Value} (ha : objects.Shows ignore path a (.list vs))
    (hb : objects.Shows ignore path b (.list ws)) (hsize : sizeOf vs < size) :
    ∃ cs, (∀ n, sizeOf vs < n → objects.walk ignore (n + 1) path a b = some cs) ∧
      List.Forall₂ (objects.Tells ignore) cs
        (Change.between ignoringNothing path (.list vs) (.list ws)) := by
  obtain ⟨xs, h, hxs⟩ := ha.exists_list
  obtain ⟨ys, h', hys⟩ := hb.exists_list
  obtain ⟨cs, hcs, htells⟩ := htracks.items hxs hys hsize
  refine ⟨cs, fun n hn => ?_, htells⟩
  rw [walk, if_neg hab]
  simp only [h, h', hcs n hn]

-- With room for a call for each level of the value on the left, the walk comes to an end.
theorem tracks_of_respects (hignore : Respects ignore) (size : Nat) :
    objects.Tracks ignore size := by
  induction size with
  | zero => exact fun _ _ hsize => absurd hsize (Nat.not_lt_zero _)
  | succ size ih =>
    intro path a b v w ha hb hsize
    have hroom : ∀ n, sizeOf v < n → ∃ m, n = m + 1 := by
      intro n hn
      exact ⟨n - 1, by omega⟩
    by_cases hab : a = b
    · subst hab
      obtain rfl := ha.unique hb
      refine ⟨[], fun n hn => ?_, ?_⟩
      · obtain ⟨m, rfl⟩ := hroom n hn
        rw [walk, if_pos rfl]
      · rw [Change.between_self ha.nested]
        exact .nil
    · by_cases halike : v.Alike w
      · obtain ⟨gs, hs, rfl, rfl⟩ | ⟨vs, ws, rfl, rfl⟩ := halike.cases
        · rw [Value.record.sizeOf_spec] at hsize hroom ⊢
          obtain ⟨cs, hcs, htells⟩ := ih.records hignore hab ha hb (by omega)
          refine ⟨cs, fun n hn => ?_, htells⟩
          obtain ⟨m, rfl⟩ := hroom n hn
          exact hcs m (by omega)
        · rw [Value.list.sizeOf_spec] at hsize hroom ⊢
          obtain ⟨cs, hcs, htells⟩ := ih.lists hab ha hb (by omega)
          refine ⟨cs, fun n hn => ?_, htells⟩
          obtain ⟨m, rfl⟩ := hroom n hn
          exact hcs m (by omega)
      · refine ⟨if v.equal w then [] else [.edited path a b], fun n hn => ?_, ?_⟩
        · obtain ⟨m, rfl⟩ := hroom n hn
          exact walk_of_not_alike hab ha hb halike hn
        · rw [Change.between_of_not_alike halike]
          split
          · exact .nil
          · exact .cons (.edited ha hb) .nil

-- Two lists, each of which holds itself: nothing is ignored that would end the walk.
theorem walk_eq_none_of_circle (hab : a ≠ b) (ha : objects a = .list [a])
    (hb : objects b = .list [b]) (n : Nat) (path : Path) :
    objects.walk ignore n path a b = none := by
  induction n generalizing path with
  | zero => rfl
  | succ n ih =>
    rw [walk, if_neg hab]
    simp only [ha, hb, walkItems, ih]
    rfl

end Walk

end MarkupDiff.Store
