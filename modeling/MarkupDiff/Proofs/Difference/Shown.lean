import MarkupDiff.Proofs.Difference.Remainder
import MarkupDiff.Proofs.Difference.Store

namespace MarkupDiff.Store

open Value (DistinctKeys SameKey lookup)

variable {Id : Type} {objects : Store Id} {ignore ignore' : Path → Value → Bool}
  {path path' : Path} {a : Id} {v : Value}

mutual

-- What remains of an object at the end of a path without the entries that are ignored is a value.
-- Nothing is ignored inside a tuple.
inductive Shows (objects : Store Id) : (Path → Value → Bool) → Path → Id → Value → Prop
  | atom {ignore : Path → Value → Bool} {path : Path} {a : Id} {v : Value} (hv : v.IsAtom)
      (h : objects a = .atom v hv) : Shows objects ignore path a v
  | tuple {ignore : Path → Value → Bool} {path : Path} {a : Id} {xs : List Id} {vs : List Value}
      (h : objects a = .tuple xs) (hxs : ShowsItems objects ignoringNothing path 0 xs vs) :
      Shows objects ignore path a (.tuple vs)
  | list {ignore : Path → Value → Bool} {path : Path} {a : Id} {xs : List Id} {vs : List Value}
      (h : objects a = .list xs) (hxs : ShowsItems objects ignore path 0 xs vs) :
      Shows objects ignore path a (.list vs)
  | record {ignore : Path → Value → Bool} {path : Path} {a : Id} {es : List (Value × Id)}
      {gs : List (Value × Value)} (hes : DistinctKeys (es.map fun e => (e.1, .null)))
      (h : objects a = .record es hes) (hgs : ShowsEntries objects ignore path es gs) :
      Shows objects ignore path a (.record gs)

inductive ShowsItems (objects : Store Id) :
    (Path → Value → Bool) → Path → Nat → List Id → List Value → Prop
  | nil {ignore : Path → Value → Bool} {path : Path} {i : Nat} :
      ShowsItems objects ignore path i [] []
  | cons {ignore : Path → Value → Bool} {path : Path} {i : Nat} {x : Id} {v : Value}
      {xs : List Id} {vs : List Value} (hx : Shows objects ignore (path ++ [.nat i]) x v)
      (hxs : ShowsItems objects ignore path (i + 1) xs vs) :
      ShowsItems objects ignore path i (x :: xs) (v :: vs)

inductive ShowsEntries (objects : Store Id) :
    (Path → Value → Bool) → Path → List (Value × Id) → List (Value × Value) → Prop
  | nil {ignore : Path → Value → Bool} {path : Path} : ShowsEntries objects ignore path [] []
  | ignored {ignore : Path → Value → Bool} {path : Path} {k : Value} {x : Id}
      {es : List (Value × Id)} {gs : List (Value × Value)} (hk : ignore path k = true)
      (hes : ShowsEntries objects ignore path es gs) :
      ShowsEntries objects ignore path ((k, x) :: es) gs
  | counted {ignore : Path → Value → Bool} {path : Path} {k : Value} {x : Id} {v : Value}
      {es : List (Value × Id)} {gs : List (Value × Value)} (hk : ignore path k = false)
      (hx : Shows objects ignore (path ++ [k]) x v)
      (hes : ShowsEntries objects ignore path es gs) :
      ShowsEntries objects ignore path ((k, x) :: es) ((k, v) :: gs)

end

-- Two ways of ignoring agree from two places on.
def SameBelow (ignore : Path → Value → Bool) (path : Path) (ignore' : Path → Value → Bool)
    (path' : Path) : Prop :=
  ∀ rest k, ignore (path ++ rest) k = ignore' (path' ++ rest) k

theorem SameBelow.here (h : SameBelow ignore path ignore' path') (k : Value) :
    ignore path k = ignore' path' k := by
  simpa using h [] k

theorem SameBelow.step (h : SameBelow ignore path ignore' path') (s : Value) :
    SameBelow ignore (path ++ [s]) ignore' (path' ++ [s]) := by
  intro rest k
  simpa using h (s :: rest) k

theorem SameBelow.symm (h : SameBelow ignore path ignore' path') :
    SameBelow ignore' path' ignore path :=
  fun rest k => (h rest k).symm

theorem sameBelow_of_respects (h : Respects ignore) (hpath : List.Forall₂ SameKey path path') :
    SameBelow ignore path ignore path' := by
  intro rest k
  exact h _ _ k k (List.rel_append hpath (Value.forall₂_sameKey_refl rest)) (.refl k)

mutual

theorem Shows.congr {ignore ignore' : Path → Value → Bool} {path path' : Path} {a : Id} {v : Value}
    (h : objects.Shows ignore path a v) (hsame : SameBelow ignore path ignore' path') :
    objects.Shows ignore' path' a v := by
  match h with
  | .atom hv h => exact .atom hv h
  | .tuple h hxs => exact .tuple h (hxs.congr fun _ _ => rfl)
  | .list h hxs => exact .list h (hxs.congr hsame)
  | .record hes h hgs => exact .record hes h (hgs.congr hsame)

theorem ShowsItems.congr {ignore ignore' : Path → Value → Bool} {path path' : Path} {i : Nat}
    {xs : List Id} {vs : List Value} (h : objects.ShowsItems ignore path i xs vs)
    (hsame : SameBelow ignore path ignore' path') :
    objects.ShowsItems ignore' path' i xs vs := by
  match h with
  | .nil => exact .nil
  | .cons hx hxs => exact .cons (hx.congr (hsame.step _)) (hxs.congr hsame)

theorem ShowsEntries.congr {ignore ignore' : Path → Value → Bool} {path path' : Path}
    {es : List (Value × Id)} {gs : List (Value × Value)}
    (h : objects.ShowsEntries ignore path es gs) (hsame : SameBelow ignore path ignore' path') :
    objects.ShowsEntries ignore' path' es gs := by
  match h with
  | .nil => exact .nil
  | .ignored hk hes => exact .ignored (hsame.here _ ▸ hk) (hes.congr hsame)
  | .counted hk hx hes =>
    exact .counted (hsame.here _ ▸ hk) (hx.congr (hsame.step _)) (hes.congr hsame)

end

section Content

theorem shows_atom_iff {w : Value} {hw : w.IsAtom} (h : objects a = .atom w hw) :
    objects.Shows ignore path a v ↔ v = w := by
  constructor
  · intro hv
    cases hv with
    | atom _ h' => exact (Content.atom.inj (h.symm.trans h')).symm
    | tuple h' _ | list h' _ | record _ h' _ => cases h.symm.trans h'
  · rintro rfl
    exact .atom hw h

theorem shows_tuple_iff {xs : List Id} (h : objects a = .tuple xs) :
    objects.Shows ignore path a v ↔
      ∃ vs, v = .tuple vs ∧ objects.ShowsItems ignoringNothing path 0 xs vs := by
  constructor
  · intro hv
    cases hv with
    | tuple h' hxs =>
      obtain rfl := Content.tuple.inj (h.symm.trans h')
      exact ⟨_, rfl, hxs⟩
    | atom _ h' | list h' _ | record _ h' _ => cases h.symm.trans h'
  · rintro ⟨vs, rfl, hxs⟩
    exact .tuple h hxs

theorem shows_list_iff {xs : List Id} (h : objects a = .list xs) :
    objects.Shows ignore path a v ↔
      ∃ vs, v = .list vs ∧ objects.ShowsItems ignore path 0 xs vs := by
  constructor
  · intro hv
    cases hv with
    | list h' hxs =>
      obtain rfl := Content.list.inj (h.symm.trans h')
      exact ⟨_, rfl, hxs⟩
    | atom _ h' | tuple h' _ | record _ h' _ => cases h.symm.trans h'
  · rintro ⟨vs, rfl, hxs⟩
    exact .list h hxs

theorem shows_record_iff {es : List (Value × Id)}
    {hes : DistinctKeys (es.map fun e => (e.1, .null))} (h : objects a = .record es hes) :
    objects.Shows ignore path a v ↔
      ∃ gs, v = .record gs ∧ objects.ShowsEntries ignore path es gs := by
  constructor
  · intro hv
    cases hv with
    | record _ h' hgs =>
      obtain rfl := Content.record.inj (h.symm.trans h')
      exact ⟨_, rfl, hgs⟩
    | atom _ h' | tuple h' _ | list h' _ => cases h.symm.trans h'
  · rintro ⟨gs, rfl, hgs⟩
    exact .record hes h hgs

end Content

mutual

-- An object shows one value only.
theorem Shows.unique {ignore : Path → Value → Bool} {path : Path} {a : Id} {v w : Value}
    (hv : objects.Shows ignore path a v) (hw : objects.Shows ignore path a w) : v = w := by
  match hv with
  | .atom _ h => exact ((shows_atom_iff h).mp hw).symm
  | .tuple h hxs =>
    obtain ⟨ws, rfl, hxs'⟩ := (shows_tuple_iff h).mp hw
    rw [hxs.unique hxs']
  | .list h hxs =>
    obtain ⟨ws, rfl, hxs'⟩ := (shows_list_iff h).mp hw
    rw [hxs.unique hxs']
  | .record _ h hgs =>
    obtain ⟨hs, rfl, hgs'⟩ := (shows_record_iff h).mp hw
    rw [hgs.unique hgs']

theorem ShowsItems.unique {ignore : Path → Value → Bool} {path : Path} {i : Nat} {xs : List Id}
    {vs ws : List Value} (hvs : objects.ShowsItems ignore path i xs vs)
    (hws : objects.ShowsItems ignore path i xs ws) : vs = ws := by
  match hvs, hws with
  | .nil, .nil => rfl
  | .cons hx hxs, .cons hx' hxs' => rw [hx.unique hx', hxs.unique hxs']

theorem ShowsEntries.unique {ignore : Path → Value → Bool} {path : Path}
    {es : List (Value × Id)} {gs hs : List (Value × Value)}
    (hgs : objects.ShowsEntries ignore path es gs)
    (hhs : objects.ShowsEntries ignore path es hs) : gs = hs := by
  match hgs, hhs with
  | .nil, .nil => rfl
  | .ignored _ hes, .ignored _ hes' => exact hes.unique hes'
  | .counted _ hx hes, .counted _ hx' hes' => rw [hx.unique hx', hes.unique hes']
  | .ignored hk _, .counted hk' _ _ => exact absurd (hk.symm.trans hk') (by simp)
  | .counted hk _ _, .ignored hk' _ => exact absurd (hk.symm.trans hk') (by simp)

end

theorem ShowsEntries.sublist {es : List (Value × Id)} {gs : List (Value × Value)}
    (h : objects.ShowsEntries ignore path es gs) :
    (gs.map fun g => (g.1, Value.null)).Sublist (es.map fun e => (e.1, Value.null)) := by
  induction es generalizing gs with
  | nil =>
    cases h
    exact .slnil
  | cons e es ih =>
    cases h with
    | ignored _ hes => exact (ih hes).cons _
    | counted _ _ hes => exact (ih hes).cons_cons _

mutual

theorem Shows.nested {ignore : Path → Value → Bool} {path : Path} {a : Id} {v : Value}
    (h : objects.Shows ignore path a v) : v.Nested := by
  match h with
  | .atom hv _ => exact hv.nested
  | .tuple _ hxs => exact Value.nestedItems_iff.mpr hxs.nested
  | .list _ hxs => exact Value.nested_list.mpr hxs.nested
  | .record hes _ hgs =>
    refine Value.nested_record.mpr ⟨(hes.sublist hgs.sublist).congr ?_, hgs.nested⟩
    rw [List.map_map]
    rfl

theorem ShowsItems.nested {ignore : Path → Value → Bool} {path : Path} {i : Nat} {xs : List Id}
    {vs : List Value} (h : objects.ShowsItems ignore path i xs vs) : ∀ v ∈ vs, v.Nested := by
  match h with
  | .nil => simp
  | .cons hx hxs => exact List.forall_mem_cons.mpr ⟨hx.nested, hxs.nested⟩

theorem ShowsEntries.nested {ignore : Path → Value → Bool} {path : Path}
    {es : List (Value × Id)} {gs : List (Value × Value)}
    (h : objects.ShowsEntries ignore path es gs) : ∀ g ∈ gs, g.2.Nested := by
  match h with
  | .nil => simp
  | .ignored _ hes => exact hes.nested
  | .counted _ hx hes => exact List.forall_mem_cons.mpr ⟨hx.nested, hes.nested⟩

end

theorem under_cons (k k' : Value) (x : Id) (es : List (Value × Id)) :
    under k ((k', x) :: es) = if k.equal k' then some x else under k es := by
  rw [under, List.find?_cons]
  cases k.equal k' <;> rfl

-- Under a key that counts stands an object exactly when what remains has a value under it, which
-- is then the value of the object.
theorem ShowsEntries.under_eq (hignore : Respects ignore) {es : List (Value × Id)}
    {gs : List (Value × Value)} (h : objects.ShowsEntries ignore path es gs) {k : Value}
    (hk : ignore path k = false) :
    (under k es = none ∧ lookup k gs = none) ∨
      ∃ x v, under k es = some x ∧ lookup k gs = some v ∧
        objects.Shows ignore (path ++ [k]) x v := by
  induction es generalizing gs with
  | nil =>
    cases h
    exact .inl ⟨rfl, rfl⟩
  | cons e es ih =>
    obtain ⟨k', x⟩ := e
    rw [under_cons]
    cases h with
    | ignored hk' hes =>
      have hne : ¬k.equal k' = true := by
        intro hequal
        rw [hignore path path k k' (Value.forall₂_sameKey_refl path) (.inr hequal), hk'] at hk
        exact Bool.noConfusion hk
      rw [if_neg hne]
      exact ih hes
    | counted hk' hx hes =>
      rw [Value.lookup_cons]
      by_cases hequal : k.equal k' = true
      · have hkeys : List.Forall₂ SameKey (path ++ [k]) (path ++ [k']) :=
          Value.forall₂_sameKey_concat (Value.forall₂_sameKey_refl path) (.inr hequal)
        rw [if_pos hequal, if_pos hequal]
        exact .inr ⟨_, _, rfl, rfl, hx.congr (sameBelow_of_respects hignore hkeys).symm⟩
      · rw [if_neg hequal, if_neg hequal]
        exact ih hes

end MarkupDiff.Store
