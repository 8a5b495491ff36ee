import MarkupDiff.Proofs.Difference.Shown
import Mathlib.Data.Set.Card
import Mathlib.Logic.Relation

namespace MarkupDiff.Store

open Relation (ReflTransGen TransGen)

variable {Id : Type} {objects : Store Id} {ignore : Path → Value → Bool} {path : Path} {a : Id}
  {i : Nat} {xs : List Id} {es : List (Value × Id)}

-- An object where a walk comes to it, with what is ignored from there on.
structure Spot (Id : Type) where
  ignore : Path → Value → Bool
  path : Path
  object : Id

-- From an object a walk may go on to those that it holds, apart from ignored ones.
inductive Leads (objects : Store Id) : Spot Id → Spot Id → Prop
  | tuple {s : Spot Id} {xs : List Id} {i : Nat} {x : Id} (h : objects s.object = .tuple xs)
      (hx : xs[i]? = some x) : Leads objects s ⟨ignoringNothing, s.path ++ [.nat i], x⟩
  | list {s : Spot Id} {xs : List Id} {i : Nat} {x : Id} (h : objects s.object = .list xs)
      (hx : xs[i]? = some x) : Leads objects s ⟨s.ignore, s.path ++ [.nat i], x⟩
  | record {s : Spot Id} {es : List (Value × Id)}
      {hes : Value.DistinctKeys (es.map fun e => (e.1, .null))} {k : Value} {x : Id}
      (h : objects s.object = .record es hes) (hx : (k, x) ∈ es)
      (hk : s.ignore s.path k = false) : Leads objects s ⟨s.ignore, s.path ++ [k], x⟩

-- However a walk goes on from an object, it comes to an end.
def Ends (objects : Store Id) (ignore : Path → Value → Bool) (path : Path) (a : Id) : Prop :=
  Acc (fun t s => objects.Leads s t) ⟨ignore, path, a⟩

-- Where only finitely many things are reached and none of them from itself, every way ends. What is
-- reached becomes less with every step, since the step does not lead back.
theorem acc_of_finite_of_acyclic {α β : Type} {step : α → α → Prop} (name : α → β) {s : α}
    (hfinite : (name '' {t | ReflTransGen step s t}).Finite)
    (hacyclic : ∀ t u, ReflTransGen step s t → TransGen step t u → name t ≠ name u) :
    Acc (fun u t => step t u) s := by
  induction hcard : (name '' {t | ReflTransGen step s t}).ncard using Nat.strong_induction_on
    generalizing s with
  | _ n ih =>
    refine Acc.intro s fun t hst => ?_
    have hsub : name '' {u | ReflTransGen step t u} ⊆ name '' {u | ReflTransGen step s u} :=
      Set.image_mono fun u hu => ReflTransGen.head hst hu
    have hmissing : name s ∉ name '' {u | ReflTransGen step t u} := by
      rintro ⟨u, hu, hname⟩
      exact hacyclic s u .refl (TransGen.head' hst hu) hname.symm
    have hlt := Set.ncard_lt_ncard (hsub.ssubset_of_mem_notMem ⟨s, .refl, rfl⟩ hmissing) hfinite
    exact ih _ (hcard ▸ hlt) (hfinite.subset hsub)
      (fun u v hu hv => hacyclic u v (.head hst hu) hv) rfl

-- The part that counts from an object on: it has finitely many objects, and none of them leads back
-- to itself.
structure IsFiniteAcyclic (objects : Store Id) (ignore : Path → Value → Bool) (path : Path)
    (a : Id) : Prop where
  finite : (Spot.object '' {t | ReflTransGen objects.Leads ⟨ignore, path, a⟩ t}).Finite
  acyclic : ∀ t u, ReflTransGen objects.Leads ⟨ignore, path, a⟩ t →
    TransGen objects.Leads t u → t.object ≠ u.object

theorem IsFiniteAcyclic.ends (h : objects.IsFiniteAcyclic ignore path a) :
    objects.Ends ignore path a :=
  acc_of_finite_of_acyclic Spot.object h.finite h.acyclic

theorem exists_showsItems
    (h : ∀ j x, xs[j]? = some x → ∃ v, objects.Shows ignore (path ++ [.nat (i + j)]) x v) :
    ∃ vs, objects.ShowsItems ignore path i xs vs := by
  induction xs generalizing i with
  | nil => exact ⟨[], .nil⟩
  | cons x xs ih =>
    obtain ⟨v, hv⟩ := h 0 x rfl
    have hrest : ∀ j y, xs[j]? = some y →
        ∃ v, objects.Shows ignore (path ++ [.nat (i + 1 + j)]) y v := by
      intro j y hy
      rw [Nat.add_assoc, Nat.add_comm 1 j]
      exact h (j + 1) y hy
    obtain ⟨vs, hvs⟩ := ih hrest
    exact ⟨v :: vs, .cons hv hvs⟩

theorem exists_showsEntries
    (h : ∀ k x, (k, x) ∈ es → ignore path k = false → ∃ v, objects.Shows ignore (path ++ [k]) x v) :
    ∃ gs, objects.ShowsEntries ignore path es gs := by
  induction es with
  | nil => exact ⟨[], .nil⟩
  | cons e es ih =>
    obtain ⟨k, x⟩ := e
    obtain ⟨gs, hgs⟩ := ih fun k x hx => h k x (List.mem_cons_of_mem _ hx)
    cases hk : ignore path k with
    | true => exact ⟨gs, .ignored hk hgs⟩
    | false =>
      obtain ⟨v, hv⟩ := h k x List.mem_cons_self hk
      exact ⟨(k, v) :: gs, .counted hk hv hgs⟩

theorem exists_shows_of_acc {s : Spot Id} (h : Acc (fun t s => objects.Leads s t) s) :
    ∃ v, objects.Shows s.ignore s.path s.object v := by
  induction h with
  | intro s _ ih =>
    cases hs : objects s.object with
    | atom v hv => exact ⟨v, .atom hv hs⟩
    | tuple xs =>
      obtain ⟨vs, hvs⟩ := exists_showsItems (i := 0) fun j x hx => by
        simpa using ih _ (.tuple hs hx)
      exact ⟨.tuple vs, .tuple hs hvs⟩
    | list xs =>
      obtain ⟨vs, hvs⟩ := exists_showsItems (i := 0) fun j x hx => by
        simpa using ih _ (.list hs hx)
      exact ⟨.list vs, .list hs hvs⟩
    | record es hes =>
      obtain ⟨gs, hgs⟩ := exists_showsEntries fun k x hx hk => ih _ (.record hs hx hk)
      exact ⟨.record gs, .record hes hs hgs⟩

theorem Ends.exists_shows (h : objects.Ends ignore path a) :
    ∃ v, objects.Shows ignore path a v :=
  exists_shows_of_acc h

mutual

-- Where a value remains, every way ends.
theorem Shows.ends {ignore : Path → Value → Bool} {path : Path} {a : Id} {v : Value}
    (h : objects.Shows ignore path a v) : objects.Ends ignore path a := by
  refine Acc.intro _ fun t ht => ?_
  match h with
  | .atom _ h => cases ht with
    | tuple h' _ | list h' _ | record h' _ _ => cases h.symm.trans h'
  | .tuple h hxs => cases ht with
    | tuple h' hx =>
      obtain rfl := Content.tuple.inj (h.symm.trans h')
      simpa [Ends] using hxs.ends _ _ hx
    | list h' _ | record h' _ _ => cases h.symm.trans h'
  | .list h hxs => cases ht with
    | list h' hx =>
      obtain rfl := Content.list.inj (h.symm.trans h')
      simpa [Ends] using hxs.ends _ _ hx
    | tuple h' _ | record h' _ _ => cases h.symm.trans h'
  | .record _ h hgs => cases ht with
    | record h' hx hk =>
      obtain rfl := Content.record.inj (h.symm.trans h')
      exact hgs.ends _ _ hx hk
    | tuple h' _ | list h' _ => cases h.symm.trans h'

theorem ShowsItems.ends {ignore : Path → Value → Bool} {path : Path} {i : Nat} {xs : List Id}
    {vs : List Value} (h : objects.ShowsItems ignore path i xs vs) :
    ∀ j x, xs[j]? = some x → objects.Ends ignore (path ++ [.nat (i + j)]) x := by
  match h with
  | .nil => simp
  | .cons hx hxs =>
    intro j y hy
    cases j with
    | zero =>
      obtain rfl := Option.some.inj hy
      exact hx.ends
    | succ j =>
      have hrest := hxs.ends j y hy
      rwa [Nat.add_assoc, Nat.add_comm 1 j] at hrest

theorem ShowsEntries.ends {ignore : Path → Value → Bool} {path : Path}
    {es : List (Value × Id)} {gs : List (Value × Value)}
    (h : objects.ShowsEntries ignore path es gs) :
    ∀ k x, (k, x) ∈ es → ignore path k = false → objects.Ends ignore (path ++ [k]) x := by
  match h with
  | .nil => simp
  | .ignored hk hes =>
    intro k x hx hk'
    cases hx with
    | head => exact absurd (hk.symm.trans hk') (by simp)
    | tail _ hx => exact hes.ends k x hx hk'
  | .counted _ hy hes =>
    intro k x hx hk
    cases hx with
    | head => exact hy.ends
    | tail _ hx => exact hes.ends k x hx hk

end

section Agreement

-- What an object holds apart from ignored entries.
def counted (ignore : Path → Value → Bool) (path : Path) : Content Id → Content Id
  | .record es hes =>
    .record (es.filter fun e => !ignore path e.1) (hes.sublist (List.filter_sublist.map _))
  | c => c

-- Wherever a walk may come to, the objects hold the same apart from ignored entries. Those may lead
-- anywhere or be missing.
def Agrees (objects objects' : Store Id) (s : Spot Id) : Prop :=
  ∀ t, ReflTransGen objects.Leads s t →
    counted t.ignore t.path (objects t.object) = counted t.ignore t.path (objects' t.object)

variable {objects' : Store Id}

theorem Agrees.here {s : Spot Id} (h : objects.Agrees objects' s) :
    counted s.ignore s.path (objects s.object) = counted s.ignore s.path (objects' s.object) :=
  h s .refl

theorem Agrees.next {s t : Spot Id} (h : objects.Agrees objects' s) (hst : objects.Leads s t) :
    objects.Agrees objects' t :=
  fun u hu => h u (.head hst hu)

-- Without tuples the same keys are ignored everywhere.
theorem ignore_eq_of_reaches (htuple : ∀ a xs, objects a ≠ .tuple xs) {t : Spot Id}
    (ht : ReflTransGen objects.Leads ⟨ignore, path, a⟩ t) : t.ignore = ignore := by
  induction ht with
  | refl => rfl
  | tail _ hst ih =>
    cases hst with
    | tuple h' _ => exact absurd h' (htuple _ _)
    | list _ _ | record _ _ _ => exact ih

theorem agrees_of_counted {ignore : Path → Value → Bool}
    (h : ∀ path a, counted ignore path (objects a) = counted ignore path (objects' a))
    (htuple : ∀ a xs, objects a ≠ .tuple xs) (path : Path) (a : Id) :
    objects.Agrees objects' ⟨ignore, path, a⟩ := by
  intro t ht
  rw [ignore_eq_of_reaches htuple ht]
  exact h t.path t.object

-- The objects that an object holds.
def members : Content Id → List Id
  | .atom _ _ => []
  | .tuple xs => xs
  | .list xs => xs
  | .record es _ => es.map (·.2)

theorem Leads.object_mem {s t : Spot Id} (h : objects.Leads s t) :
    t.object ∈ members (counted s.ignore s.path (objects s.object)) := by
  cases h with
  | tuple h hx | list h hx =>
    rw [h]
    exact List.mem_of_getElem? hx
  | @record es _ k x h hx hk =>
    have hmem : (k, x) ∈ es.filter fun e => !s.ignore s.path e.1 :=
      List.mem_filter.mpr ⟨hx, by simp [hk]⟩
    rw [h]
    exact List.mem_map_of_mem hmem

-- Where every object leads to later ones only and these are limited, it is finite and acyclic.
theorem isFiniteAcyclic_of_lt {objects : Store Nat} {bound : Nat} (path : Path) (a : Nat)
    (htuple : ∀ a xs, objects a ≠ .tuple xs)
    (hlt : ∀ path a, ∀ x ∈ members (counted ignore path (objects a)), a < x ∧ x < bound) :
    objects.IsFiniteAcyclic ignore path a := by
  have hstep : ∀ {t u : Spot Nat}, ReflTransGen objects.Leads ⟨ignore, path, a⟩ t →
      objects.Leads t u → t.object < u.object ∧ u.object < bound := by
    intro t u ht htu
    exact hlt t.path t.object _ (ignore_eq_of_reaches htuple ht ▸ htu.object_mem)
  constructor
  · refine ((Set.finite_lt_nat bound).insert a).subset ?_
    rintro _ ⟨t, ht, rfl⟩
    rcases ReflTransGen.cases_tail ht with rfl | ⟨u, hu, hut⟩
    · exact .inl rfl
    · exact .inr (hstep hu hut).2
  · intro t u ht htu
    refine Nat.ne_of_lt ?_
    induction htu with
    | single h => exact (hstep ht h).1
    | tail hv h ih => exact ih.trans (hstep (ht.trans hv.to_reflTransGen) h).1

theorem eq_of_counted_eq {c d : Content Id} (h : counted ignore path c = counted ignore path d)
    (hc : ∀ es hes, c ≠ .record es hes) : d = c := by
  cases c with
  | record es hes => exact absurd rfl (hc es hes)
  | _ => cases d <;> simp_all [counted]

theorem exists_of_counted_eq {d : Content Id}
    {hes : Value.DistinctKeys (es.map fun e => (e.1, .null))}
    (h : counted ignore path (.record es hes) = counted ignore path d) :
    ∃ fs hfs, d = .record fs hfs ∧
      es.filter (fun e => !ignore path e.1) = fs.filter fun e => !ignore path e.1 := by
  cases d with
  | record fs hfs => exact ⟨fs, hfs, rfl, (Content.record.inj h)⟩
  | _ => simp [counted] at h

theorem showsEntries_filter {gs : List (Value × Value)} :
    objects.ShowsEntries ignore path (es.filter fun e => !ignore path e.1) gs ↔
      objects.ShowsEntries ignore path es gs := by
  induction es generalizing gs with
  | nil => rfl
  | cons e es ih =>
    obtain ⟨k, x⟩ := e
    rw [List.filter_cons]
    cases hk : ignore path k with
    | true =>
      rw [if_neg (by simp), ih]
      constructor
      · exact .ignored hk
      · intro h
        cases h with
        | ignored _ h => exact h
        | counted hk' _ _ => exact absurd (hk.symm.trans hk') (by simp)
    | false =>
      rw [if_pos (by simp)]
      constructor
      · intro h
        cases h with
        | ignored hk' _ => exact absurd (hk.symm.trans hk') (by simp)
        | counted _ hx h => exact .counted hk hx (ih.mp h)
      · intro h
        cases h with
        | ignored hk' _ => exact absurd (hk.symm.trans hk') (by simp)
        | counted _ hx h => exact .counted hk hx (ih.mpr h)

mutual

-- What is ignored has no part in the value that an object shows.
theorem Shows.agree {ignore : Path → Value → Bool} {path : Path} {a : Id} {v : Value}
    (h : objects.Shows ignore path a v) (hagrees : objects.Agrees objects' ⟨ignore, path, a⟩) :
    objects'.Shows ignore path a v := by
  have hhere := hagrees.here
  match h with
  | .atom hv h =>
    rw [h] at hhere
    exact .atom hv (eq_of_counted_eq hhere (by simp))
  | .tuple h hxs =>
    rw [h] at hhere
    exact .tuple (eq_of_counted_eq hhere (by simp))
      (hxs.agree fun j x hx => by simpa using hagrees.next (.tuple h hx))
  | .list h hxs =>
    rw [h] at hhere
    exact .list (eq_of_counted_eq hhere (by simp))
      (hxs.agree fun j x hx => by simpa using hagrees.next (.list h hx))
  | .record hes h hgs =>
    rw [h] at hhere
    obtain ⟨fs, hfs, h', hfilter⟩ := exists_of_counted_eq hhere
    refine .record hfs h' (showsEntries_filter.mp ?_)
    rw [← hfilter, showsEntries_filter]
    exact hgs.agree fun k x hx hk => hagrees.next (.record h hx hk)

theorem ShowsItems.agree {ignore : Path → Value → Bool} {path : Path} {i : Nat} {xs : List Id}
    {vs : List Value} (h : objects.ShowsItems ignore path i xs vs)
    (hagrees : ∀ j x, xs[j]? = some x →
      objects.Agrees objects' ⟨ignore, path ++ [.nat (i + j)], x⟩) :
    objects'.ShowsItems ignore path i xs vs := by
  match h with
  | .nil => exact .nil
  | .cons hx hxs =>
    refine .cons (hx.agree (hagrees 0 _ rfl)) (hxs.agree fun j y hy => ?_)
    rw [Nat.add_assoc, Nat.add_comm 1 j]
    exact hagrees (j + 1) y hy

theorem ShowsEntries.agree {ignore : Path → Value → Bool} {path : Path}
    {es : List (Value × Id)} {gs : List (Value × Value)}
    (h : objects.ShowsEntries ignore path es gs)
    (hagrees : ∀ k x, (k, x) ∈ es → ignore path k = false →
      objects.Agrees objects' ⟨ignore, path ++ [k], x⟩) :
    objects'.ShowsEntries ignore path es gs := by
  match h with
  | .nil => exact .nil
  | .ignored hk hes =>
    exact .ignored hk (hes.agree fun k x hx => hagrees k x (List.mem_cons_of_mem _ hx))
  | .counted hk hx hes =>
    exact .counted hk (hx.agree (hagrees _ _ List.mem_cons_self hk))
      (hes.agree fun k x hx => hagrees k x (List.mem_cons_of_mem _ hx))

end

end Agreement

end MarkupDiff.Store
