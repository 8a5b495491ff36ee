import MarkupDiff.Proofs.Place.Standing

namespace MarkupDiff.Place

-- Neither a record nor a list.
def IsScalar : Value → Prop
  | .record _ => False
  | .list _ => False
  | _ => True

-- What a step leads to where it exists: a record has the key, a list has the index. Under the key
-- of the way back a record has its owner.
inductive Step : Place → Value → Place → Prop
  | key {p : Place} {es : List (Value × Value)} {s v : Value} (hp : p.focus = .record es)
      (hv : Value.lookup s es = some v) (hne : v ≠ .owner) : Step p s (p.enter s v)
  | back {p q : Place} {es : List (Value × Value)} {s : Value} (hp : p.focus = .record es)
      (hs : Value.lookup s es = some .owner) (hq : p.owner? = some q) : Step p s q
  | index {p : Place} {xs : List Value} {s v : Value} {i : Nat} (hp : p.focus = .list xs)
      (hs : s.int? = some (Int.ofNat i)) (hv : xs[i]? = some v) : Step p s (p.enter (.nat i) v)

-- The places that a path leads to one after the other, where each of its steps exists.
inductive Route : Place → Path → List Place → Prop
  | stop (p : Place) : Route p [] []
  | go {p q : Place} {s : Value} {rest : Path} {places : List Place} (hs : Step p s q)
      (hrest : Route q rest places) : Route p (s :: rest) (q :: places)

-- Steps of the path are left over after one that leads to a scalar.
inductive Overruns : Place → Path → Prop
  | here {p q : Place} {s : Value} {rest : Path} (hs : Step p s q) (hq : IsScalar q.focus)
      (hrest : rest ≠ []) : Overruns p (s :: rest)
  | later {p q : Place} {s : Value} {rest : Path} (hs : Step p s q) (hrest : Overruns q rest) :
      Overruns p (s :: rest)

-- The longest beginning of a path all of whose steps exist, and the places along it.
structure Longest (p : Place) (path before : Path) (places : List Place) : Prop where
  route : Route p before places
  begins : before <+: path
  longest : ∀ more others, more <+: path → Route p more others → more <+: before

-- The last one of these places at which a record stands.
def LastRecord (target : Place) (places : List Place) : Prop :=
  IsRecord target.focus ∧
    ∃ front back, places = front ++ target :: back ∧ ∀ q ∈ back, ¬IsRecord q.focus

section Steps

variable {p q : Place} {s : Value}

theorem Step.step?_eq (h : Step p s q) (hs : s.IsKey) : p.step? s = .ok (some q) := by
  have hkey : s.unhashablePart? = none := hs
  cases h with
  | key hp hv hne => simp only [step?, hp, hkey, hv, enter]
  | back hp hv hq => simp only [step?, hp, hkey, hv, hq]
  | @index _ _ _ i hp hint hv =>
    have hneg : ¬Int.ofNat i < 0 := Int.not_lt.mpr (Int.natCast_nonneg i)
    simp only [step?, hp, hint, if_neg hneg]
    simp [hv, enter, hp, Value.nat, Value.int]

theorem Step.of_step? (h : p.step? s = .ok (some q)) : Step p s q := by
  cases hp : p.focus with
  | record es =>
    cases hkey : s.unhashablePart? with
    | some kind => simp [step?, hp, hkey] at h
    | none =>
      cases hlookup : Value.lookup s es with
      | none => simp [step?, hp, hkey, hlookup] at h
      | some v =>
        by_cases hv : v = .owner
        · subst hv
          simp only [step?, hp, hkey, hlookup, Except.ok.injEq] at h
          exact .back hp hlookup h
        · simp only [step?, hp, hkey, hlookup, Except.ok.injEq, Option.some.injEq] at h
          subst h
          rw [← hp]
          exact .key hp hlookup hv
  | list xs =>
    rcases step?_list hp s with hnone | ⟨i, v, hint, hi, hstep⟩
    · exact absurd (hnone.symm.trans h) (by simp)
    · obtain rfl := Option.some.inj (Except.ok.inj (hstep.symm.trans h))
      exact .index hp hint hi
  | _ => simp [step?, hp] at h

-- A step by what can be a key never fails, and it leads to where it exists for.
theorem exists_step? (p : Place) (hs : s.IsKey) :
    ∃ next?, p.step? s = .ok next? ∧ ∀ q, next? = some q ↔ Step p s q := by
  have hok : ∃ next?, p.step? s = .ok next? := by
    have hkey : s.unhashablePart? = none := hs
    cases hp : p.focus with
    | record es =>
      simp only [step?, hp, hkey]
      split <;> exact ⟨_, rfl⟩
    | list xs =>
      rcases step?_list hp s with hnone | ⟨_, _, _, _, hstep⟩
      · exact ⟨_, hnone⟩
      · exact ⟨_, hstep⟩
    | _ => exact ⟨none, by simp only [step?, hp]⟩
  obtain ⟨next?, hnext⟩ := hok
  refine ⟨next?, hnext, fun q => ⟨fun hq => .of_step? (hnext.trans (congrArg _ hq)), fun h => ?_⟩⟩
  exact Except.ok.inj (hnext.symm.trans (h.step?_eq hs))

theorem Step.of_list {xs : List Value} (h : Step p s q) (hp : p.focus = .list xs) :
    ∃ i v, xs[i]? = some v ∧ q = p.enter (.nat i) v := by
  cases h with
  | key hp' _ _ | back hp' _ _ => exact absurd (hp.symm.trans hp') Value.noConfusion
  | index hp' _ hv =>
    obtain rfl := Value.list.inj (hp.symm.trans hp')
    exact ⟨_, _, hv, rfl⟩

theorem Step.of_record {es : List (Value × Value)} (h : Step p s q) (hp : p.focus = .record es) :
    (∃ v, Value.lookup s es = some v ∧ v ≠ .owner ∧ q = p.enter s v) ∨
      Value.lookup s es = some .owner ∧ p.owner? = some q := by
  cases h with
  | key hp' hv hne =>
    obtain rfl := Value.record.inj (hp.symm.trans hp')
    exact .inl ⟨_, hv, hne, rfl⟩
  | back hp' hs hq =>
    obtain rfl := Value.record.inj (hp.symm.trans hp')
    exact .inr ⟨hs, hq⟩
  | index hp' _ _ => exact absurd (hp.symm.trans hp') Value.noConfusion

theorem Step.unique {r : Place} (h : Step p s q) (h' : Step p s r) : q = r := by
  cases h with
  | key hp hv hne =>
    rcases h'.of_record hp with ⟨w, hw, -, rfl⟩ | ⟨hw, -⟩
    · rw [Option.some.inj (hv.symm.trans hw)]
    · exact absurd (Option.some.inj (hv.symm.trans hw)) hne
  | back hp hs hq =>
    rcases h'.of_record hp with ⟨w, hw, hne, -⟩ | ⟨-, hr⟩
    · exact absurd (Option.some.inj (hw.symm.trans hs)) hne
    · exact Option.some.inj (hq.symm.trans hr)
  | index hp hs hv =>
    cases h' with
    | key hp' _ _ | back hp' _ _ => exact absurd (hp.symm.trans hp') Value.noConfusion
    | index hp' hs' hv' =>
      obtain rfl := Value.list.inj (hp.symm.trans hp')
      obtain rfl := Int.ofNat.inj (Option.some.inj (hs.symm.trans hs'))
      rw [Option.some.inj (hv.symm.trans hv')]

-- Nor does any step lead to where it does not exist for.
theorem Step.next?_eq {next? : Option Place} (h : Step p s q) (hnext : p.step? s = .ok next?) :
    next? = some q := by
  cases next? with
  | some r => rw [(Step.of_step? hnext).unique h]
  | none =>
    cases hkey : s.unhashablePart? with
    | none => exact Except.ok.inj (hnext.symm.trans (h.step?_eq hkey))
    | some kind =>
      cases h with
      | key hp _ _ | back hp _ _ => simp [step?, hp, hkey] at hnext
      | index hp hs hv => simp [step?, hp, hs, hv] at hnext

theorem not_step_of_isScalar (hp : IsScalar p.focus) : ¬Step p s q := by
  intro h
  cases h <;> simp_all [IsScalar]

end Steps

section Routes

variable {p q : Place} {s : Value} {rest : Path} {next? : Option Place}

-- Where the first step leads, the rest of the path begins.
theorem route_cons_iff (hnext : ∀ q, next? = some q ↔ Step p s q) :
    (∃ places, Route p (s :: rest) places) ↔
      ∃ q, next? = some q ∧ ∃ places, Route q rest places := by
  constructor
  · rintro ⟨_, h⟩
    cases h with
    | go hs hrest => exact ⟨_, (hnext _).mpr hs, _, hrest⟩
  · rintro ⟨q, hq, places, hrest⟩
    exact ⟨_, .go ((hnext q).mp hq) hrest⟩

theorem overruns_cons_iff (hnext : ∀ q, next? = some q ↔ Step p s q) :
    Overruns p (s :: rest) ↔
      ∃ q, next? = some q ∧ (IsScalar q.focus ∧ rest ≠ [] ∨ Overruns q rest) := by
  constructor
  · intro h
    cases h with
    | here hs hq hrest => exact ⟨_, (hnext _).mpr hs, .inl ⟨hq, hrest⟩⟩
    | later hs hrest => exact ⟨_, (hnext _).mpr hs, .inr hrest⟩
  · rintro ⟨q, hq, ⟨hscalar, hrest⟩ | hrest⟩
    · exact .here ((hnext q).mp hq) hscalar hrest
    · exact .later ((hnext q).mp hq) hrest

theorem not_route_of_overruns {path : Path} (h : Overruns p path) :
    ¬∃ places, Route p path places := by
  induction h with
  | here hs hq hne =>
    rintro ⟨_, hroute⟩
    cases hroute with
    | go hs' hrest =>
      obtain rfl := hs.unique hs'
      cases hrest with
      | stop => exact hne rfl
      | go hstep _ => exact not_step_of_isScalar hq hstep
  | later hs _ ih =>
    rintro ⟨_, hroute⟩
    cases hroute with
    | go hs' hrest =>
      obtain rfl := hs.unique hs'
      exact ih ⟨_, hrest⟩

-- A walk reports that it has come to an end just where the path can be followed to its end, or to
-- a scalar that ends it before.
theorem walkFrom_resolved_iff (p target : Place) {path : Path} (hpath : ∀ s ∈ path, s.IsKey) :
    ∃ w, walkFrom target p path = .ok w ∧
      (w.resolved = true ↔ (∃ places, Route p path places) ∨ Overruns p path) := by
  induction path generalizing p target with
  | nil => exact ⟨_, rfl, iff_of_true rfl (.inl ⟨[], .stop p⟩)⟩
  | cons s rest ih =>
    obtain ⟨hs, hrest⟩ := List.forall_mem_cons.mp hpath
    obtain ⟨next?, hstep, hnext⟩ := p.exists_step? hs
    rw [route_cons_iff hnext, overruns_cons_iff hnext, walkFrom, hstep]
    cases next? with
    | none => exact ⟨_, rfl, by simp⟩
    | some q =>
      simp only [Option.some.injEq, exists_eq_left']
      cases hq : q.focus with
      | record es =>
        obtain ⟨w, hw, hresolved⟩ := ih q q hrest
        exact ⟨w, hw, by simpa [IsScalar] using hresolved⟩
      | list xs =>
        obtain ⟨w, hw, hresolved⟩ := ih q target hrest
        exact ⟨w, hw, by simpa [IsScalar] using hresolved⟩
      | _ =>
        refine ⟨_, rfl, iff_of_true rfl ?_⟩
        cases rest with
        | nil => exact .inl ⟨[], .stop q⟩
        | cons t rest => exact .inr (.inl ⟨trivial, by simp⟩)

theorem Longest.nil (p : Place) : Longest p [] [] [] where
  route := .stop p
  begins := List.nil_prefix
  longest _ _ hmore _ := hmore

theorem Longest.stuck (h : ∀ q, ¬Step p s q) (rest : Path) : Longest p (s :: rest) [] [] where
  route := .stop p
  begins := List.nil_prefix
  longest more others hmore hroute := by
    cases hroute with
    | stop => exact List.nil_prefix
    | go hs _ =>
      obtain ⟨rfl, _⟩ := List.cons_prefix_cons.mp hmore
      exact absurd hs (h _)

theorem Longest.step {before : Path} {places : List Place} (hs : Step p s q)
    (h : Longest q rest before places) : Longest p (s :: rest) (s :: before) (q :: places) where
  route := .go hs h.route
  begins := List.cons_prefix_cons.mpr ⟨rfl, h.begins⟩
  longest more others hmore hroute := by
    cases hroute with
    | stop => exact List.nil_prefix
    | go hs' hrest =>
      obtain ⟨rfl, hbegins⟩ := List.cons_prefix_cons.mp hmore
      obtain rfl := hs.unique hs'
      exact List.cons_prefix_cons.mpr ⟨rfl, h.longest _ _ hbegins hrest⟩

theorem Longest.of_isScalar (hp : IsScalar p.focus) (path : Path) : Longest p path [] [] := by
  cases path with
  | nil => exact .nil p
  | cons s rest => exact .stuck (fun _ => not_step_of_isScalar hp) rest

theorem LastRecord.concat {target q : Place} {places : List Place} (h : LastRecord target places)
    (hq : ¬IsRecord q.focus) : LastRecord target (places ++ [q]) := by
  obtain ⟨hrecord, front, back, rfl, hback⟩ := h
  refine ⟨hrecord, front, back ++ [q], by simp, fun r hr => ?_⟩
  rcases List.mem_append.mp hr with hr | hr
  · exact hback r hr
  · exact List.mem_singleton.mp hr ▸ hq

theorem LastRecord.at_end {q : Place} (hq : IsRecord q.focus) (places : List Place) :
    LastRecord q (places ++ [q]) :=
  ⟨hq, places, [], rfl, by simp⟩

-- A walk leads to the last record on the longest beginning of its path that exists.
theorem walkFrom_target {target : Place} {path : Path} {seen : List Place} {w : Walk}
    (hseen : LastRecord target seen) (hw : walkFrom target p path = .ok w) :
    ∃ before places, Longest p path before places ∧ LastRecord w.target (seen ++ places) := by
  induction path generalizing p target seen with
  | nil =>
    obtain rfl := Except.ok.inj hw
    exact ⟨[], [], .nil p, by rwa [List.append_nil]⟩
  | cons s rest ih =>
    rw [walkFrom] at hw
    cases hstep : p.step? s with
    | error fault => simp [hstep] at hw
    | ok next? =>
      cases next? with
      | none =>
        simp only [hstep, Except.ok.injEq] at hw
        subst hw
        refine ⟨[], [], .stuck (fun q hq => ?_) rest, by rwa [List.append_nil]⟩
        exact absurd (hq.next?_eq hstep) (by simp)
      | some q =>
        have hq : Step p s q := .of_step? hstep
        have happend : ∀ places, seen ++ q :: places = seen ++ [q] ++ places := by simp
        cases hfocus : q.focus with
        | record es =>
          simp only [hstep, hfocus] at hw
          obtain ⟨before, places, hlongest, hlast⟩ := ih (.at_end (hfocus ▸ trivial) seen) hw
          exact ⟨s :: before, q :: places, hlongest.step hq, happend places ▸ hlast⟩
        | list xs =>
          simp only [hstep, hfocus] at hw
          have hlist : ¬IsRecord q.focus := hfocus ▸ id
          obtain ⟨before, places, hlongest, hlast⟩ := ih (hseen.concat hlist) hw
          exact ⟨s :: before, q :: places, hlongest.step hq, happend places ▸ hlast⟩
        | _ =>
          simp only [hstep, hfocus, Except.ok.injEq] at hw
          subst hw
          exact ⟨[s], [q], (Longest.of_isScalar (hfocus ▸ trivial) rest).step hq,
            hseen.concat (hfocus ▸ id)⟩

end Routes

end MarkupDiff.Place
