import MarkupDiff.Proofs.Text.Words
import Mathlib.Logic.Relation

namespace MarkupDiff.Attr

-- One step that keeps the meaning of attributes: two neighbours of different names change places,
-- or a class value takes the same words in another order or with other blanks.
inductive Move : List Attr → List Attr → Prop
  | swapped (before after : List Attr) (a b : Attr) (hname : a.name ≠ b.name) :
      Move (before ++ a :: b :: after) (before ++ b :: a :: after)
  | reworded (before after : List Attr) (v w : String) (hwords : (wordsOf v).Perm (wordsOf w)) :
      Move (before ++ ⟨"class", v⟩ :: after) (before ++ ⟨"class", w⟩ :: after)

-- Attributes with the same meaning.
def Same : List Attr → List Attr → Prop :=
  Relation.EqvGen Move

theorem Move.same {as bs : List Attr} (h : Move as bs) : Same as bs :=
  .rel _ _ h

theorem Same.refl (as : List Attr) : Same as as :=
  Relation.EqvGen.refl as

theorem Same.symm {as bs : List Attr} (h : Same as bs) : Same bs as :=
  Relation.EqvGen.symm _ _ h

theorem Same.trans {as bs cs : List Attr} (h₁ : Same as bs) (h₂ : Same bs cs) : Same as cs :=
  Relation.EqvGen.trans _ _ _ h₁ h₂

-- The attributes of one name, in their order.
def named (name : String) (attrs : List Attr) : List Attr :=
  attrs.filter (·.name == name)

def nameLe (a b : Attr) : Bool :=
  textLe a.name b.name

theorem nameLe_trans (a b c : Attr) (hab : nameLe a b = true) (hbc : nameLe b c = true) :
    nameLe a c = true :=
  textLe_trans _ _ _ hab hbc

theorem nameLe_total (a b : Attr) : (nameLe a b || nameLe b a) = true :=
  textLe_total _ _

@[simp] theorem canonical_name (a : Attr) : a.canonical.name = a.name := by
  unfold canonical
  split <;> rfl

@[simp] theorem canonical_class (v : String) :
    canonical ⟨"class", v⟩ = ⟨"class", classValue v⟩ := rfl

-- Attributes can be brought into their usual form before they are sorted.
theorem sorted_eq_mergeSort (attrs : List Attr) :
    sorted attrs = (attrs.map canonical).mergeSort nameLe := by
  unfold sorted
  apply List.map_mergeSort
  intro a _ b _
  simp [nameLe]

-- Sorting keeps the order of the attributes of one name.
theorem named_mergeSort (name : String) (attrs : List Attr) :
    named name (attrs.mergeSort nameLe) = named name attrs := by
  have hle : (named name attrs).Pairwise fun a b => nameLe a b = true := by
    apply List.Pairwise.imp_of_mem (R := fun _ _ => True)
    · intro a b ha hb _
      have ha := (List.mem_filter.mp ha).2
      have hb := (List.mem_filter.mp hb).2
      simp only [beq_iff_eq] at ha hb
      rw [nameLe, ha, hb]
      exact textLe_iff.mpr (String.le_refl name)
    · exact List.pairwise_of_forall fun _ _ => trivial
  have hsub : (named name attrs).Sublist (attrs.mergeSort nameLe) :=
    List.sublist_mergeSort nameLe_trans nameLe_total hle List.filter_sublist
  have hsub : (named name attrs).Sublist (named name (attrs.mergeSort nameLe)) := by
    have := hsub.filter (·.name == name)
    rwa [show (named name attrs).filter (·.name == name) = named name attrs by
      simp [named]] at this
  have hlen : (named name (attrs.mergeSort nameLe)).length = (named name attrs).length :=
    ((List.mergeSort_perm attrs nameLe).filter _).length_eq
  exact (hsub.eq_of_length hlen.symm).symm

theorem named_cons_self (a : Attr) (attrs : List Attr) :
    named a.name (a :: attrs) = a :: named a.name attrs := by
  simp [named]

theorem named_cons_of_ne {a : Attr} {name : String} (h : a.name ≠ name) (attrs : List Attr) :
    named name (a :: attrs) = named name attrs := by
  simp [named, h]

-- Once a common first attribute is taken off, what is left still agrees name by name.
theorem named_tail_eq {a : Attr} {as bs : List Attr}
    (h : ∀ name, named name (a :: as) = named name (a :: bs)) (name : String) :
    named name as = named name bs := by
  have := h name
  by_cases hname : a.name = name
  · subst hname
    rw [named_cons_self, named_cons_self] at this
    exact (List.cons.inj this).2
  · rwa [named_cons_of_ne hname, named_cons_of_ne hname] at this

-- In ascending order, attributes are determined by what they hold under each name.
theorem eq_of_named_eq {as bs : List Attr}
    (ha : as.Pairwise fun a b => nameLe a b = true) (hb : bs.Pairwise fun a b => nameLe a b = true)
    (h : ∀ name, named name as = named name bs) : as = bs := by
  induction as generalizing bs with
  | nil =>
    cases bs with
    | nil => rfl
    | cons b bs =>
      have := h b.name
      simp [named] at this
  | cons a as ih =>
    cases bs with
    | nil =>
      have := h a.name
      simp [named] at this
    | cons b bs =>
      have hfirst : ∀ {c d : Attr} {cs ds : List Attr},
          (d :: ds).Pairwise (fun x y => nameLe x y = true) →
          named c.name (c :: cs) = named c.name (d :: ds) → nameLe d c = true := by
        intro c d cs ds hd hc
        have hmem : c ∈ d :: ds := by
          have : c ∈ named c.name (d :: ds) := hc ▸ named_cons_self c cs ▸ List.mem_cons_self
          exact (List.mem_filter.mp this).1
        rcases List.mem_cons.mp hmem with rfl | hmem
        · exact textLe_iff.mpr (String.le_refl _)
        · exact List.rel_of_pairwise_cons hd hmem
      have hname : a.name = b.name :=
        textLe_antisymm (hfirst ha (h b.name).symm) (hfirst hb (h a.name))
      have hhead := h a.name
      rw [named_cons_self, hname, named_cons_self] at hhead
      obtain ⟨rfl, _⟩ := List.cons.inj hhead
      rw [ih ha.of_cons hb.of_cons (named_tail_eq h)]

theorem mergeSort_eq_iff {as bs : List Attr} :
    as.mergeSort nameLe = bs.mergeSort nameLe ↔ ∀ name, named name as = named name bs := by
  constructor
  · intro h name
    rw [← named_mergeSort, h, named_mergeSort]
  · intro h
    apply eq_of_named_eq (List.pairwise_mergeSort nameLe_trans nameLe_total as)
      (List.pairwise_mergeSort nameLe_trans nameLe_total bs)
    intro name
    rw [named_mergeSort, named_mergeSort, h]

theorem named_swap {a b : Attr} (hname : a.name ≠ b.name) (before after : List Attr)
    (name : String) :
    named name (before ++ a :: b :: after) = named name (before ++ b :: a :: after) := by
  simp only [named, List.filter_append, List.append_cancel_left_eq]
  by_cases ha : a.name = name
  · have hb : b.name ≠ name := fun hb => hname (ha.trans hb.symm)
    simp [ha, hb]
  · simp [ha, List.filter_cons]

theorem sorted_eq_of_move {as bs : List Attr} (h : Move as bs) : sorted as = sorted bs := by
  rw [sorted_eq_mergeSort, sorted_eq_mergeSort]
  cases h with
  | swapped before after a b hname =>
    simp only [List.map_append, List.map_cons]
    exact mergeSort_eq_iff.mpr (named_swap (by simpa using hname) _ _)
  | reworded before after v w hwords =>
    simp only [List.map_append, List.map_cons, canonical_class, classValue_eq_iff.mpr hwords]

-- An attribute moves to the front past attributes of other names.
theorem same_move_front {a : Attr} {past : List Attr} (h : ∀ b ∈ past, b.name ≠ a.name)
    (before after : List Attr) :
    Same (before ++ past ++ a :: after) (before ++ a :: past ++ after) := by
  induction past generalizing before with
  | nil => simpa using Same.refl _
  | cons b past ih =>
    have hrest := ih (fun c hc => h c (List.mem_cons_of_mem _ hc)) (before ++ [b])
    have hswap := Move.swapped before (past ++ after) b a (h b (by simp))
    have hswap : Same (before ++ b :: a :: past ++ after) (before ++ a :: b :: past ++ after) := by
      simpa using hswap.same
    exact Same.trans (by simpa using hrest) hswap

theorem same_of_named_eq {as bs : List Attr} (h : ∀ name, named name as = named name bs)
    (before : List Attr) : Same (before ++ as) (before ++ bs) := by
  induction as generalizing before bs with
  | nil =>
    cases bs with
    | nil => exact Same.refl _
    | cons b bs =>
      have := h b.name
      simp [named] at this
  | cons a as ih =>
    have ha : a ∈ named a.name bs := h a.name ▸ named_cons_self a as ▸ List.mem_cons_self
    have hfind : bs.find? (·.name == a.name) = some a := by
      rw [← List.head?_filter]
      change (named a.name bs).head? = some a
      rw [← h a.name, named_cons_self, List.head?_cons]
    obtain ⟨_, past, after, rfl, hpast⟩ := List.find?_eq_some_iff_append.mp hfind
    have hpast : ∀ b ∈ past, b.name ≠ a.name := fun b hb => by simpa using hpast b hb
    have hfront : ∀ name, named name (past ++ a :: after) = named name (a :: (past ++ after)) := by
      intro name
      by_cases hname : a.name = name
      · subst hname
        have : named a.name past = [] := List.filter_eq_nil_iff.mpr (by simpa using hpast)
        simp only [named, List.filter_append, List.filter_cons] at this ⊢
        simp [this]
      · simp only [named, List.filter_append, List.filter_cons]
        simp [hname]
    have hrest := ih (named_tail_eq fun name => (h name).trans (hfront name)) (before ++ [a])
    have hmove := same_move_front hpast before after
    exact Same.trans (by simpa using hrest) (by simpa using hmove.symm)

theorem canonical_canonical (a : Attr) : a.canonical.canonical = a.canonical := by
  by_cases ha : a.name = "class"
  · obtain ⟨name, v⟩ := a
    subst ha
    have : classValue (classValue v) = classValue v := by
      rw [classValue_eq_iff, wordsOf_classValue]
      exact List.mergeSort_perm _ _
    simp [this]
  · simp [canonical, ha]

-- Sorted attributes stay as they are.
theorem sorted_sorted (attrs : List Attr) : sorted (sorted attrs) = sorted attrs := by
  have hcanonical : (sorted attrs).map canonical = sorted attrs := by
    rw [List.map_congr_left (g := id), List.map_id]
    intro a ha
    obtain ⟨b, _, rfl⟩ := List.mem_map.mp ha
    exact canonical_canonical b
  rw [sorted_eq_mergeSort (sorted attrs), hcanonical, sorted_eq_mergeSort]
  exact List.mergeSort_of_pairwise (List.pairwise_mergeSort nameLe_trans nameLe_total _)

theorem same_map_canonical (attrs before : List Attr) :
    Same (before ++ attrs) (before ++ attrs.map canonical) := by
  induction attrs generalizing before with
  | nil => exact Same.refl _
  | cons a attrs ih =>
    have hhead : Same (before ++ a :: attrs) (before ++ a.canonical :: attrs) := by
      by_cases ha : a.name = "class"
      · obtain ⟨name, v⟩ := a
        subst ha
        apply Move.same
        apply Move.reworded
        rw [wordsOf_classValue]
        exact (List.mergeSort_perm _ _).symm
      · rw [show a.canonical = a by simp [canonical, ha]]
        exact Same.refl _
    have htail := ih (before ++ [a.canonical])
    exact hhead.trans (by simpa using htail)

-- Sorted attributes say what attributes mean, no more and no less.
theorem same_iff_sorted_eq {as bs : List Attr} : Same as bs ↔ sorted as = sorted bs := by
  constructor
  · intro h
    induction h with
    | rel _ _ hmove => exact sorted_eq_of_move hmove
    | refl _ => rfl
    | symm _ _ _ ih => exact ih.symm
    | trans _ _ _ _ _ ih₁ ih₂ => exact ih₁.trans ih₂
  · intro h
    rw [sorted_eq_mergeSort, sorted_eq_mergeSort] at h
    have hmiddle := same_of_named_eq (mergeSort_eq_iff.mp h) []
    exact (same_map_canonical as []).trans (hmiddle.trans (same_map_canonical bs []).symm)

end MarkupDiff.Attr
