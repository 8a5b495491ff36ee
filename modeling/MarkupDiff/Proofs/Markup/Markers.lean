import MarkupDiff.Markup.Marker
import Mathlib.Logic.Function.Iterate
import Mathlib.Logic.Relation

namespace MarkupDiff.Markup

theorem eraseMarkers_marker_append (cs : List Char) :
    eraseMarkers (marker ++ cs) = eraseMarkers cs := by
  rw [marker]
  simp only [List.cons_append, List.nil_append, eraseMarkers]

-- No two markers overlap, so what stands around a marker is looked through on its own.
theorem eraseMarkers_append_marker (a b : List Char) :
    eraseMarkers (a ++ marker ++ b) = eraseMarkers a ++ eraseMarkers b := by
  fun_induction eraseMarkers a with
  | case1 => exact eraseMarkers_marker_append b
  | case2 cs ih => simpa [eraseMarkers] using ih
  | case3 c cs hcs ih =>
    have hnone : ∀ ds, c = '<' →
        cs ++ marker ++ b = '!' :: '-' :: '-' :: '-' :: '-' :: '>' :: ds → False := by
      intro ds hc h
      rcases cs with _ | ⟨c₁, _ | ⟨c₂, _ | ⟨c₃, _ | ⟨c₄, _ | ⟨c₅, _ | ⟨c₆, cs⟩⟩⟩⟩⟩⟩
      all_goals simp_all [marker]
    rw [List.cons_append, List.cons_append, eraseMarkers, ih, List.cons_append]
    exact hnone

-- What stands before a character that no marker holds is looked through on its own.
theorem eraseMarkers_append_cons {d : Char} (hd : d ∉ marker) (a b : List Char) :
    eraseMarkers (a ++ d :: b) = eraseMarkers a ++ d :: eraseMarkers b := by
  have hbegins : d ≠ '<' := fun h => hd (h ▸ by decide)
  fun_induction eraseMarkers a with
  | case1 =>
    rw [List.nil_append, eraseMarkers, List.nil_append]
    exact fun _ h => absurd h hbegins
  | case2 cs ih => simpa [eraseMarkers] using ih
  | case3 c cs hcs ih =>
    have hnone : ∀ ds, c = '<' →
        cs ++ d :: b = '!' :: '-' :: '-' :: '-' :: '-' :: '>' :: ds → False := by
      intro ds hc h
      rcases cs with _ | ⟨c₁, _ | ⟨c₂, _ | ⟨c₃, _ | ⟨c₄, _ | ⟨c₅, _ | ⟨c₆, cs⟩⟩⟩⟩⟩⟩
      all_goals simp_all [marker]
    rw [List.cons_append, eraseMarkers, ih, List.cons_append]
    exact hnone

theorem eraseMarkers_eq_self {cs : List Char} (h : cs.length ≤ (eraseMarkers cs).length) :
    eraseMarkers cs = cs := by
  fun_induction eraseMarkers cs with
  | case1 => rfl
  | case2 cs ih =>
    have := length_eraseMarkers_le cs
    simp only [List.length_cons] at h
    omega
  | case3 c cs _ ih =>
    simp only [List.length_cons, Nat.add_le_add_iff_right] at h
    rw [ih h]

theorem withoutMarkers_eraseMarkers (cs : List Char) :
    withoutMarkers (eraseMarkers cs) = withoutMarkers cs := by
  by_cases h : (eraseMarkers cs).length < cs.length
  · have hcut : withoutMarkers cs = withoutMarkers (eraseMarkers cs) := by
      rw [withoutMarkers, if_pos h]
    exact hcut.symm
  · rw [eraseMarkers_eq_self (Nat.not_lt.mp h)]

-- Where single markers can be taken out of what is shorter, a part can be erased first.
theorem withoutMarkers_append_eraseMarkers_of {n : Nat}
    (hmarker : ∀ a b : List Char, (a ++ b).length < n →
      withoutMarkers (a ++ marker ++ b) = withoutMarkers (a ++ b))
    (x s y : List Char) (hlength : (x ++ s ++ y).length ≤ n) :
    withoutMarkers (x ++ eraseMarkers s ++ y) = withoutMarkers (x ++ s ++ y) := by
  fun_induction eraseMarkers s generalizing x with
  | case1 => rfl
  | case2 cs ih =>
    have hcut : x ++ ('<' :: '!' :: '-' :: '-' :: '-' :: '-' :: '>' :: cs) ++ y =
        x ++ marker ++ (cs ++ y) := by simp [marker]
    have hshort : (x ++ (cs ++ y)).length < n := by
      simp only [List.length_append, List.length_cons] at hlength ⊢
      omega
    rw [hcut, hmarker _ _ hshort, ← List.append_assoc]
    exact ih x (by rw [List.append_assoc]; omega)
  | case3 c cs _ ih => simpa using ih (x ++ [c]) (by simpa using hlength)

-- A marker can be taken out first, wherever it stands. Erasing takes it out and looks through what
-- stands around it on its own, and that can also be done to the shorter text without the marker.
theorem withoutMarkers_append_marker (a b : List Char) :
    withoutMarkers (a ++ marker ++ b) = withoutMarkers (a ++ b) := by
  induction hn : (a ++ b).length using Nat.strongRecOn generalizing a b with
  | _ n ih =>
    have herase := withoutMarkers_append_eraseMarkers_of (n := n)
      fun c d hshort => ih _ hshort c d rfl
    have hfront : withoutMarkers (eraseMarkers a ++ b) = withoutMarkers (a ++ b) :=
      herase [] a b (Nat.le_of_eq hn)
    have hback : withoutMarkers (eraseMarkers a ++ eraseMarkers b) =
        withoutMarkers (eraseMarkers a ++ b) := by
      have hshort : (eraseMarkers a ++ b ++ []).length ≤ n := by
        have := length_eraseMarkers_le a
        simp only [List.length_append, List.length_nil, ← hn]
        omega
      simpa using herase (eraseMarkers a) b [] hshort
    rw [← withoutMarkers_eraseMarkers, eraseMarkers_append_marker, hback, hfront]

-- Markers can be taken out of a part first.
theorem withoutMarkers_append_withoutMarkers (x s y : List Char) :
    withoutMarkers (x ++ withoutMarkers s ++ y) = withoutMarkers (x ++ s ++ y) := by
  fun_induction withoutMarkers s with
  | case1 s _ ih =>
    rw [ih]
    exact withoutMarkers_append_eraseMarkers_of
      (fun a b _ => withoutMarkers_append_marker a b) x s y (Nat.le_refl _)
  | case2 => rfl

theorem withoutMarkers_eq_self {cs : List Char} (h : eraseMarkers cs = cs) :
    withoutMarkers cs = cs := by
  rw [withoutMarkers, if_neg]
  rw [h]
  exact Nat.lt_irrefl _

theorem eraseMarkers_eq_self_iff {cs : List Char} :
    eraseMarkers cs = cs ↔ ¬marker <:+: cs := by
  constructor
  · rintro h ⟨a, b, rfl⟩
    have ha := length_eraseMarkers_le a
    have hb := length_eraseMarkers_le b
    have hlength := congrArg List.length h
    rw [eraseMarkers_append_marker] at hlength
    simp only [List.length_append, marker, List.length_cons] at hlength
    omega
  · intro h
    fun_induction eraseMarkers cs with
    | case1 => rfl
    | case2 cs => exact absurd (List.prefix_append marker cs).isInfix h
    | case3 c cs _ ih => rw [ih fun hcs => h (hcs.trans (List.suffix_cons c cs).isInfix)]

theorem not_isInfix_withoutMarkers (cs : List Char) : ¬marker <:+: withoutMarkers cs := by
  fun_induction withoutMarkers cs with
  | case1 cs _ ih => exact ih
  | case2 cs h => exact eraseMarkers_eq_self_iff.mp (eraseMarkers_eq_self (Nat.not_lt.mp h))

theorem eraseMarkers_withoutMarkers (cs : List Char) :
    eraseMarkers (withoutMarkers cs) = withoutMarkers cs :=
  eraseMarkers_eq_self_iff.mpr (not_isInfix_withoutMarkers cs)

theorem withoutMarkers_eq_self_iff {cs : List Char} :
    withoutMarkers cs = cs ↔ ¬marker <:+: cs := by
  constructor
  · intro h
    exact h ▸ not_isInfix_withoutMarkers cs
  · exact fun h => withoutMarkers_eq_self (eraseMarkers_eq_self_iff.mpr h)

-- To erase markers again and again comes to an end, and then there are none.
theorem exists_iterate_eraseMarkers (cs : List Char) :
    ∃ n, eraseMarkers^[n] cs = withoutMarkers cs := by
  fun_induction withoutMarkers cs with
  | case1 cs _ ih =>
    obtain ⟨n, hn⟩ := ih
    exact ⟨n + 1, by rw [Function.iterate_succ_apply, hn]⟩
  | case2 cs => exact ⟨0, rfl⟩

-- One marker is taken out, wherever it stands.
inductive TakesOut : List Char → List Char → Prop
  | marker (a b : List Char) : TakesOut (a ++ Markup.marker ++ b) (a ++ b)

-- Markers are taken out one after the other, until there are none.
def Unmarks (cs rest : List Char) : Prop :=
  Relation.ReflTransGen TakesOut cs rest ∧ ¬marker <:+: rest

theorem reflTransGen_eraseMarkers (a cs : List Char) :
    Relation.ReflTransGen TakesOut (a ++ cs) (a ++ eraseMarkers cs) := by
  fun_induction eraseMarkers cs generalizing a with
  | case1 => exact .refl
  | case2 cs ih =>
    have hout := TakesOut.marker a cs
    rw [List.append_assoc] at hout
    exact .head hout (ih a)
  | case3 c cs _ ih => simpa using ih (a ++ [c])

theorem reflTransGen_withoutMarkers (cs : List Char) :
    Relation.ReflTransGen TakesOut cs (withoutMarkers cs) := by
  fun_induction withoutMarkers cs with
  | case1 cs _ ih => exact (reflTransGen_eraseMarkers [] cs).trans ih
  | case2 cs => exact .refl

-- In whatever order markers are taken out, the same remains.
theorem unmarks_iff {cs rest : List Char} : Unmarks cs rest ↔ rest = withoutMarkers cs := by
  constructor
  · rintro ⟨hout, hnone⟩
    have hsame : withoutMarkers rest = withoutMarkers cs := by
      clear hnone
      induction hout with
      | refl => rfl
      | tail _ hlast ih =>
        obtain ⟨a, b⟩ := hlast
        rw [← ih, withoutMarkers_append_marker]
    rw [← hsame, withoutMarkers_eq_self_iff.mpr hnone]
  · rintro rfl
    exact ⟨reflTransGen_withoutMarkers cs, not_isInfix_withoutMarkers cs⟩

-- Markers cannot be taken out for ever, since each leaves less.
theorem wellFounded_takesOut : WellFounded fun rest cs => TakesOut cs rest := by
  refine Subrelation.wf (r := fun rest cs : List Char => rest.length < cs.length) ?_
    (measure List.length).wf
  rintro _ _ ⟨a, b⟩
  simp only [List.length_append, marker, List.length_cons]
  omega

theorem TakesOut.sublist {cs rest : List Char} (h : TakesOut cs rest) : rest.Sublist cs := by
  obtain ⟨a, b⟩ := h
  rw [List.append_assoc]
  exact (List.Sublist.refl a).append (List.sublist_append_right _ b)

theorem withoutMarkers_sublist (cs : List Char) : (withoutMarkers cs).Sublist cs := by
  have hout := reflTransGen_withoutMarkers cs
  generalize withoutMarkers cs = rest at hout
  induction hout with
  | refl => exact .refl _
  | tail _ hlast ih => exact hlast.sublist.trans ih

-- No marker begins in the characters, whatever follows them.
def HasNoMarker (cs : List Char) : Prop :=
  ∀ rest, eraseMarkers (cs ++ rest) = cs ++ eraseMarkers rest

theorem HasNoMarker.append {as bs : List Char} (ha : HasNoMarker as) (hb : HasNoMarker bs) :
    HasNoMarker (as ++ bs) := by
  intro rest
  rw [List.append_assoc, ha, hb, List.append_assoc]

theorem hasNoMarker_of_notMem {cs : List Char} (h : '<' ∉ cs) : HasNoMarker cs := by
  intro rest
  induction cs with
  | nil => rfl
  | cons c cs ih =>
    obtain ⟨hc, hcs⟩ := not_or.mp (mt List.mem_cons.mpr h)
    rw [List.cons_append, eraseMarkers, ih hcs, List.cons_append]
    intro ds heq
    exact absurd heq.symm hc

theorem HasNoMarker.eraseMarkers_eq {cs : List Char} (h : HasNoMarker cs) :
    eraseMarkers cs = cs := by
  have hself := h []
  rwa [List.append_nil, eraseMarkers, List.append_nil] at hself

-- What markers are not made of stays around a text when they are taken out.
theorem withoutMarkers_append_of_notMem {us vs : List Char} (hus : ∀ c ∈ us, c ∉ marker)
    (hvs : ∀ c ∈ vs, c ∉ marker) (cs : List Char) :
    withoutMarkers (us ++ cs ++ vs) = us ++ withoutMarkers cs ++ vs := by
  have hbegins : ∀ ds : List Char, (∀ c ∈ ds, c ∉ marker) → '<' ∉ ds :=
    fun ds hds h => hds '<' h (by decide)
  have hback : ∀ ds, eraseMarkers (ds ++ vs) = eraseMarkers ds ++ vs := by
    intro ds
    cases vs with
    | nil => rw [List.append_nil, List.append_nil]
    | cons v vs =>
      have hrest := hbegins vs fun c hc => hvs c (List.mem_cons_of_mem _ hc)
      rw [eraseMarkers_append_cons (hvs v List.mem_cons_self),
        (hasNoMarker_of_notMem hrest).eraseMarkers_eq]
  rw [← withoutMarkers_append_withoutMarkers]
  refine withoutMarkers_eq_self ?_
  rw [hback, hasNoMarker_of_notMem (hbegins us hus), eraseMarkers_withoutMarkers]

theorem sanitize_eq_self {s : String} (hmarkers : eraseMarkers s.toList = s.toList)
    (hblanks : Text.strip s.toList = s.toList) : sanitize s = s := by
  rw [sanitize, withoutMarkers_eq_self hmarkers, hblanks, String.ofList_toList]

end MarkupDiff.Markup
