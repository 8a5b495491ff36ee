import Mathlib.Data.List.Forall2
import Mathlib.Logic.Relation
import MarkupDiff.Rendering.Value

namespace MarkupDiff

open Rendering (joinedMarkup leafMarkup leaves leavesAll safe)

variable {α β γ ε : Type}

theorem mapM_eq_ok_iff {f : α → Except ε β} {xs : List α} {ys : List β} :
    xs.mapM f = .ok ys ↔ List.Forall₂ (fun x y => f x = .ok y) xs ys := by
  induction xs generalizing ys with
  | nil =>
    rw [List.forall₂_nil_left_iff, List.mapM_nil]
    exact ⟨fun h => (Except.ok.inj h).symm, fun h => congrArg Except.ok h.symm⟩
  | cons x xs ih =>
    rw [List.forall₂_cons_left_iff, List.mapM_cons]
    cases hx : f x with
    | error fault => simp [bind, Except.bind]
    | ok y =>
      cases hxs : xs.mapM f with
      | error fault => simp [bind, Except.bind, ← ih, hxs]
      | ok ys' => simp [bind, Except.bind, pure, Except.pure, ← ih, hxs, eq_comm]

theorem exists_forall₂_iff {r : α → β → Prop} {r' : β → γ → Prop} {xs : List α} {zs : List γ} :
    (∃ ys, List.Forall₂ r xs ys ∧ List.Forall₂ r' ys zs) ↔
      List.Forall₂ (Relation.Comp r r') xs zs := by
  induction xs generalizing zs with
  | nil => simp
  | cons x xs ih =>
    simp only [List.forall₂_cons_left_iff, ← ih, Relation.Comp]
    constructor
    · rintro ⟨_, ⟨y, ys, hy, hys, rfl⟩, h⟩
      obtain ⟨z, zs, hz, hzs, rfl⟩ := List.forall₂_cons_left_iff.mp h
      exact ⟨z, zs, ⟨y, hy, hz⟩, ⟨ys, hys, hzs⟩, rfl⟩
    · rintro ⟨z, zs, ⟨y, hy, hz⟩, ⟨ys, hys, hzs⟩, rfl⟩
      exact ⟨y :: ys, ⟨y, ys, hy, hys, rfl⟩, .cons hz hzs⟩

namespace Value

mutual

-- What is nested in lists and tuples, in order and without null.
def flattened : Value → List Value
  | null => []
  | list vs => flattenedAll vs
  | tuple vs => flattenedAll vs
  | v => [v]

def flattenedAll : List Value → List Value
  | [] => []
  | v :: vs => v.flattened ++ flattenedAll vs

end

theorem flattenedAll_append (vs ws : List Value) :
    flattenedAll (vs ++ ws) = flattenedAll vs ++ flattenedAll ws := by
  induction vs with
  | nil => rfl
  | cons v vs ih => rw [List.cons_append, flattenedAll, flattenedAll, ih, List.append_assoc]

theorem flattenedAll_markup (texts : List String) :
    flattenedAll (texts.map .markup) = texts.map .markup := by
  induction texts with
  | nil => rfl
  | cons s texts ih => rw [List.map_cons, flattenedAll, ih]; rfl

-- Whether markup comes with a value, or is made by it.
def hasOwnMarkup : Value → Bool
  | markup _ => true
  | selfRendering _ _ => true
  | failing _ _ => true
  | template _ _ => true
  | _ => false

-- The markup of something that is neither null nor a list or tuple: its own if it brings some with
-- it, what a template writes, and otherwise its text with the special characters replaced.
inductive Writes : Value → String → Prop
  | markup (s : String) : Writes (.markup s) s
  | selfRendering (i : Nat) (s : String) : Writes (.selfRendering i s) s
  | template (i : Nat) (s : String) : Writes (.template i (.writes s)) s
  | other {v : Value} (h : v.hasOwnMarkup = false) : Writes v (safe v.plain)

-- The markup of what is nested in a value, one after the other.
def Spells (v : Value) (s : String) : Prop :=
  ∃ texts, List.Forall₂ Writes v.flattened texts ∧ String.join texts = s

-- One step between two ways to arrange the same markup, at any depth: a tuple in place of a list, a
-- value that stands alone, items that are put together, null, and markup that is cut into pieces.
inductive Move : Value → Value → Prop
  | sequence (vs : List Value) : Move (.tuple vs) (.list vs)
  | alone (v : Value) : Move v (.list [v])
  | group (before vs after : List Value) :
      Move (.list (before ++ vs ++ after)) (.list (before ++ .list vs :: after))
  | null (before after : List Value) :
      Move (.list (before ++ after)) (.list (before ++ .null :: after))
  | cut (before : List Value) (texts : List String) (after : List Value) :
      Move (.list (before ++ .markup (String.join texts) :: after))
        (.list (before ++ texts.map .markup ++ after))
  | inside (before : List Value) {v w : Value} (after : List Value) (h : Move v w) :
      Move (.list (before ++ v :: after)) (.list (before ++ w :: after))

-- The values arrange the same markup in different ways.
def Rearranged : Value → Value → Prop :=
  Relation.EqvGen Move

end Value

namespace Rendering

open Value (Move Rearranged Writes flattenedAll flattenedAll_append flattenedAll_markup)

variable {v w : Value} {s : String} {ls ls' : List Value}

-- A leaf before it is joined to others: a template has written its markup.
def prepared : Value → Except Fault Value
  | .template _ t => t.markup.map .markup
  | v => .ok v

-- The markup of leaves whose templates have written theirs, one after the other.
def written (ls : List Value) : Except Fault String :=
  (ls.mapM leafMarkup).map String.join

-- The markup of leaves, one after the other. All templates write theirs first.
def joined (ls : List Value) : Except Fault String := do
  written (← ls.mapM prepared)

mutual

theorem leaves_eq (v : Value) : leaves v = v.flattened.mapM prepared := by
  cases v with
  | null => rfl
  | list vs => exact leavesAll_eq vs
  | tuple vs => exact leavesAll_eq vs
  | template i t => cases t <;> rfl
  | _ => rfl

theorem leavesAll_eq (vs : List Value) : leavesAll vs = (flattenedAll vs).mapM prepared := by
  cases vs with
  | nil => rfl
  | cons v vs => rw [leavesAll, flattenedAll, List.mapM_append, leaves_eq v, leavesAll_eq vs]

end

theorem joinedMarkup_eq (v : Value) : joinedMarkup v = joined v.flattened := by
  rw [joinedMarkup, joined, leaves_eq]
  cases v.flattened.mapM prepared <;> rfl

theorem prepared_of_other (h : v.hasOwnMarkup = false) : prepared v = .ok v := by
  cases v with
  | template => cases h
  | _ => rfl

theorem leafMarkup_of_other (h : v.hasOwnMarkup = false) : leafMarkup v = .ok (safe v.plain) := by
  cases v with
  | markup => cases h
  | selfRendering => cases h
  | failing => cases h
  | _ => rfl

-- Making the markup of a leaf takes two steps.
theorem writes_iff : Writes v s ↔ ∃ w, prepared v = .ok w ∧ leafMarkup w = .ok s := by
  constructor
  · intro h
    cases h with
    | markup => exact ⟨_, rfl, rfl⟩
    | selfRendering => exact ⟨_, rfl, rfl⟩
    | template => exact ⟨.markup s, rfl, rfl⟩
    | other h => exact ⟨v, prepared_of_other h, leafMarkup_of_other h⟩
  · rintro ⟨w, hw, hs⟩
    cases hown : v.hasOwnMarkup with
    | false =>
      obtain rfl := Except.ok.inj ((prepared_of_other hown).symm.trans hw)
      obtain rfl := Except.ok.inj ((leafMarkup_of_other hown).symm.trans hs)
      exact .other hown
    | true =>
      cases v with
      | markup =>
        cases hw
        cases hs
        exact .markup _
      | selfRendering =>
        cases hw
        cases hs
        exact .selfRendering _ _
      | failing =>
        cases hw
        cases hs
      | template i t =>
        cases t <;> cases hw
        cases hs
        exact .template i _
      | _ => cases hown

theorem joined_eq_ok_iff :
    joined ls = .ok s ↔ ∃ texts, List.Forall₂ Writes ls texts ∧ String.join texts = s := by
  have hwrites : Writes = Relation.Comp (prepared · = .ok ·) (leafMarkup · = .ok ·) :=
    funext₂ fun _ _ => propext writes_iff
  simp only [hwrites, ← exists_forall₂_iff, ← mapM_eq_ok_iff]
  rw [joined]
  cases hready : ls.mapM prepared with
  | error fault => simp [bind, Except.bind]
  | ok ls' =>
    cases htexts : ls'.mapM leafMarkup <;> simp [bind, Except.bind, written, Except.map, htexts]

theorem joinedMarkup_eq_ok_iff : joinedMarkup v = .ok s ↔ v.Spells s := by
  rw [joinedMarkup_eq, joined_eq_ok_iff, Value.Spells]

theorem written_append (ls ls' : List Value) :
    written (ls ++ ls') = do return (← written ls) ++ (← written ls') := by
  unfold written
  rw [List.mapM_append]
  cases ls.mapM leafMarkup with
  | error fault => rfl
  | ok texts =>
    cases ls'.mapM leafMarkup with
    | error fault => rfl
    | ok texts' => exact congrArg Except.ok String.join_append

theorem written_markup (texts : List String) :
    written (texts.map .markup) = .ok (String.join texts) := by
  have htexts : (texts.map Value.markup).mapM leafMarkup = .ok texts := by
    rw [List.mapM_map]
    exact List.mapM_pure.trans (congrArg _ (List.map_id _))
  rw [written, htexts]
  rfl

-- Pieces of markup in the midst of leaves count by what they come to together.
theorem joined_around (before : List Value) (texts : List String) (after : List Value) :
    joined (before ++ texts.map .markup ++ after) = (do
      let before ← before.mapM prepared
      let after ← after.mapM prepared
      return (← written before) ++ String.join texts ++ (← written after)) := by
  have hready : (texts.map Value.markup).mapM prepared = .ok (texts.map .markup) := by
    rw [List.mapM_map]
    exact List.mapM_pure
  rw [joined, List.mapM_append, List.mapM_append, hready]
  cases before.mapM prepared with
  | error fault => rfl
  | ok before' =>
    cases after.mapM prepared with
    | error fault => rfl
    | ok after' =>
      change written (before' ++ texts.map .markup ++ after') =
        (do return (← written before') ++ String.join texts ++ (← written after'))
      rw [written_append, written_append, written_markup]
      cases written before' <;> rfl

-- A step leaves the markup as it is, whatever stands around it.
theorem joined_eq_of_move (h : Move v w) (before after : List Value) :
    joined (before ++ v.flattened ++ after) = joined (before ++ w.flattened ++ after) := by
  induction h generalizing before after with
  | sequence vs => rfl
  | alone v => simp [Value.flattened, flattenedAll]
  | group b vs a => simp [Value.flattened, flattenedAll, flattenedAll_append]
  | null b a => simp [Value.flattened, flattenedAll, flattenedAll_append]
  | cut b texts a =>
    have haround := joined_around (before ++ flattenedAll b) texts (flattenedAll a ++ after)
    have hwhole : String.join [String.join texts] = String.join texts := by simp [String.join]
    rw [← hwhole, ← joined_around] at haround
    simpa [Value.flattened, flattenedAll, flattenedAll_append, flattenedAll_markup] using
      haround.symm
  | inside b a _ ih =>
    have hinside := ih (before ++ flattenedAll b) (flattenedAll a ++ after)
    simpa [Value.flattened, flattenedAll, flattenedAll_append] using hinside

theorem joinedMarkup_eq_of_rearranged (h : Rearranged v w) : joinedMarkup v = joinedMarkup w := by
  induction h with
  | rel v w hmove =>
    have hjoined := joined_eq_of_move hmove [] []
    rwa [List.nil_append, List.nil_append, List.append_nil, List.append_nil, ← joinedMarkup_eq,
      ← joinedMarkup_eq] at hjoined
  | refl _ => rfl
  | symm _ _ _ ih => exact ih.symm
  | trans _ _ _ _ _ ih₁ ih₂ => exact ih₁.trans ih₂

end Rendering

end MarkupDiff
