import MarkupDiff.Value.Access

namespace MarkupDiff.Value

-- What decides with which other keys a key is equal.
inductive Form
  | null
  | size (m : Magnitude)
  | text (s : String)
  | bytes (bs : List UInt8)
  | tuple (items : List Form)
  | set (texts : List String)
  | object (kind : Kind) (occurrence : Nat) (source : String)
  | template (occurrence : Nat) (outcome : Template)
  | options (tags : List String)

mutual

-- The form of a value that can be a key; the others have none of their own.
def form : Value → Form
  | null => .null
  | bool b => .size (.rational (if b then 1 else 0))
  | num n => .size n.magnitude
  | text s => .text s
  | markup s => .text s
  | bytes bs => .bytes bs
  | tuple xs => .tuple (forms xs)
  | list _ => .null
  | set ts => .set ts
  | record _ => .null
  | owner => .null
  | selfRendering i s => .object .selfRendering i s
  | failing i s => .object .failing i s
  | template i t => .template i t
  | options ts => .options ts

def forms : List Value → List Form
  | [] => []
  | x :: xs => form x :: forms xs

end

def IsKey (v : Value) : Prop :=
  v.unhashablePart? = none

theorem any_magnitude_eq {w : Value} {m : Magnitude} :
    (w.number?.any (·.magnitude == m)) = true ↔ ∃ n, w.number? = some n ∧ n.magnitude = m := by
  cases w.number? <;> simp

theorem form_of_number? {w : Value} {n : Number} (h : w.number? = some n) :
    w.form = .size n.magnitude := by
  cases w with
  | bool b =>
    obtain rfl := Option.some.inj h
    cases b <;> rfl
  | num m =>
    obtain rfl := Option.some.inj h
    rfl
  | _ => simp [number?] at h

theorem number?_of_form {w : Value} {m : Magnitude} (h : w.form = .size m) :
    ∃ n, w.number? = some n ∧ n.magnitude = m := by
  cases w with
  | bool b => exact ⟨_, rfl, by cases b <;> exact Form.size.inj h⟩
  | num n => exact ⟨n, rfl, Form.size.inj h⟩
  | _ => simp [form] at h

theorem any_magnitude_iff_form {w : Value} {m : Magnitude} :
    (w.number?.any (·.magnitude == m)) = true ↔ w.form = .size m := by
  rw [any_magnitude_eq]
  constructor
  · rintro ⟨n, hn, rfl⟩
    exact form_of_number? hn
  · exact number?_of_form

theorem text?_eq_iff_form {w : Value} {s : String} : w.text? = some s ↔ w.form = .text s := by
  cases w <;> simp [text?, form]

mutual

theorem equal_iff_form_eq {v w : Value} (hv : v.IsKey) (hw : w.IsKey) :
    v.equal w = true ↔ v.form = w.form := by
  match v with
  | null => cases w <;> simp_all [equal, form, IsKey, unhashablePart?]
  | bool b => rw [equal, any_magnitude_iff_form, form, eq_comm]
  | num n => rw [equal, any_magnitude_iff_form, form, eq_comm]
  | text s => rw [equal, beq_iff_eq, text?_eq_iff_form, form, eq_comm]
  | markup s => rw [equal, beq_iff_eq, text?_eq_iff_form, form, eq_comm]
  | bytes bs => cases w <;> simp [equal, form]
  | tuple xs =>
    cases w with
    | tuple ys => rw [equal, form, form, Form.tuple.injEq, equalItems_iff_forms_eq hv hw]
    | _ => simp [equal, form]
  | list xs => exact absurd hv (by simp [IsKey, unhashablePart?])
  | set ts => cases w <;> simp [equal, form]
  | record es => exact absurd hv (by simp [IsKey, unhashablePart?])
  | owner => exact absurd hv (by simp [IsKey, unhashablePart?])
  | selfRendering i s => cases w <;> simp [equal, form]
  | failing i s => cases w <;> simp [equal, form]
  | template i t => cases w <;> simp [equal, form]
  | options ts => cases w <;> simp [equal, form]

theorem equalItems_iff_forms_eq {xs ys : List Value} (hxs : unhashableItem? xs = none)
    (hys : unhashableItem? ys = none) : equalItems xs ys = true ↔ forms xs = forms ys := by
  match xs, ys with
  | [], [] => simp [equalItems]
  | [], y :: ys => simp [equalItems, forms]
  | x :: xs, [] => simp [equalItems, forms]
  | x :: xs, y :: ys =>
    rw [unhashableItem?, Option.or_eq_none_iff] at hxs hys
    rw [equalItems, forms, forms, List.cons.injEq, Bool.and_eq_true,
      equal_iff_form_eq hxs.1 hys.1, equalItems_iff_forms_eq hxs.2 hys.2]

end

theorem equal_refl_of_isKey {v : Value} (hv : v.IsKey) : v.equal v = true :=
  (equal_iff_form_eq hv hv).mpr rfl

end MarkupDiff.Value
