import MarkupDiff.Proofs.Place.Selector

namespace MarkupDiff

theorem mapM_zipIdx_eq_ok {α β ε : Type} {f : β × Nat → Except ε α} {e : α → β}
    (hf : ∀ x i, f (e x, i) = .ok x) (xs : List α) (k : Nat) :
    ((xs.map e).zipIdx k).mapM f = .ok xs := by
  induction xs generalizing k with
  | nil => rfl
  | cons x xs ih =>
    rw [List.map_cons, List.zipIdx_cons, List.mapM_cons, hf, ih (k + 1)]
    rfl

theorem Value.joinTexts_map_text (separator : String) (texts : List String) :
    joinTexts separator (texts.map .text) = .ok (separator.intercalate texts) := by
  unfold joinTexts
  rw [mapM_zipIdx_eq_ok (fun _ _ => rfl)]
  rfl

namespace Place

def path (p : Place) : Path :=
  (p.above.map (·.step)).reverse

def enter (p : Place) (step v : Value) : Place :=
  ⟨v, ⟨p.focus, step⟩ :: p.above⟩

-- The text of a location from the selectors on the way.
def chain (labels : List String) : String :=
  if labels.isEmpty then rootLabel else " > ".intercalate labels

theorem chain_cons (label : String) (labels : List String) :
    ∃ rest, chain (label :: labels) = label ++ rest := by
  have hchain : chain (label :: labels) = " > ".intercalate (label :: labels) := rfl
  rw [hchain]
  cases labels with
  | nil => exact ⟨"", by rw [String.intercalate_singleton, String.append_empty]⟩
  | cons next labels =>
    exact ⟨_, by rw [String.intercalate_cons_cons, String.append_assoc]⟩

-- Between selectors there is always something to read.
theorem chain_eq_empty_iff {labels : List String} : chain labels = "" ↔ labels = [""] := by
  constructor
  · intro h
    match labels with
    | [] => exact absurd h (by decide)
    | [label] =>
      have hchain : chain [label] = " > ".intercalate [label] := rfl
      rw [hchain, String.intercalate_singleton] at h
      rw [h]
    | label :: next :: labels =>
      have hchain : chain (label :: next :: labels) =
          label ++ " > " ++ " > ".intercalate (next :: labels) := String.intercalate_cons_cons
      rw [hchain, String.append_eq_empty_iff, String.append_eq_empty_iff] at h
      exact absurd h.1.2 (by decide)
  · rintro rfl
    rfl

@[simp] theorem path_root (v : Value) : (root v).path = [] := rfl

@[simp] theorem path_enter (p : Place) (step v : Value) :
    (p.enter step v).path = p.path ++ [step] := by
  simp [path, enter]

@[simp] theorem enter_focus (p : Place) (step v : Value) : (p.enter step v).focus = v := rfl

def IsRecord : Value → Prop
  | .record _ => True
  | _ => False

section Steps

variable {p : Place} {v : Value} {k : String} {xs : List Value} {i : Nat}

theorem step?_field (h : p.focus.field? k = some v) (hv : v ≠ .owner) :
    p.step? (.text k) = .ok (some (p.enter (.text k) v)) := by
  cases hp : p.focus with
  | record es =>
    rw [hp] at h
    have h : Value.lookup (.text k) es = some v := h
    simp only [step?, hp, Value.unhashablePart?, h, enter]
  | _ => simp [hp, Value.field?] at h

theorem step?_no_field (hp : IsRecord p.focus) (h : p.focus.field? k = none) :
    p.step? (.text k) = .ok none := by
  cases hfocus : p.focus with
  | record es =>
    rw [hfocus] at h
    have h : Value.lookup (.text k) es = none := h
    simp [step?, hfocus, Value.unhashablePart?, h]
  | _ => simp [hfocus, IsRecord] at hp

theorem step?_item (hp : p.focus = .list xs) (h : xs[i]? = some v) :
    p.step? (.nat i) = .ok (some (p.enter (.nat i) v)) := by
  simp [step?, hp, Value.nat, Value.int, Value.int?, h, enter]

theorem step?_no_item (hp : p.focus = .list xs) (h : xs[i]? = none) :
    p.step? (.nat i) = .ok none := by
  simp only [step?, hp, Value.nat, Value.int, Value.int?]
  simp [h]

end Steps

-- A path leads from a value to the place `current`, where `target` is the last record on it and
-- `labels` are the selectors of the elements, and goes on from there.
structure Leads (start : Value) (path : Path) (target current : Place) (labels : List String) :
    Prop where
  walk_append : ∀ rest,
    walkFrom (.root start) (.root start) (path ++ rest) = walkFrom target current rest
  selectors_append : ∀ rest,
    selectors (.root start) (path ++ rest) = (selectors current rest).map (labels.map .text ++ ·)
  path_eq : current.path = path

namespace Leads

variable {start s v : Value} {path : Path} {target current next : Place} {labels : List String}

theorem refl (start : Value) : Leads start [] (.root start) (.root start) [] where
  walk_append _ := rfl
  selectors_append rest := by
    rw [List.nil_append]
    cases selectors (.root start) rest <;> rfl
  path_eq := rfl

theorem located_eq (h : Leads start path target current labels) :
    located start path = .ok target := by
  have := h.walk_append []
  rw [List.append_nil] at this
  rw [located, walk, this]
  rfl

theorem location_of_selectors {labels : List String}
    (h : selectors (.root start) path = .ok (labels.map .text)) :
    location start path = .ok (chain labels) := by
  simp only [location, h, bind, Except.bind, chain, List.isEmpty_map, Value.joinTexts_map_text,
    pure, Except.pure]
  split <;> rfl

theorem location_eq (h : Leads start path target current labels) :
    location start path = .ok (chain labels) := by
  have := h.selectors_append []
  rw [List.append_nil] at this
  apply location_of_selectors
  rw [this]
  simp [selectors, Except.map]

theorem step_list {xs : List Value} (h : Leads start path target current labels)
    (hs : current.step? s = .ok (some (current.enter s (.list xs)))) :
    Leads start (path ++ [s]) target (current.enter s (.list xs)) labels where
  walk_append rest := by
    rw [List.append_assoc, h.walk_append, List.singleton_append, walkFrom, hs]
    rfl
  selectors_append rest := by
    rw [List.append_assoc, h.selectors_append, List.singleton_append, selectors, hs]
    rfl
  path_eq := by rw [path_enter, h.path_eq]

theorem step_record {es : List (Value × Value)} (h : Leads start path target current labels)
    (hs : current.step? s = .ok (some (current.enter s (.record es))))
    (htype : (Value.lookup (.text "type") es).any (·.isText "element") = false) :
    Leads start (path ++ [s]) (current.enter s (.record es)) (current.enter s (.record es))
      labels where
  walk_append rest := by
    rw [List.append_assoc, h.walk_append, List.singleton_append, walkFrom, hs]
    rfl
  selectors_append rest := by
    rw [List.append_assoc, h.selectors_append, List.singleton_append, selectors, hs]
    simp only [enter_focus, htype, Bool.false_eq_true, if_false]
  path_eq := by rw [path_enter, h.path_eq]

theorem step_element {es : List (Value × Value)} {label : String}
    (h : Leads start path target current labels)
    (hs : current.step? s = .ok (some (current.enter s (.record es))))
    (htype : (Value.lookup (.text "type") es).any (·.isText "element") = true)
    (hlabel : (current.enter s (.record es)).selector = .ok (.text label)) :
    Leads start (path ++ [s]) (current.enter s (.record es)) (current.enter s (.record es))
      (labels ++ [label]) where
  walk_append rest := by
    rw [List.append_assoc, h.walk_append, List.singleton_append, walkFrom, hs]
    rfl
  selectors_append rest := by
    rw [List.append_assoc, h.selectors_append, List.singleton_append, selectors, hs]
    simp only [enter_focus, htype, if_true, hlabel, bind, Except.bind, pure, Except.pure]
    cases selectors (current.enter s (.record es)) rest <;> simp [Except.map]
  path_eq := by rw [path_enter, h.path_eq]

-- A step to something that is no record, or to nothing at all, changes neither the last record nor
-- the selectors.
theorem step_off (h : Leads start path target current labels) {next? : Option Place}
    (hs : current.step? s = .ok next?) (hnext : ∀ next ∈ next?, ¬IsRecord next.focus) :
    located start (path ++ [s]) = .ok target ∧
      location start (path ++ [s]) = .ok (chain labels) := by
  have hwalk : located start (path ++ [s]) = .ok target := by
    rw [located, walk, h.walk_append, walkFrom, hs]
    cases next? with
    | none => rfl
    | some next =>
      have hnext := hnext next rfl
      cases hfocus : next.focus <;> simp_all [walkFrom, IsRecord, Except.map]
  have hlabels : selectors (.root start) (path ++ [s]) = .ok (labels.map .text) := by
    rw [h.selectors_append, selectors, hs]
    cases next? with
    | none => simp [Except.map]
    | some next =>
      have hnext := hnext next rfl
      cases hfocus : next.focus <;> simp_all [selectors, IsRecord, Except.map]
  exact ⟨hwalk, location_of_selectors hlabels⟩

end Leads

end Place

end MarkupDiff
