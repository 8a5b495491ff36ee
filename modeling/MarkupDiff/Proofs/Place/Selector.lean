import MarkupDiff.Node.Basic
import MarkupDiff.Place.Selector

namespace MarkupDiff

def Attr.valueOf? (name : String) (attrs : List Attr) : Option String :=
  (attrs.find? (·.name == name)).map (·.value)

namespace Node

def hasTag (tag : String) : Node → Bool
  | element t _ _ => t == tag
  | _ => false

-- The positions of the elements with a tag.
def twins (tag : String) (siblings : List Node) : List Nat :=
  siblings.zipIdx.filterMap fun (n, i) => if n.hasTag tag then some i else none

-- What a selector says about the id, the classes and the position of an element.
def idMark (attrs : List Attr) : String :=
  match Attr.valueOf? "id" attrs with
  | some v => if v = "" then "" else "#" ++ v
  | none => ""

def classMark (attrs : List Attr) : String :=
  match Attr.valueOf? "class" attrs with
  | some v => String.join ((wordsOf v).map ("." ++ ·))
  | none => ""

def ordinalMark (siblings : List Node) (i : Nat) (tag : String) : String :=
  if (twins tag siblings).length ≤ 1 then ""
  else s!":nth-of-type({(twins tag siblings).idxOf i + 1})"

def selectorText (siblings : List Node) (i : Nat) (tag : String) (attrs : List Attr) : String :=
  tag ++ idMark attrs ++ classMark attrs ++ ordinalMark siblings i tag

-- A selector begins with the tag.
theorem tag_eq_empty_of_selectorText {siblings : List Node} {i : Nat} {tag : String}
    {attrs : List Attr} (h : selectorText siblings i tag attrs = "") : tag = "" := by
  rw [selectorText, String.append_eq_empty_iff, String.append_eq_empty_iff,
    String.append_eq_empty_iff] at h
  exact h.1.1.1

@[simp] theorem toValues_eq_map (ns : List Node) : toValues ns = ns.map toValue := by
  induction ns with
  | nil => rfl
  | cons n ns ih => rw [toValues, ih, List.map_cons]

theorem mem_twins {tag : String} {siblings : List Node} {i : Nat} :
    i ∈ twins tag siblings ↔ ∃ n, siblings[i]? = some n ∧ n.hasTag tag = true := by
  simp only [twins, List.mem_filterMap, Prod.exists, Option.ite_none_right_eq_some,
    Option.some.injEq]
  constructor
  · rintro ⟨n, j, hmem, htag, rfl⟩
    exact ⟨n, List.mem_zipIdx_iff_getElem?.mp hmem, htag⟩
  · rintro ⟨n, hn, htag⟩
    exact ⟨n, i, List.mem_zipIdx_iff_getElem?.mpr hn, htag, rfl⟩

end Node

namespace Place

-- The place of a node in the list of children of the record at `p`.
def child (p : Place) (siblings : List Node) (i : Nat) (n : Node) : Place :=
  ⟨n.toValue, ⟨.list (Node.toValues siblings), .nat i⟩ :: ⟨p.focus, .text "children"⟩ :: p.above⟩

@[simp] theorem child_focus (p : Place) (siblings : List Node) (i : Nat) (n : Node) :
    (p.child siblings i n).focus = n.toValue := rfl

theorem attributeValue_find (name : String) (attrs : List Attr) :
    attributeValue.find name (attrs.map Attr.toValue) =
      .ok (((Attr.valueOf? name attrs).map Value.text).getD .null) := by
  induction attrs with
  | nil => rfl
  | cons a attrs ih =>
    have hname : a.toValue.named "name" = .ok (.text a.name) := rfl
    have hvalue : a.toValue.named "value" = .ok (.text a.value) := rfl
    rw [List.map_cons, attributeValue.find, hname, hvalue]
    by_cases h : a.name = name
    · simp [bind, Except.bind, Value.isText, Value.text?, h, Attr.valueOf?]
    · rw [ih]
      simp [bind, Except.bind, Value.isText, Value.text?, h, Attr.valueOf?]

theorem attributeValue_eq (name : String) {v : Value} {attrs : List Attr}
    (hattrs : v.namedOr "attrs" (.list []) = .ok (.list (attrs.map Attr.toValue))) :
    attributeValue name v = .ok (((Attr.valueOf? name attrs).map Value.text).getD .null) := by
  rw [attributeValue, hattrs]
  exact attributeValue_find name attrs

-- A choice that never fails can be made at once.
theorem filterMapM_map_eq_ok {α β γ ε : Type} {f : β → Except ε (Option γ)} {g : α → Option γ}
    {e : α → β} (hf : ∀ x, f (e x) = .ok (g x)) (xs : List α) :
    (xs.map e).filterMapM f = .ok (xs.filterMap g) := by
  induction xs with
  | nil => rfl
  | cons x xs ih =>
    rw [List.map_cons, List.filterMapM_cons, hf, ih, List.filterMap_cons]
    cases g x <;> rfl

theorem zipIdx_toValues (siblings : List Node) :
    (Node.toValues siblings).zipIdx = siblings.zipIdx.map fun p => (p.1.toValue, p.2) := by
  rw [Node.toValues_eq_map, List.zipIdx_map]
  rfl

theorem sameTag_children (tag : String) (attrs : List Attr) (children siblings : List Node) :
    sameTag (Node.element tag attrs children).toValue (Node.toValues siblings) =
      .ok (Node.twins tag siblings) := by
  unfold sameTag
  rw [zipIdx_toValues, filterMapM_map_eq_ok
    (g := fun p => if p.1.hasTag tag then some p.2 else none)]
  · rfl
  · rintro ⟨n, i⟩
    cases n with
    | element t as cs =>
      have hequal : (Value.text t).equal (.text tag) = (t == tag) := by
        simp [Value.equal, Value.text?, Bool.beq_comm]
      change (Except.ok (if (Value.text t).equal (.text tag) then some i else none) :
        Except Fault (Option Nat)) = _
      rw [hequal]
      rfl
    | text s => rfl
    | comment s => rfl

-- The position of an element among its twins. Only its owner and its index count, however the list
-- of children has been reached.
theorem ordinal_of_owner {p owner : Place} {siblings : List Node} {i : Nat} {tag : String}
    {attrs : List Attr} {children : List Node}
    (hfocus : p.focus = (Node.element tag attrs children).toValue) (howner : p.owner? = some owner)
    (hindex : p.index? = some i)
    (hchildren : owner.focus.field? "children" = some (.list (Node.toValues siblings)))
    (hi : siblings[i]? = some (.element tag attrs children)) :
    p.ordinal = .ok (if (Node.twins tag siblings).length ≤ 1 then none
      else some ((Node.twins tag siblings).idxOf i + 1)) := by
  have hparent : (Node.element tag attrs children).toValue.namedOr "parent" .null = .ok .owner :=
    rfl
  have hmem : i ∈ Node.twins tag siblings := by
    rw [Node.mem_twins]
    exact ⟨_, hi, by simp [Node.hasTag]⟩
  have hposition : (Node.twins tag siblings).idxOf? i =
      some ((Node.twins tag siblings).idxOf i) := by
    have hlt : (Node.twins tag siblings).findIdx (· == i) < (Node.twins tag siblings).length :=
      List.idxOf_lt_length_iff.mpr hmem
    simp [List.idxOf?, List.findIdx?_eq_guard_findIdx_lt, Option.guard, hlt, List.idxOf]
  unfold ordinal
  simp only [hfocus, hparent, howner, hindex, bind, Except.bind]
  cases hrecord : owner.focus with
  | record es =>
    rw [hrecord] at hchildren
    have hchildren : Value.lookup (.text "children") es = some (.list (Node.toValues siblings)) :=
      hchildren
    simp only [Value.namedOr, hchildren, Option.getD_some, Value.items, sameTag_children]
    by_cases hlen : (Node.twins tag siblings).length ≤ 1
    · simp [hlen, pure, Except.pure]
    · simp [hlen, pure, Except.pure, hposition]
  | _ => simp [hrecord, Value.field?] at hchildren

theorem extendedBy_text (s t : String) :
    (Value.text s).extendedBy (.text t) = .ok (.text (s ++ t)) := rfl

theorem selector_of_ordinal {p : Place} {tag : String} {attrs : List Attr} {n? : Option Nat}
    (htag : p.focus.named "tag" = .ok (.text tag))
    (hattrs : p.focus.namedOr "attrs" (.list []) = .ok (.list (attrs.map Attr.toValue)))
    (hordinal : p.ordinal = .ok n?) :
    p.selector = .ok (.text (tag ++ Node.idMark attrs ++ Node.classMark attrs ++
      n?.elim "" fun n => s!":nth-of-type({n})")) := by
  have hempty : String.join ((wordsOf "").map ("." ++ ·)) = "" := rfl
  have hnull : Value.null.isTruthy = false := rfl
  have htext : ∀ v, (Value.text v).isTruthy = (v != "") := fun _ => rfl
  unfold selector
  simp only [hordinal, htag, attributeValue_eq _ hattrs, bind, Except.bind, pure, Except.pure]
  unfold Node.idMark Node.classMark
  cases n?
  all_goals
    rcases Attr.valueOf? "id" attrs with _ | v <;> rcases Attr.valueOf? "class" attrs with _ | w
    · simp [hnull, extendedBy_text]
    · by_cases hw : w = "" <;> simp [hnull, htext, hw, hempty, Value.text?, extendedBy_text]
    · by_cases hv : v = "" <;>
        simp [hnull, htext, hv, Value.plain, Value.text?, extendedBy_text]
    · by_cases hv : v = "" <;> by_cases hw : w = "" <;>
        simp [htext, hv, hw, hempty, Value.plain, Value.text?, extendedBy_text]

theorem selector_of_owner {p owner : Place} {siblings : List Node} {i : Nat} {tag : String}
    {attrs : List Attr} {children : List Node}
    (hfocus : p.focus = (Node.element tag attrs children).toValue) (howner : p.owner? = some owner)
    (hindex : p.index? = some i)
    (hchildren : owner.focus.field? "children" = some (.list (Node.toValues siblings)))
    (hi : siblings[i]? = some (.element tag attrs children)) :
    p.selector = .ok (.text (Node.selectorText siblings i tag attrs)) := by
  have hordinal := ordinal_of_owner hfocus howner hindex hchildren hi
  have htag : p.focus.named "tag" = .ok (.text tag) := by rw [hfocus]; rfl
  have hattrs : p.focus.namedOr "attrs" (.list []) = .ok (.list (attrs.map Attr.toValue)) := by
    rw [hfocus]; rfl
  rw [selector_of_ordinal htag hattrs hordinal, Node.selectorText, Node.ordinalMark]
  split <;> rfl

end Place

end MarkupDiff
