import MarkupDiff.Proofs.Difference.TreeChanges
import MarkupDiff.Proofs.Place.Selector

namespace MarkupDiff.Change

-- The change that leads back.
def mirrored : Change → Change
  | edited path v w => edited path w v
  | removedKey path k v => addedKey path k v
  | addedKey path k w => removedKey path k w
  | removedItem path i v => addedItem path i v
  | addedItem path i w => removedItem path i w

@[simp] theorem fullPath_mirrored (c : Change) : c.mirrored.fullPath = c.fullPath := by
  cases c <;> rfl

-- Two walks come to the same change first, each from its own side. Later changes need not be in
-- the same order, since each walk follows the keys of its left record.
def FirstMirrored (cs ds : List Change) : Prop :=
  ds.head? = cs.head?.map mirrored

variable {cs cs' ds ds' : List Change}

theorem firstMirrored_nil : FirstMirrored [] [] := rfl

theorem FirstMirrored.append (h : FirstMirrored cs ds) (h' : FirstMirrored cs' ds') :
    FirstMirrored (cs ++ cs') (ds ++ ds') := by
  unfold FirstMirrored at h h' ⊢
  rw [List.head?_append, List.head?_append, h, h']
  cases cs.head? <;> rfl

theorem FirstMirrored.exists_cons {c : Change} (h : FirstMirrored (c :: cs) ds) :
    ∃ ds', ds = c.mirrored :: ds' :=
  List.head?_eq_some_iff.mp h

theorem firstMirrored_ofTexts (path : Path) (s t : String) :
    FirstMirrored (ofTexts path s t) (ofTexts path t s) := by
  by_cases h : s = t
  · subst h
    simp [firstMirrored_nil]
  · rw [ofTexts, ofTexts, if_neg h, if_neg (Ne.symm h)]
    rfl

-- What one list has beyond the other is removed in one direction and added in the other.
theorem firstMirrored_surplus (path : Path) (i : Nat) (items : List Value) :
    FirstMirrored (surplus (.removedItem path) i items) (surplus (.addedItem path) i items) ∧
      FirstMirrored (surplus (.addedItem path) i items) (surplus (.removedItem path) i items) := by
  cases items with
  | nil => exact ⟨rfl, rfl⟩
  | cons v items => exact ⟨rfl, rfl⟩

-- Items that both lists have come before the surplus of either.
theorem firstMirrored_inItems {ignore : Path → Value → Bool} {xs ys : List Value}
    (h : ∀ x ∈ xs, ∀ y ∈ ys, ∀ path,
      FirstMirrored (between ignore path x y) (between ignore path y x)) (path : Path) (i : Nat) :
    FirstMirrored (inItems ignore path i xs ys) (inItems ignore path i ys xs) := by
  induction xs generalizing ys i with
  | nil =>
    cases ys with
    | nil => exact firstMirrored_nil
    | cons y ys => exact (firstMirrored_surplus path i (y :: ys)).2
  | cons x xs ih =>
    cases ys with
    | nil => exact (firstMirrored_surplus path i (x :: xs)).1
    | cons y ys =>
      have hhead := h x List.mem_cons_self y List.mem_cons_self (path ++ [.nat i])
      have hrest : ∀ v ∈ xs, ∀ w ∈ ys, ∀ path,
          FirstMirrored (between ignore path v w) (between ignore path w v) := fun v hv w hw =>
        h v (List.mem_cons_of_mem _ hv) w (List.mem_cons_of_mem _ hw)
      exact hhead.append (ih hrest (i + 1))

theorem firstMirrored_between_attr (path : Path) (a b : Attr) :
    FirstMirrored (between ignoringParent path a.toValue b.toValue)
      (between ignoringParent path b.toValue a.toValue) := by
  rw [between_attr, between_attr]
  exact (firstMirrored_ofTexts _ a.name b.name).append (firstMirrored_ofTexts _ a.value b.value)

theorem firstMirrored_inItems_attrs (path : Path) (as bs : List Attr) :
    FirstMirrored
      (inItems ignoringParent path 0 (as.map Attr.toValue) (bs.map Attr.toValue))
      (inItems ignoringParent path 0 (bs.map Attr.toValue) (as.map Attr.toValue)) := by
  refine firstMirrored_inItems (fun x hx y hy path => ?_) path 0
  obtain ⟨a, _, rfl⟩ := List.mem_map.mp hx
  obtain ⟨b, _, rfl⟩ := List.mem_map.mp hy
  exact firstMirrored_between_attr path a b

-- The type is the first key of every node, so nodes of different types differ there first.
theorem head?_between_of_type {path : Path} {n m : Node} (h : n.typeName ≠ m.typeName) :
    (between ignoringParent path n.toValue m.toValue).head? =
      some (.edited (path ++ [.text "type"]) (.text n.typeName) (.text m.typeName)) := by
  cases n <;> cases m <;>
    simp_all [Node.typeName, Node.toValue, between_record, inEntries, ignoringParent_text,
      Value.lookup, Value.equal_text, between_text, ofTexts]

theorem firstMirrored_of_type {path : Path} {n m : Node} (h : n.typeName ≠ m.typeName) :
    FirstMirrored (between ignoringParent path n.toValue m.toValue)
      (between ignoringParent path m.toValue n.toValue) := by
  rw [FirstMirrored, head?_between_of_type h, head?_between_of_type h.symm]
  rfl

theorem firstMirrored_between_node (n m : Node) (path : Path) :
    FirstMirrored (between ignoringParent path n.toValue m.toValue)
      (between ignoringParent path m.toValue n.toValue) := by
  by_cases htype : n.typeName = m.typeName
  · cases n with
    | element t as cs =>
      cases m with
      | element u bs ds =>
        have hchildren : FirstMirrored
            (inItems ignoringParent (path ++ [.text "children"]) 0 (Node.toValues cs)
              (Node.toValues ds))
            (inItems ignoringParent (path ++ [.text "children"]) 0 (Node.toValues ds)
              (Node.toValues cs)) := by
          rw [Node.toValues_eq_map, Node.toValues_eq_map]
          refine firstMirrored_inItems (fun x hx y hy path => ?_) _ 0
          obtain ⟨c, hc, rfl⟩ := List.mem_map.mp hx
          obtain ⟨d, _, rfl⟩ := List.mem_map.mp hy
          have hlt := List.sizeOf_lt_of_mem hc
          exact firstMirrored_between_node c d path
        rw [between_element, between_element]
        exact (firstMirrored_ofTexts _ t u).append
          ((firstMirrored_inItems_attrs _ as bs).append hchildren)
      | _ => exact absurd htype (by simp [Node.typeName])
    | text s =>
      cases m with
      | text t =>
        rw [between_text_text, between_text_text]
        exact firstMirrored_ofTexts _ s t
      | _ => exact absurd htype (by simp [Node.typeName])
    | comment s =>
      cases m with
      | comment t =>
        rw [between_comment_comment, between_comment_comment]
        exact firstMirrored_ofTexts _ s t
      | _ => exact absurd htype (by simp [Node.typeName])
  · exact firstMirrored_of_type htype
termination_by sizeOf n

end MarkupDiff.Change

namespace MarkupDiff.Fragment

-- Comparing two fragments the other way round comes to the same change first.
theorem firstMirrored_changes (f g : Fragment) :
    Change.FirstMirrored (f.changes g) (g.changes f) := by
  rw [changes_eq, changes_eq, Node.toValues_eq_map, Node.toValues_eq_map]
  refine Change.firstMirrored_inItems (fun x hx y hy path => ?_) _ 0
  obtain ⟨n, _, rfl⟩ := List.mem_map.mp hx
  obtain ⟨m, _, rfl⟩ := List.mem_map.mp hy
  exact Change.firstMirrored_between_node n m path

end MarkupDiff.Fragment
