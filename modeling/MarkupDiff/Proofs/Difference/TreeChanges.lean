import MarkupDiff.Comparison

namespace MarkupDiff

def Node.typeName : Node → String
  | element _ _ _ => "element"
  | text _ => "text"
  | comment _ => "comment"

theorem Value.equal_text (s t : String) : (Value.text s).equal (.text t) = (t == s) := by
  simp [Value.equal, Value.text?]

theorem ignoringParent_text (path : Path) (k : String) :
    ignoringParent path (.text k) = (k == "parent") := by
  simp [ignoringParent, Value.isText, Value.text?]

namespace Change

def ofTexts (path : Path) (s t : String) : List Change :=
  if s = t then [] else [.edited path (.text s) (.text t)]

@[simp] theorem ofTexts_self (path : Path) (s : String) : ofTexts path s s = [] := by
  simp [ofTexts]

@[simp] theorem ofTexts_eq_nil_iff {path : Path} {s t : String} :
    ofTexts path s t = [] ↔ s = t := by
  simp [ofTexts]

theorem between_text (ignore : Path → Value → Bool) (path : Path) (s t : String) :
    between ignore path (.text s) (.text t) = ofTexts path s t := by
  by_cases h : s = t
  · simp [between, Value.equal_text, h]
  · simp [between, Value.equal_text, ofTexts, h, Ne.symm h]

theorem between_list (ignore : Path → Value → Bool) (path : Path) (xs ys : List Value) :
    between ignore path (.list xs) (.list ys) = inItems ignore path 0 xs ys := rfl

theorem between_record (ignore : Path → Value → Bool) (path : Path)
    (es fs : List (Value × Value)) :
    between ignore path (.record es) (.record fs) =
      inEntries ignore path fs es ++ foreign ignore path es fs := rfl

theorem between_attr (path : Path) (a b : Attr) :
    between ignoringParent path a.toValue b.toValue =
      ofTexts (path ++ [.text "name"]) a.name b.name ++
        ofTexts (path ++ [.text "value"]) a.value b.value := by
  simp [Attr.toValue, between_record, inEntries, foreign, ignoringParent_text, Value.lookup,
    Value.equal_text, between_text]

theorem between_element (path : Path) (t u : String) (as bs : List Attr) (cs ds : List Node) :
    between ignoringParent path (Node.element t as cs).toValue (Node.element u bs ds).toValue =
      ofTexts (path ++ [.text "tag"]) t u ++
        (inItems ignoringParent (path ++ [.text "attrs"]) 0 (as.map Attr.toValue)
            (bs.map Attr.toValue) ++
          inItems ignoringParent (path ++ [.text "children"]) 0 (Node.toValues cs)
            (Node.toValues ds)) := by
  simp [Node.toValue, between_record, inEntries, foreign, ignoringParent_text, Value.lookup,
    Value.equal_text, between_text, between_list]

theorem between_text_text (path : Path) (s t : String) :
    between ignoringParent path (Node.text s).toValue (Node.text t).toValue =
      ofTexts (path ++ [.text "content"]) s t := by
  simp [Node.toValue, between_record, inEntries, foreign, ignoringParent_text, Value.lookup,
    Value.equal_text, between_text]

theorem between_comment_comment (path : Path) (s t : String) :
    between ignoringParent path (Node.comment s).toValue (Node.comment t).toValue =
      ofTexts (path ++ [.text "content"]) s t := by
  simp [Node.toValue, between_record, inEntries, foreign, ignoringParent_text, Value.lookup,
    Value.equal_text, between_text]

theorem between_element_text (path : Path) (t s : String) (as : List Attr) (cs : List Node) :
    between ignoringParent path (Node.element t as cs).toValue (Node.text s).toValue =
      [.edited (path ++ [.text "type"]) "element" "text", .removedKey path "tag" t,
        .removedKey path "attrs" (.list (as.map Attr.toValue)),
        .removedKey path "children" (.list (Node.toValues cs)), .addedKey path "content" s] := by
  simp [Node.toValue, between_record, inEntries, foreign, ignoringParent_text, Value.lookup,
    Value.equal_text, between_text, ofTexts]

theorem between_text_element (path : Path) (s t : String) (as : List Attr) (cs : List Node) :
    between ignoringParent path (Node.text s).toValue (Node.element t as cs).toValue =
      [.edited (path ++ [.text "type"]) "text" "element", .removedKey path "content" s,
        .addedKey path "tag" t, .addedKey path "attrs" (.list (as.map Attr.toValue)),
        .addedKey path "children" (.list (Node.toValues cs))] := by
  simp [Node.toValue, between_record, inEntries, foreign, ignoringParent_text, Value.lookup,
    Value.equal_text, between_text, ofTexts]

-- Nodes of different types always differ, in their types.
theorem edited_type_mem (path : Path) {n m : Node} (h : n.typeName ≠ m.typeName) :
    .edited (path ++ [.text "type"]) n.typeName m.typeName ∈
      between ignoringParent path n.toValue m.toValue := by
  cases n <;> cases m <;>
    simp_all [Node.typeName, Node.toValue, between_record, inEntries, ignoringParent_text,
      Value.lookup, Value.equal_text, between_text, ofTexts]

theorem eq_nil_iff_of_type {path : Path} {n m : Node} (h : n.typeName ≠ m.typeName) :
    between ignoringParent path n.toValue m.toValue = [] ↔ n = m :=
  iff_of_false (List.ne_nil_of_mem (edited_type_mem path h)) (fun heq => h (heq ▸ rfl))

theorem between_attr_eq_nil_iff {path : Path} {a b : Attr} :
    between ignoringParent path a.toValue b.toValue = [] ↔ a = b := by
  rw [between_attr, List.append_eq_nil_iff, ofTexts_eq_nil_iff, ofTexts_eq_nil_iff]
  cases a
  cases b
  simp

theorem inItems_attrs_eq_nil_iff {path : Path} {i : Nat} {as bs : List Attr} :
    inItems ignoringParent path i (as.map Attr.toValue) (bs.map Attr.toValue) = [] ↔ as = bs := by
  induction as generalizing i bs with
  | nil => cases bs <;> simp [inItems, surplus]
  | cons a as ih =>
    cases bs with
    | nil => simp [inItems, surplus]
    | cons b bs => simp [inItems, between_attr_eq_nil_iff, ih]

mutual

-- A comparison of two nodes finds nothing only if they are equal.
theorem between_node_eq_nil_iff {path : Path} (n m : Node) :
    between ignoringParent path n.toValue m.toValue = [] ↔ n = m := by
  match n, m with
  | .element t as cs, .element u bs ds =>
    rw [between_element, List.append_eq_nil_iff, List.append_eq_nil_iff, ofTexts_eq_nil_iff,
      inItems_attrs_eq_nil_iff, inItems_nodes_eq_nil_iff cs ds]
    simp
  | .text s, .text t => simp [between_text_text]
  | .comment s, .comment t => simp [between_comment_comment]
  | .element _ _ _, .text _ => exact eq_nil_iff_of_type (by simp [Node.typeName])
  | .element _ _ _, .comment _ => exact eq_nil_iff_of_type (by simp [Node.typeName])
  | .text _, .element _ _ _ => exact eq_nil_iff_of_type (by simp [Node.typeName])
  | .text _, .comment _ => exact eq_nil_iff_of_type (by simp [Node.typeName])
  | .comment _, .element _ _ _ => exact eq_nil_iff_of_type (by simp [Node.typeName])
  | .comment _, .text _ => exact eq_nil_iff_of_type (by simp [Node.typeName])

theorem inItems_nodes_eq_nil_iff {path : Path} {i : Nat} (ns ms : List Node) :
    inItems ignoringParent path i (Node.toValues ns) (Node.toValues ms) = [] ↔ ns = ms := by
  match ns, ms with
  | [], [] => simp [Node.toValues, inItems, surplus]
  | [], m :: ms => simp [Node.toValues, inItems, surplus]
  | n :: ns, [] => simp [Node.toValues, inItems, surplus]
  | n :: ns, m :: ms =>
    rw [Node.toValues, Node.toValues, inItems, List.append_eq_nil_iff, between_node_eq_nil_iff n m,
      inItems_nodes_eq_nil_iff ns ms, List.cons.injEq]

end

end Change

namespace Fragment

theorem changes_eq (f g : Fragment) :
    f.changes g =
      Change.inItems ignoringParent [.text "children"] 0 (Node.toValues f) (Node.toValues g) := by
  simp [changes, structuralDiff, toValue, Change.between_record, Change.inEntries, Change.foreign,
    ignoringParent_text, Value.lookup, Value.equal_text, Change.between_text, Change.between_list]

theorem changes_eq_nil_iff {f g : Fragment} : f.changes g = [] ↔ f = g := by
  rw [changes_eq, Change.inItems_nodes_eq_nil_iff]

end Fragment

end MarkupDiff
