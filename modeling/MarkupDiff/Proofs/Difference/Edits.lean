import MarkupDiff.Proofs.Difference.Agreement
import MarkupDiff.Proofs.Difference.Membership
import MarkupDiff.Proofs.Difference.TreeChanges
import MarkupDiff.Proofs.Place.Standing

namespace MarkupDiff

open MarkupDiff.Tree (Root RootLink childLink)

namespace Tree.Root

def tag? : Root → Option String
  | node (.element tag _ _) => some tag
  | _ => none

def attrs? : Root → Option (List Attr)
  | node (.element _ attrs _) => some attrs
  | _ => none

def content? : Root → Option String
  | node (.text content) => some content
  | node (.comment content) => some content
  | _ => none

variable {t : Root} {link : List (Value × Value)}

theorem field?_tag (hlink : RootLink link ∨ link = childLink) :
    (t.recordWith link).field? "tag" = t.tag?.map .text := by
  match t with
  | fragment f => rcases hlink with (rfl | rfl) | rfl <;> rfl
  | node (.element tag attrs children) => rfl
  | node (.text s) | node (.comment s) => rcases hlink with (rfl | rfl) | rfl <;> rfl

theorem field?_attrs (hlink : RootLink link ∨ link = childLink) :
    (t.recordWith link).field? "attrs" =
      t.attrs?.map fun attrs => .list (attrs.map Attr.toValue) := by
  match t with
  | fragment f => rcases hlink with (rfl | rfl) | rfl <;> rfl
  | node (.element tag attrs children) => rfl
  | node (.text s) | node (.comment s) => rcases hlink with (rfl | rfl) | rfl <;> rfl

theorem field?_content (hlink : RootLink link ∨ link = childLink) :
    (t.recordWith link).field? "content" = t.content?.map .text := by
  match t with
  | fragment f => rcases hlink with (rfl | rfl) | rfl <;> rfl
  | node (.element tag attrs children) => rcases hlink with (rfl | rfl) | rfl <;> rfl
  | node (.text s) | node (.comment s) => rfl

-- The entries of a record of a tree, one for each part that it has.
inductive Field (t : Root) : String → Value → Prop
  | type : Field t "type" (.text t.typeName)
  | tag {s : String} (h : t.tag? = some s) : Field t "tag" (.text s)
  | attrs {attrs : List Attr} (h : t.attrs? = some attrs) :
      Field t "attrs" (.list (attrs.map Attr.toValue))
  | children {ns : List Node} (h : t.children? = some ns) :
      Field t "children" (.list (Node.toValues ns))
  | content {s : String} (h : t.content? = some s) : Field t "content" (.text s)

theorem exists_field_of_mem {k x : Value} (h : (k, x) ∈ t.fields) :
    ∃ name, k = .text name ∧ Field t name x := by
  match t with
  | fragment f =>
    simp only [fields, List.mem_cons, Prod.mk.injEq, List.not_mem_nil, or_false] at h
    rcases h with ⟨rfl, rfl⟩ | ⟨rfl, rfl⟩
    · exact ⟨_, rfl, .type⟩
    · exact ⟨_, rfl, .children rfl⟩
  | node (.element tag attrs children) =>
    simp only [fields, List.mem_cons, Prod.mk.injEq, List.not_mem_nil, or_false] at h
    rcases h with ⟨rfl, rfl⟩ | ⟨rfl, rfl⟩ | ⟨rfl, rfl⟩ | ⟨rfl, rfl⟩
    · exact ⟨_, rfl, .type⟩
    · exact ⟨_, rfl, .tag rfl⟩
    · exact ⟨_, rfl, .attrs rfl⟩
    · exact ⟨_, rfl, .children rfl⟩
  | node (.text s) | node (.comment s) =>
    simp only [fields, List.mem_cons, Prod.mk.injEq, List.not_mem_nil, or_false] at h
    rcases h with ⟨rfl, rfl⟩ | ⟨rfl, rfl⟩
    · exact ⟨_, rfl, .type⟩
    · exact ⟨_, rfl, .content rfl⟩

theorem sizeOf_lt_of_child {ns : List Node} {n : Node} (hns : t.children? = some ns)
    (hn : n ∈ ns) : sizeOf (node n) < sizeOf t := by
  have hlt := List.sizeOf_lt_of_mem hn
  match t with
  | fragment f =>
    obtain rfl := Option.some.inj hns
    simp only [fragment.sizeOf_spec, node.sizeOf_spec]
    omega
  | node (.element tag attrs children) =>
    obtain rfl := Option.some.inj hns
    simp only [node.sizeOf_spec, Node.element.sizeOf_spec]
    omega
  | node (.text s) | node (.comment s) => exact absurd hns (by simp [children?])

-- Where two trees hold different texts, both: under a key of two nodes, or of two attributes, that
-- the same way leads to.
inductive Edited : Root → Root → Path → String → String → String → Prop
  | kind {t u : Root} (hne : t.typeName ≠ u.typeName) :
      Edited t u [] "type" t.typeName u.typeName
  | tag {t u : Root} {s s' : String} (ht : t.tag? = some s) (hu : u.tag? = some s')
      (hne : s ≠ s') : Edited t u [] "tag" s s'
  | content {t u : Root} {s s' : String} (ht : t.content? = some s) (hu : u.content? = some s')
      (hne : s ≠ s') : Edited t u [] "content" s s'
  | name {t u : Root} {as bs : List Attr} {i : Nat} {a b : Attr} (ht : t.attrs? = some as)
      (hu : u.attrs? = some bs) (ha : as[i]? = some a) (hb : bs[i]? = some b)
      (hne : a.name ≠ b.name) : Edited t u [.text "attrs", .nat i] "name" a.name b.name
  | value {t u : Root} {as bs : List Attr} {i : Nat} {a b : Attr} (ht : t.attrs? = some as)
      (hu : u.attrs? = some bs) (ha : as[i]? = some a) (hb : bs[i]? = some b)
      (hne : a.value ≠ b.value) : Edited t u [.text "attrs", .nat i] "value" a.value b.value
  | child {t u : Root} {ns ms : List Node} {i : Nat} {n m : Node} {path : Path}
      {key s s' : String} (ht : t.children? = some ns) (hu : u.children? = some ms)
      (hn : ns[i]? = some n) (hm : ms[i]? = some m) (h : Edited (.node n) (.node m) path key s s') :
      Edited t u (.text "children" :: .nat i :: path) key s s'

end Tree.Root

namespace Change

variable {before at' : Path} {v w : Value}

theorem edited_mem_ofTexts {s s' : String} :
    .edited at' v w ∈ ofTexts before s s' ↔
      s ≠ s' ∧ at' = before ∧ v = .text s ∧ w = .text s' := by
  unfold ofTexts
  split <;> simp_all

-- Two records are edited under a key of both that is not passed over.
theorem exists_key_of_edited {es fs : List (Value × Value)}
    (h : .edited at' v w ∈ between ignoringParent before (.record es) (.record fs)) :
    ∃ k x y, (k, x) ∈ es ∧ ignoringParent before k = false ∧ Value.lookup k fs = some y ∧
      .edited at' v w ∈ between ignoringParent (before ++ [k]) x y := by
  rw [between_record, inEntries_eq_flatMap] at h
  rcases List.mem_append.mp h with h | h
  · obtain ⟨⟨k, x⟩, hmem, hentry⟩ := List.mem_flatMap.mp h
    rw [inEntry] at hentry
    split at hentry
    · exact absurd hentry List.not_mem_nil
    · rename_i hkept
      split at hentry
      · rename_i y hy
        exact ⟨k, x, y, hmem, by simpa using hkept, hy, hentry⟩
      · exact absurd (List.mem_singleton.mp hentry) Change.noConfusion
  · obtain ⟨f, -, hf⟩ := List.mem_map.mp h
    exact absurd hf Change.noConfusion

-- Two lists are edited at an index of both.
theorem exists_index_of_edited {xs ys : List Value}
    (h : .edited at' v w ∈ inItems ignoringParent before 0 xs ys) :
    ∃ i x y, xs[i]? = some x ∧ ys[i]? = some y ∧
      .edited at' v w ∈ between ignoringParent (before ++ [.nat i]) x y := by
  rcases mem_inItems.mp h with ⟨i, x, y, hx, hy, h⟩ | ⟨_, _, _, _, h⟩ | ⟨_, _, _, _, h⟩
  · exact ⟨i, x, y, hx, hy, by rwa [Nat.zero_add] at h⟩
  · exact absurd h Change.noConfusion
  · exact absurd h Change.noConfusion

-- An edit of two lists of attributes is one of a name or of a value.
theorem edited_of_attrs {as bs : List Attr}
    (h : .edited at' v w ∈ between ignoringParent before (.list (as.map Attr.toValue))
      (.list (bs.map Attr.toValue))) :
    ∃ i a b, as[i]? = some a ∧ bs[i]? = some b ∧
      (a.name ≠ b.name ∧ at' = before ++ [.nat i] ++ [.text "name"] ∧ v = .text a.name ∧
          w = .text b.name ∨
        a.value ≠ b.value ∧ at' = before ++ [.nat i] ++ [.text "value"] ∧ v = .text a.value ∧
          w = .text b.value) := by
  rw [between_list] at h
  obtain ⟨i, x, y, hx, hy, h⟩ := exists_index_of_edited h
  rw [List.getElem?_map, Option.map_eq_some_iff] at hx hy
  obtain ⟨a, ha, rfl⟩ := hx
  obtain ⟨b, hb, rfl⟩ := hy
  rw [between_attr, List.mem_append, edited_mem_ofTexts, edited_mem_ofTexts] at h
  exact ⟨i, a, b, ha, hb, h⟩

-- An edit that a comparison of two trees finds is a place where they hold different texts. The
-- induction goes down into the children that both have.
theorem exists_edited_of_between {before : Path} {t u : Root} {l l' : List (Value × Value)}
    (hl : RootLink l ∨ l = childLink) (hl' : RootLink l' ∨ l' = childLink)
    (h : .edited at' v w ∈
      between ignoringParent before (t.recordWith l) (u.recordWith l')) :
    ∃ path key s s', Root.Edited t u path key s s' ∧ at' = before ++ path ++ [.text key] ∧
      v = .text s ∧ w = .text s' := by
  have hlookup : ∀ name, Value.lookup (.text name) (u.fields ++ l') =
      (u.recordWith l').field? name := fun name => by rw [Root.recordWith_eq]; rfl
  rw [Root.recordWith_eq, Root.recordWith_eq] at h
  obtain ⟨k, x, y, hmem, hkept, hy, h⟩ := exists_key_of_edited h
  rcases List.mem_append.mp hmem with hmem | hlink
  · obtain ⟨name, rfl, hfield⟩ := Root.exists_field_of_mem hmem
    rw [hlookup] at hy
    cases hfield with
    | type =>
      rw [Root.field?_type] at hy
      obtain rfl := Option.some.inj hy
      rw [between_text] at h
      obtain ⟨hne, rfl, rfl, rfl⟩ := edited_mem_ofTexts.mp h
      exact ⟨[], _, _, _, .kind hne, by simp, rfl, rfl⟩
    | tag ht =>
      rw [Root.field?_tag hl', Option.map_eq_some_iff] at hy
      obtain ⟨s', hu, rfl⟩ := hy
      rw [between_text] at h
      obtain ⟨hne, rfl, rfl, rfl⟩ := edited_mem_ofTexts.mp h
      exact ⟨[], _, _, _, .tag ht hu hne, by simp, rfl, rfl⟩
    | content ht =>
      rw [Root.field?_content hl', Option.map_eq_some_iff] at hy
      obtain ⟨s', hu, rfl⟩ := hy
      rw [between_text] at h
      obtain ⟨hne, rfl, rfl, rfl⟩ := edited_mem_ofTexts.mp h
      exact ⟨[], _, _, _, .content ht hu hne, by simp, rfl, rfl⟩
    | attrs ht =>
      rw [Root.field?_attrs hl', Option.map_eq_some_iff] at hy
      obtain ⟨bs, hu, rfl⟩ := hy
      obtain ⟨i, a, b, ha, hb, ⟨hne, rfl, rfl, rfl⟩ | ⟨hne, rfl, rfl, rfl⟩⟩ := edited_of_attrs h
      · exact ⟨_, _, _, _, .name ht hu ha hb hne, by simp, rfl, rfl⟩
      · exact ⟨_, _, _, _, .value ht hu ha hb hne, by simp, rfl, rfl⟩
    | @children ns ht =>
      rw [Root.field?_children hl', Option.map_eq_some_iff] at hy
      obtain ⟨ms, hu, rfl⟩ := hy
      rw [between_list, Node.toValues_eq_map, Node.toValues_eq_map] at h
      obtain ⟨i, x, y, hx, hy, h⟩ := exists_index_of_edited h
      rw [List.getElem?_map, Option.map_eq_some_iff] at hx hy
      obtain ⟨n, hn, rfl⟩ := hx
      obtain ⟨m, hm, rfl⟩ := hy
      rw [← n.recordWith_owner, ← m.recordWith_owner] at h
      have hlt := Root.sizeOf_lt_of_child ht (List.mem_of_getElem? hn)
      obtain ⟨path, key, s, s', hedited, rfl, hv, hw⟩ :=
        exists_edited_of_between (t := .node n) (u := .node m) (.inr rfl) (.inr rfl) h
      exact ⟨_, _, _, _, .child ht hu hn hm hedited, by simp, hv, hw⟩
  · rcases hl with (rfl | rfl) | rfl
    · exact absurd hlink List.not_mem_nil
    · obtain ⟨rfl, -⟩ := Prod.mk.inj (List.mem_singleton.mp hlink)
      exact absurd hkept (by simp [ignoringParent_text])
    · obtain ⟨rfl, -⟩ := Prod.mk.inj (List.mem_singleton.mp hlink)
      exact absurd hkept (by simp [ignoringParent_text])
termination_by sizeOf t

end Change

end MarkupDiff
