import MarkupDiff.Proofs.Difference.TreeChanges
import MarkupDiff.Proofs.Node.NormalForm
import MarkupDiff.Tree.Normalize
import Mathlib.Data.List.Forall2

namespace MarkupDiff.Tree

-- The entry by which a record leads back to its owner, whatever it leads to, or none.
def IsLink (link : List (Value × Value)) : Prop :=
  link = [] ∨ ∃ v, link = [(.text "parent", v)]

mutual

-- The value is a record of the node with this link at its end. The records of the children have
-- any links.
def Records (link : List (Value × Value)) : Value → Node → Prop
  | v, .element tag attrs children =>
    ∃ vs, AllRecord vs children ∧
      v = .record ([(.text "type", .text "element"), (.text "tag", .text tag),
        (.text "attrs", .list (attrs.map Attr.toValue)), (.text "children", .list vs)] ++ link)
  | v, .text content =>
    v = .record ([(.text "type", .text "text"), (.text "content", .text content)] ++ link)
  | v, .comment content =>
    v = .record ([(.text "type", .text "comment"), (.text "content", .text content)] ++ link)

def AllRecord : List Value → List Node → Prop
  | vs, [] => vs = []
  | vs, n :: ns =>
    ∃ v rest link, vs = v :: rest ∧ IsLink link ∧ Records link v n ∧ AllRecord rest ns

end

-- The value is a record of the node, linked in any way.
def Shows (v : Value) (n : Node) : Prop :=
  ∃ link, IsLink link ∧ Records link v n

theorem allRecord_iff {vs : List Value} {ns : List Node} :
    AllRecord vs ns ↔ List.Forall₂ Shows vs ns := by
  induction ns generalizing vs with
  | nil => simp [AllRecord]
  | cons n ns ih =>
    rw [AllRecord]
    constructor
    · rintro ⟨v, rest, link, rfl, hlink, hv, hrest⟩
      exact .cons ⟨link, hlink, hv⟩ (ih.mp hrest)
    · rintro (_ | ⟨⟨link, hlink, hv⟩, hrest⟩)
      exact ⟨_, _, link, rfl, hlink, hv, ih.mpr hrest⟩

section Record

variable {o : Options} {link : List (Value × Value)} {v : Value} {n : Node}

theorem named_type_of_records (h : Records link v n) :
    v.named "type" = .ok (.text n.typeName) := by
  cases n with
  | element tag attrs children =>
    obtain ⟨vs, _, rfl⟩ := h
    rfl
  | text s =>
    obtain rfl := h
    rfl
  | comment s =>
    obtain rfl := h
    rfl

theorem Shows.isPruned_eq (h : Shows v n) : isPruned o v = .ok (n.isPruned o) := by
  obtain ⟨link, _, hv⟩ := h
  have htype := named_type_of_records hv
  cases n with
  | element tag attrs children =>
    obtain ⟨vs, _, rfl⟩ := hv
    rfl
  | text s =>
    obtain rfl := hv
    rfl
  | comment s =>
    obtain rfl := hv
    rfl

theorem Shows.isTextNode_iff (h : Shows v n) : isTextNode v = true ↔ Node.IsText n := by
  obtain ⟨link, _, hv⟩ := h
  cases n with
  | element tag attrs children =>
    obtain ⟨vs, _, rfl⟩ := hv
    simp [isTextNode, Value.field?, Value.lookup, Value.equal_text, Value.isText, Value.text?]
  | text s =>
    obtain rfl := hv
    simp [isTextNode, Value.field?, Value.lookup, Value.equal_text, Value.isText, Value.text?]
  | comment s =>
    obtain rfl := hv
    simp [isTextNode, Value.field?, Value.lookup, Value.equal_text, Value.isText, Value.text?]

theorem Shows.isVisible_eq (h : Shows v n) : isVisible v = .ok !n.isBlankText := by
  by_cases hn : Node.IsText n
  · obtain ⟨s, rfl⟩ := Node.isText_iff.mp hn
    obtain ⟨link, _, rfl⟩ := h
    rfl
  · have hblank : n.isBlankText = false :=
      Bool.eq_false_iff.mpr fun hblank => hn (Node.isText_of_isBlankText hblank)
    rw [isVisible, if_neg (mt h.isTextNode_iff.mp hn), hblank]
    rfl

theorem exists_joined {w : Value} {s t : String} (hv : Shows v (.text s))
    (hw : Shows w (.text t)) : ∃ u, joined v w = .ok u ∧ Shows u (.text (s ++ t)) := by
  obtain ⟨link, hlink, rfl⟩ := hv
  obtain ⟨link', _, rfl⟩ := hw
  exact ⟨_, rfl, link, hlink, rfl⟩

-- A record that is linked to its owner loses the link that it had.
theorem Shows.linked (h : Shows v n) :
    Records [(.text "parent", .owner)] (v.withField "parent" .owner) n := by
  obtain ⟨link, hlink, hv⟩ := h
  cases n with
  | element tag attrs children =>
    obtain ⟨vs, hvs, rfl⟩ := hv
    refine ⟨vs, hvs, ?_⟩
    obtain rfl | ⟨p, rfl⟩ := hlink <;> simp [Value.withField, Value.put, Value.equal_text]
  | text s =>
    obtain rfl := hv
    obtain rfl | ⟨p, rfl⟩ := hlink <;>
      simp [Records, Value.withField, Value.put, Value.equal_text]
  | comment s =>
    obtain rfl := hv
    obtain rfl | ⟨p, rfl⟩ := hlink <;>
      simp [Records, Value.withField, Value.put, Value.equal_text]

end Record

-- A test that never fails can be made at once.
theorem filterM_eq_ok {α ε : Type} {f : α → Except ε Bool} {p : α → Bool} {xs : List α}
    (h : ∀ x ∈ xs, f x = .ok (p x)) : xs.filterM f = .ok (xs.filter p) := by
  have hrun : ∀ acc : List α, xs.filterAuxM f acc = .ok ((xs.filter p).reverse ++ acc) := by
    induction xs with
    | nil => exact fun acc => rfl
    | cons x xs ih =>
      intro acc
      rw [List.filterAuxM, h x List.mem_cons_self]
      have hrest := ih fun y hy => h y (List.mem_cons_of_mem _ hy)
      cases hx : p x with
      | true => simpa [bind, Except.bind, hx] using hrest (x :: acc)
      | false => simpa [bind, Except.bind, hx] using hrest acc
  rw [List.filterM, hrun]
  simp [bind, Except.bind, pure, Except.pure]

section Siblings

variable {o : Options}

theorem filterM_isVisible {vs : List Value} {ns : List Node} (h : List.Forall₂ Shows vs ns) :
    ∃ ws, vs.filterM isVisible = .ok ws ∧
      List.Forall₂ Shows ws (ns.filter (!·.isBlankText)) := by
  have hshown : ∀ v ∈ vs, ∃ n, Shows v n := by
    induction h with
    | nil => simp
    | cons hv _ ih => exact List.forall_mem_cons.mpr ⟨⟨_, hv⟩, ih⟩
  refine ⟨vs.filter fun v => match isVisible v with | .ok b => b | .error _ => false,
    filterM_eq_ok fun v hv => ?_, ?_⟩
  · obtain ⟨n, hn⟩ := hshown v hv
    rw [hn.isVisible_eq]
  · clear hshown
    induction h with
    | nil => exact .nil
    | @cons v n vs ns hv _ ih =>
      cases hn : n.isBlankText with
      | true => simpa [hv.isVisible_eq, hn] using ih
      | false => simpa [hv.isVisible_eq, hn] using ⟨hv, ih⟩

theorem Shows.getD {vs : List Value} {ns : List Node} (h : List.Forall₂ Shows vs ns) {i : Nat}
    (hi : i < vs.length) : Shows (vs.getD i .null) (ns.getD i default) := by
  obtain ⟨hlen, hget⟩ := List.forall₂_iff_get.mp h
  have hshows := hget i hi (hlen ▸ hi)
  simpa [List.getD_eq_getElem?_getD, hi, hlen ▸ hi] using hshows

theorem map_getD_range (ns : List Node) :
    (List.range ns.length).map (fun i => ns.getD i default) = ns := by
  apply List.ext_getElem
  · simp
  · intro i h _
    simp [List.getD_eq_getElem?_getD, List.getElem?_eq_getElem (by simpa using h)]

-- The positions that are kept are those of the nodes that count.
theorem keptAt_eq {vs : List Value} {ns : List Node} (h : List.Forall₂ Shows vs ns) :
    ∃ is, keptAt o vs = .ok is ∧ is.Nodup ∧ (∀ i ∈ is, i < vs.length) ∧
      is.map (fun i => ns.getD i default) = ns.filter (!·.isPruned o) := by
  refine ⟨(List.range vs.length).filter fun i => !(ns.getD i default).isPruned o,
    filterM_eq_ok fun i hi => ?_, List.nodup_range.filter _, fun i hi => ?_, ?_⟩
  · rw [(Shows.getD h (List.mem_range.mp hi)).isPruned_eq]
    rfl
  · exact List.mem_range.mp (List.mem_filter.mp hi).1
  · have hfilter := List.filter_map (p := fun n : Node => !n.isPruned o)
      (f := fun i => ns.getD i default) (l := List.range vs.length)
    rw [h.length_eq, map_getD_range] at hfilter
    rw [h.length_eq, hfilter]
    rfl

-- Texts at the given positions are joined like the nodes there, and nothing else changes. The text
-- under way stands at `j`.
theorem mergeAt_eq (node : Nat → Node) {is : List Nat} {vs : List Value} {j : Nat} {m : Node}
    (hm : Shows (vs.getD j .null) m) (his : ∀ i ∈ is, Shows (vs.getD i .null) (node i))
    (hnodup : (j :: is).Nodup) (hlt : j < vs.length) (hlts : ∀ i ∈ is, i < vs.length) :
    ∃ ws ps, mergeAt vs (some j) is = ⟨ws, .ok ps⟩ ∧
      List.Forall₂ Shows (ps.map fun i => ws.getD i .null)
        (Node.mergeTexts (m :: is.map node)) ∧
      ∀ k, k ∉ j :: is → ws.getD k .null = vs.getD k .null := by
  induction is generalizing vs j m with
  | nil =>
    have hmerged : Node.mergeTexts [m] = [m] := Node.mergeTexts_of_apart (List.isChain_singleton m)
    exact ⟨vs, [j], rfl, by simpa [hmerged] using hm, fun k _ => rfl⟩
  | cons i is ih =>
    obtain ⟨hj, hnodup'⟩ := List.nodup_cons.mp hnodup
    obtain ⟨hi, hisNodup⟩ := List.nodup_cons.mp hnodup'
    obtain ⟨hhead, htail⟩ := List.forall_mem_cons.mp his
    obtain ⟨hltHead, hltTail⟩ := List.forall_mem_cons.mp hlts
    have htest : (isTextNode (vs.getD i .null) && isTextNode (vs.getD j .null)) = true ↔
        m.IsText ∧ (node i).IsText := by
      rw [Bool.and_eq_true, hhead.isTextNode_iff, hm.isTextNode_iff, and_comm]
    by_cases htexts : m.IsText ∧ (node i).IsText
    · obtain ⟨s, rfl⟩ := Node.isText_iff.mp htexts.1
      obtain ⟨t, ht⟩ := Node.isText_iff.mp htexts.2
      rw [ht] at hhead
      obtain ⟨u, hu, hshown⟩ := exists_joined hm hhead
      have hset : ∀ k, j ≠ k → (vs.set j u).getD k .null = vs.getD k .null := by
        intro k hk
        simp [List.getD_eq_getElem?_getD, hk]
      have hjoined : Shows ((vs.set j u).getD j .null) (.text (s ++ t)) := by
        simpa [List.getD_eq_getElem?_getD, hlt] using hshown
      obtain ⟨ws, ps, hrun, hps, hrest⟩ := ih hjoined
        (fun k hk => by
          rw [hset k fun h => hj (h ▸ List.mem_cons_of_mem _ hk)]
          exact htail k hk)
        (List.nodup_cons.mpr ⟨fun h => hj (List.mem_cons_of_mem _ h), hisNodup⟩)
        (by simpa using hlt) (by simpa using hltTail)
      refine ⟨ws, ps, ?_, ?_, fun k hk => ?_⟩
      · rw [mergeAt, if_pos (htest.mpr htexts), hu]
        exact hrun
      · rwa [List.map_cons, ht, Node.mergeTexts_text_text]
      · simp only [List.mem_cons, not_or] at hk
        rw [hrest k (by simp [hk.1, hk.2.2]), hset k (Ne.symm hk.1)]
    · obtain ⟨ws, ps, hrun, hps, hrest⟩ := ih hhead htail hnodup' hltHead hltTail
      refine ⟨ws, j :: ps, ?_, ?_, fun k hk => hrest k fun h => hk (List.mem_cons_of_mem _ h)⟩
      · rw [mergeAt, if_neg (mt htest.mp htexts), hrun]
        rfl
      · rw [List.map_cons, List.map_cons, Node.mergeTexts_cons_cons htexts, hrest j hj]
        exact .cons hm hps

-- Records of nodes settle to records of what the nodes settle to.
theorem settle_eq {vs : List Value} {ns : List Node} (h : List.Forall₂ Shows vs ns) :
    ∃ ws, (settle o vs).result = .ok ws ∧ List.Forall₂ Shows ws (Node.settled o ns) := by
  obtain ⟨is, hkept, hnodup, hlt, hnodes⟩ := keptAt_eq (o := o) h
  have hmerged : ∃ ws ps, mergeAt vs none is = ⟨ws, .ok ps⟩ ∧
      List.Forall₂ Shows (ps.map fun i => ws.getD i .null)
        (Node.mergeTexts (ns.filter (!·.isPruned o))) := by
    cases is with
    | nil =>
      refine ⟨vs, [], rfl, ?_⟩
      rw [← hnodes]
      exact .nil
    | cons i is =>
      obtain ⟨hi, hltTail⟩ := List.forall_mem_cons.mp hlt
      obtain ⟨ws, ps, hrun, hps, _⟩ := mergeAt_eq (fun i => ns.getD i default)
        (Shows.getD h hi) (fun k hk => Shows.getD h (hltTail k hk)) hnodup hi hltTail
      exact ⟨ws, ps, hrun, hnodes ▸ hps⟩
  obtain ⟨ws, ps, hrun, hps⟩ := hmerged
  obtain ⟨us, hvisible, hus⟩ := filterM_isVisible hps
  refine ⟨us, ?_, hus⟩
  rw [settle, hkept]
  simp only [hrun, hvisible]

end Siblings

end MarkupDiff.Tree
