import MarkupDiff.Proofs.Node.NormalForm
import MarkupDiff.Proofs.Node.Runs

namespace MarkupDiff

namespace Node

variable {o o' : Options}

-- What two options leave of siblings one after the other, with texts joined in between.
def thinned (o o' : Options) (ns : List Node) : List Node :=
  (mergeTexts (ns.filter (!·.isPruned o))).filter (!·.isPruned o')

-- Joining texts again makes no difference where only other nodes have gone in between.
theorem mergeTexts_filter_mergeTexts {p : Node → Bool} (hp : ∀ s, p (text s) = true)
    (ns : List Node) : mergeTexts ((mergeTexts ns).filter p) = mergeTexts (ns.filter p) := by
  induction ns with
  | nil => rfl
  | cons n ns ih =>
    by_cases hn : IsText n
    · obtain ⟨s, rfl⟩ := isText_iff.mp hn
      have hfront : mergeTexts (text s :: (mergeTexts ns).filter p) =
          mergeTexts (text s :: ns.filter p) := mergeTexts_append_congr ih [text s]
      rw [List.filter_cons_of_pos (hp s), ← hfront, mergeTexts]
      split
      · rename_i t rest heq
        rw [heq, List.filter_cons_of_pos (hp _), List.filter_cons_of_pos (hp _),
          mergeTexts_text_text]
      · rw [List.filter_cons_of_pos (hp s)]
    · rw [mergeTexts_cons_of_not_isText hn, List.filter_cons, List.filter_cons]
      split
      · rw [mergeTexts_cons_of_not_isText hn, mergeTexts_cons_of_not_isText hn, ih]
      · exact ih

theorem isPruned_of_subset (h : o.ignoredTags ⊆ o'.ignoredTags) {n : Node}
    (hn : n.isPruned o = true) : n.isPruned o' = true := by
  rw [isPruned_iff] at hn ⊢
  exact hn.mono (Options.prunedTags_subset h)

theorem settled_eq_settledLate (h : o.ignoredTags ⊆ o'.ignoredTags) (ns : List Node) :
    settled o' ns = settledLate (thinned o o' ns) := by
  have hfilter : (ns.filter (!·.isPruned o)).filter (!·.isPruned o') =
      ns.filter (!·.isPruned o') := by
    rw [List.filter_filter]
    refine List.filter_congr fun n _ => ?_
    cases hn : n.isPruned o with
    | false => simp
    | true => simp [isPruned_of_subset h hn]
  rw [settledLate, thinned, mergeTexts_filter_mergeTexts fun _ => rfl, hfilter]
  rfl

theorem settled_settled_eq_settledEarly (o o' : Options) (ns : List Node) :
    settled o' (settled o ns) = settledEarly (thinned o o' ns) := by
  have hfilter : (settled o ns).filter (!·.isPruned o') = solid (thinned o o' ns) := by
    rw [settled, solid, thinned, List.filter_filter, List.filter_filter]
    simp only [Bool.and_comm]
  rw [settledEarly, ← hfilter]
  rfl

end Node

namespace Fragment

open Node (settledEarly settledLate thinned)

variable {o o' : Options}

theorem normal_eq_map (h : o.ignoredTags ⊆ o'.ignoredTags) (f : Fragment) :
    f.normal o' = (settledLate (thinned o o' f)).map (Node.normal o') := by
  rw [normal, Node.settled_normals, Node.normals_eq_map, Node.settled_eq_settledLate h]

theorem normal_normal_eq_map (o o' : Options) (f : Fragment) :
    (f.normal o).normal o' =
      (settledEarly (thinned o o' f)).map fun n => Node.normal o' (Node.normal o n) := by
  rw [normal, normal, Node.settled_normals, Node.settled_normals o, Node.settled_normals o,
    Node.settled_settled_eq_settledEarly, Node.normals_eq_map, Node.normals_eq_map, List.map_map]
  rfl

end Fragment

namespace Node

variable {o o' : Options}

mutual

-- The node with all texts at any depth without blanks of markup.
def unblanked : Node → Node
  | element tag attrs children => element tag attrs (unblankedAll children)
  | text s => text (unblankedText s)
  | comment s => comment s

def unblankedAll : List Node → List Node
  | [] => []
  | n :: ns => unblanked n :: unblankedAll ns

end

theorem unblankedAll_eq_map (ns : List Node) : unblankedAll ns = ns.map unblanked := by
  induction ns with
  | nil => rfl
  | cons n ns ih => rw [unblankedAll, ih, List.map_cons]

theorem mem_of_mem_thinned {n : Node} {ns : List Node} (h : n ∈ thinned o o' ns)
    (hn : ¬IsText n) : n ∈ ns ∧ n.isPruned o = false ∧ n.isPruned o' = false := by
  obtain ⟨hmem, hkept'⟩ := List.mem_filter.mp h
  obtain ⟨hmem, hkept⟩ := List.mem_filter.mp ((mem_mergeTexts hn).mp hmem)
  exact ⟨hmem, by simpa using hkept, by simpa using hkept'⟩

theorem normal_element_eq (o : Options) (tag : String) (attrs : List Attr) (children : List Node) :
    normal o (element tag attrs children) =
      element tag (Attr.sorted attrs) (Fragment.normal o children) := rfl

theorem unblankedAll_normal_normal_of (h : o.ignoredTags ⊆ o'.ignoredTags) (ns : List Node)
    (hns : ∀ n ∈ ns, (normal o' (normal o n)).unblanked = (normal o' n).unblanked) :
    unblankedAll (Fragment.normal o' (Fragment.normal o ns)) =
      unblankedAll (Fragment.normal o' ns) := by
  rw [Fragment.normal_normal_eq_map, Fragment.normal_eq_map h, unblankedAll_eq_map,
    unblankedAll_eq_map, List.map_map, List.map_map]
  exact map_settledEarly_eq (fun _ => rfl) (fun _ => rfl) _ fun n hmem hn =>
    hns n (mem_of_mem_thinned hmem hn).1

mutual

-- Ignoring less before makes no difference but for blanks.
theorem unblanked_normal_normal (h : o.ignoredTags ⊆ o'.ignoredTags) (n : Node) :
    (normal o' (normal o n)).unblanked = (normal o' n).unblanked := by
  match n with
  | text s => rfl
  | comment s => rfl
  | element tag attrs children =>
    have hchildren := unblankedAll_normal_normal_of h children
      (forall_unblanked_normal_normal h children)
    rw [normal_element_eq, normal_element_eq, normal_element_eq, unblanked, unblanked, hchildren,
      Attr.sorted_sorted]

theorem forall_unblanked_normal_normal (h : o.ignoredTags ⊆ o'.ignoredTags) (ns : List Node) :
    ∀ n ∈ ns, (normal o' (normal o n)).unblanked = (normal o' n).unblanked := by
  match ns with
  | [] => exact fun n hn => absurd hn List.not_mem_nil
  | n :: ns =>
    exact List.forall_mem_cons.mpr
      ⟨unblanked_normal_normal h n, forall_unblanked_normal_normal h ns⟩

end

end Node

theorem Fragment.unblankedAll_normal_normal {o o' : Options}
    (h : o.ignoredTags ⊆ o'.ignoredTags) (f : Fragment) :
    Node.unblankedAll ((f.normal o).normal o') = Node.unblankedAll (f.normal o') :=
  Node.unblankedAll_normal_normal_of h f (Node.forall_unblanked_normal_normal h f)

end MarkupDiff
