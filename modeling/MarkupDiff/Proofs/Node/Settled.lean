import MarkupDiff.Node.Normal
import Mathlib.Data.List.Chain

namespace MarkupDiff.Node

def IsText : Node → Prop
  | text _ => True
  | _ => False

-- No two neighbours are texts.
def Apart (ns : List Node) : Prop :=
  ns.IsChain fun a b => ¬(IsText a ∧ IsText b)

theorem isText_iff {n : Node} : IsText n ↔ ∃ s, n = text s := by
  cases n <;> simp [IsText]

@[simp] theorem isText_text (s : String) : IsText (text s) := trivial

@[simp] theorem not_isText_element (tag : String) (attrs : List Attr) (children : List Node) :
    ¬IsText (element tag attrs children) := id

@[simp] theorem not_isText_comment (s : String) : ¬IsText (comment s) := id

theorem isText_of_isBlankText {n : Node} (h : n.isBlankText = true) : IsText n := by
  cases n <;> simp_all [isBlankText, IsText]

theorem normals_eq_map (o : Options) (ns : List Node) : normals o ns = ns.map (normal o) := by
  induction ns with
  | nil => rfl
  | cons n ns ih => simp [normals, ih]

@[simp] theorem isPruned_normal (o o' : Options) (n : Node) :
    (normal o n).isPruned o' = n.isPruned o' := by
  cases n <;> rfl

@[simp] theorem isText_normal (o : Options) (n : Node) : IsText (normal o n) ↔ IsText n := by
  cases n <;> simp [normal]

theorem filter_normals (o o' : Options) (ns : List Node) :
    (normals o ns).filter (!·.isPruned o') = normals o (ns.filter (!·.isPruned o')) := by
  rw [normals_eq_map, normals_eq_map, List.filter_map]
  simp [Function.comp_def]

@[simp] theorem mergeTexts_nil : mergeTexts [] = [] := rfl

theorem mergeTexts_cons_of_not_isText {n : Node} (h : ¬IsText n) (ns : List Node) :
    mergeTexts (n :: ns) = n :: mergeTexts ns := by
  cases n with
  | text s => exact absurd trivial h
  | element tag attrs children => rfl
  | comment s => rfl

-- Two texts in a row count as one.
theorem mergeTexts_text_text (s t : String) (ns : List Node) :
    mergeTexts (text s :: text t :: ns) = mergeTexts (text (s ++ t) :: ns) := by
  simp only [mergeTexts]
  cases mergeTexts ns with
  | nil => rfl
  | cons n rest => cases n <;> simp [String.append_assoc]

-- What stands in front does not matter for two lists that merge alike.
theorem mergeTexts_append_congr {xs ys : List Node} (h : mergeTexts xs = mergeTexts ys)
    (front : List Node) : mergeTexts (front ++ xs) = mergeTexts (front ++ ys) := by
  induction front with
  | nil => exact h
  | cons n front ih =>
    by_cases hn : IsText n
    · obtain ⟨s, rfl⟩ := isText_iff.mp hn
      simp only [List.cons_append, mergeTexts, ih]
    · rw [List.cons_append, List.cons_append, mergeTexts_cons_of_not_isText hn,
        mergeTexts_cons_of_not_isText hn, ih]

theorem mergeTexts_head_not_isText {ns : List Node} (h : ∀ n ∈ ns.head?, ¬IsText n) :
    ∀ n ∈ (mergeTexts ns).head?, ¬IsText n := by
  cases ns with
  | nil => simp
  | cons n ns =>
    have hn := h n (by simp)
    rw [mergeTexts_cons_of_not_isText hn]
    simpa using hn

theorem mergeTexts_text_cons {ns : List Node} (h : ∀ n ∈ ns.head?, ¬IsText n) (s : String) :
    mergeTexts (text s :: ns) = text s :: mergeTexts ns := by
  have hhead := mergeTexts_head_not_isText h
  rw [mergeTexts]
  split
  · rename_i t rest heq
    exact absurd (isText_text t) (hhead _ (by simp [heq]))
  · rfl

-- Lists that do not meet in two texts are merged one by one.
theorem mergeTexts_append_of_head {xs ys : List Node} (h : ∀ n ∈ ys.head?, ¬IsText n) :
    mergeTexts (xs ++ ys) = mergeTexts xs ++ mergeTexts ys := by
  induction xs with
  | nil => rfl
  | cons n xs ih =>
    by_cases hn : IsText n
    · obtain ⟨s, rfl⟩ := isText_iff.mp hn
      have hhead := mergeTexts_head_not_isText h
      simp only [List.cons_append, mergeTexts, ih]
      cases hxs : mergeTexts xs with
      | nil =>
        cases hys : mergeTexts ys with
        | nil => rfl
        | cons m ms =>
          have hm := hhead m (by simp [hys])
          cases m with
          | text t => exact absurd trivial hm
          | element tag attrs children => rfl
          | comment t => rfl
      | cons m ms => cases m <;> rfl
    · rw [List.cons_append, mergeTexts_cons_of_not_isText hn, mergeTexts_cons_of_not_isText hn, ih,
        List.cons_append]

theorem mergeTexts_append_of_last {xs : List Node} (h : ∀ n ∈ xs.getLast?, ¬IsText n)
    (ys : List Node) : mergeTexts (xs ++ ys) = mergeTexts xs ++ mergeTexts ys := by
  induction xs using List.reverseRecOn with
  | nil => rfl
  | append_singleton xs n _ =>
    have hn := h n (by simp)
    have hsplit : ∀ zs, mergeTexts (xs ++ n :: zs) = mergeTexts xs ++ n :: mergeTexts zs := by
      intro zs
      rw [mergeTexts_append_of_head (by simpa using hn), mergeTexts_cons_of_not_isText hn]
    rw [List.append_assoc, List.singleton_append, hsplit, hsplit, mergeTexts_nil,
      List.append_assoc, List.singleton_append]

theorem apart_mergeTexts (ns : List Node) : Apart (mergeTexts ns) := by
  induction ns with
  | nil => exact List.isChain_nil
  | cons n ns ih =>
    by_cases hn : IsText n
    · obtain ⟨s, rfl⟩ := isText_iff.mp hn
      rw [mergeTexts]
      split
      · rename_i t rest heq
        rw [heq] at ih
        exact List.isChain_cons.mpr ⟨fun m hm h => (List.isChain_cons.mp ih).1 m hm ⟨trivial, h.2⟩,
          (List.isChain_cons.mp ih).2⟩
      · rename_i hne
        refine List.isChain_cons.mpr ⟨fun m hm h => ?_, ih⟩
        obtain ⟨t, rfl⟩ := isText_iff.mp h.2
        obtain ⟨rest, hrest⟩ := List.head?_eq_some_iff.mp hm
        exact hne t rest hrest
    · rw [mergeTexts_cons_of_not_isText hn]
      exact List.isChain_cons.mpr ⟨fun m _ h => hn h.1, ih⟩

-- Merging makes new texts only, and drops nothing but texts.
theorem mem_mergeTexts {n : Node} (hn : ¬IsText n) {ns : List Node} :
    n ∈ mergeTexts ns ↔ n ∈ ns := by
  induction ns with
  | nil => simp
  | cons m ns ih =>
    by_cases hm : IsText m
    · obtain ⟨s, rfl⟩ := isText_iff.mp hm
      have hne : ∀ t, n ≠ text t := fun t h => hn (h ▸ isText_text t)
      rw [mergeTexts]
      split
      · rename_i t rest heq
        rw [heq] at ih
        simpa [hne] using ih
      · simpa [hne] using ih
    · rw [mergeTexts_cons_of_not_isText hm, List.mem_cons, List.mem_cons, ih]

-- What settles is a text or one of the nodes that count.
theorem mem_settled {o : Options} {n : Node} {ns : List Node} (h : n ∈ settled o ns) :
    n.isBlankText = false ∧ (IsText n ∨ n ∈ ns ∧ n.isPruned o = false) := by
  obtain ⟨hmem, hblank⟩ := List.mem_filter.mp h
  refine ⟨by simpa using hblank, ?_⟩
  by_cases hn : IsText n
  · exact Or.inl hn
  · have := List.mem_filter.mp ((mem_mergeTexts hn).mp hmem)
    exact Or.inr ⟨this.1, by simpa using this.2⟩

-- The node stands among these nodes or at any depth below them.
inductive Below (m : Node) : List Node → Prop
  | here {ns : List Node} (hm : m ∈ ns) : Below m ns
  | inside {ns children : List Node} {tag : String} {attrs : List Attr}
      (hn : element tag attrs children ∈ ns) (hm : Below m children) : Below m ns

@[simp] theorem not_below_nil (m : Node) : ¬Below m [] := by
  rintro (hm | ⟨hn, _⟩) <;> contradiction

theorem below_cons {m n : Node} {ns : List Node} :
    Below m (n :: ns) ↔ m = n ∨ (∃ tag attrs children, n = element tag attrs children ∧
      Below m children) ∨ Below m ns := by
  constructor
  · rintro (hm | ⟨hn, hm⟩)
    · exact (List.mem_cons.mp hm).imp_right fun hm => .inr (.here hm)
    · rcases List.mem_cons.mp hn with heq | hn
      · exact .inr (.inl ⟨_, _, _, heq.symm, hm⟩)
      · exact .inr (.inr (.inside hn hm))
  · rintro (rfl | ⟨_, _, _, rfl, hm⟩ | hm | ⟨hn, hm⟩)
    · exact .here List.mem_cons_self
    · exact .inside List.mem_cons_self hm
    · exact .here (List.mem_cons_of_mem _ hm)
    · exact .inside (List.mem_cons_of_mem _ hn) hm

@[simp] theorem below_element_cons {m : Node} {tag : String} {attrs : List Attr}
    {children ns : List Node} : Below m (element tag attrs children :: ns) ↔
      m = element tag attrs children ∨ Below m children ∨ Below m ns := by
  simp [below_cons]

@[simp] theorem below_text_cons {m : Node} {s : String} {ns : List Node} :
    Below m (text s :: ns) ↔ m = text s ∨ Below m ns := by
  simp [below_cons]

@[simp] theorem below_comment_cons {m : Node} {s : String} {ns : List Node} :
    Below m (comment s :: ns) ↔ m = comment s ∨ Below m ns := by
  simp [below_cons]

theorem element_mem_settled {o : Options} {ns : List Node} {tag : String} {attrs : List Attr}
    {children : List Node} (h : element tag attrs children ∈ settled o (normals o ns)) :
    ∃ as cs, element tag as cs ∈ ns ∧ attrs = Attr.sorted as ∧
      children = settled o (normals o cs) := by
  rcases (mem_settled h).2 with ht | ⟨hmem, _⟩
  · exact absurd ht not_false
  · rw [normals_eq_map] at hmem
    obtain ⟨n, hn, heq⟩ := List.mem_map.mp hmem
    cases n with
    | element t as cs =>
      rw [normal] at heq
      obtain ⟨rfl, rfl, rfl⟩ := Node.element.inj heq
      exact ⟨as, cs, hn, rfl, rfl⟩
    | text s => exact Node.noConfusion heq
    | comment s => exact Node.noConfusion heq

-- Whatever is left at any depth of a normal form counts.
theorem below_settled {o : Options} {m : Node} {ns : List Node}
    (h : Below m (settled o (normals o ns))) : m.isPruned o = false ∧ m.isBlankText = false := by
  generalize hms : settled o (normals o ns) = ms at h
  induction h generalizing ns with
  | here hm =>
    subst hms
    obtain ⟨hblank, ht | ⟨_, hpruned⟩⟩ := mem_settled hm
    · obtain ⟨s, rfl⟩ := isText_iff.mp ht
      exact ⟨rfl, hblank⟩
    · exact ⟨hpruned, hblank⟩
  | inside hn _ ih =>
    subst hms
    obtain ⟨as, cs, _, _, hcs⟩ := element_mem_settled hn
    exact ih hcs.symm

-- The elements of a normal form were there before, and their attributes have been sorted.
theorem exists_below_of_settled {o : Options} {ns : List Node} {tag : String} {attrs : List Attr}
    {children : List Node} (h : Below (element tag attrs children) (settled o (normals o ns))) :
    ∃ as cs, Below (element tag as cs) ns ∧ attrs = Attr.sorted as := by
  generalize hms : settled o (normals o ns) = ms at h
  induction h generalizing ns with
  | here hm =>
    subst hms
    obtain ⟨as, cs, hmem, hattrs, _⟩ := element_mem_settled hm
    exact ⟨as, cs, .here hmem, hattrs⟩
  | inside hn _ ih =>
    subst hms
    obtain ⟨as, cs, hmem, _, hcs⟩ := element_mem_settled hn
    obtain ⟨as', cs', hbelow, hattrs⟩ := ih hcs.symm
    exact ⟨as', cs', .inside hmem hbelow, hattrs⟩

-- A normal form has no tags but those that were there before.
theorem below_of_below_settled {o : Options} {ns : List Node} {tag : String} {attrs : List Attr}
    {children : List Node} (h : Below (element tag attrs children) (settled o (normals o ns))) :
    ∃ as cs, Below (element tag as cs) ns :=
  (exists_below_of_settled h).imp fun _ => Exists.imp fun _ => And.left

end MarkupDiff.Node
