import MarkupDiff.Proofs.Node.Sameness

namespace MarkupDiff

-- Attributes in the order of their names, and the words of each class value in ascending order with
-- one space between neighbours.
structure Attr.InOrder (attrs : List Attr) : Prop where
  names : attrs.Pairwise fun a b => a.name ≤ b.name
  words : ∀ a ∈ attrs, a.name = "class" →
    (wordsOf a.value).Pairwise (· ≤ ·) ∧ a.value = " ".intercalate (wordsOf a.value)

-- Siblings of which none is ignored, no two neighbours are texts, and each text holds more than
-- blanks of markup.
structure Node.InOrder (tags : List String) (ns : List Node) : Prop where
  kept : ∀ n ∈ ns, ¬Ignored tags n
  apart : Apart ns
  solid : ∀ s, text s ∈ ns → ∃ c ∈ s.toList, Text.isMarkupBlank c = false

-- A fragment in normal form: siblings at every depth and the attributes of every element are in
-- order.
structure Fragment.IsNormal (tags : List String) (f : Fragment) : Prop where
  siblings : Node.InOrder tags f
  inside : ∀ tag attrs children, Node.Below (.element tag attrs children) f →
    Attr.InOrder attrs ∧ Node.InOrder tags children

namespace Attr

theorem inOrder_sorted (attrs : List Attr) : InOrder (sorted attrs) := by
  constructor
  · rw [sorted_eq_mergeSort]
    exact (List.pairwise_mergeSort nameLe_trans nameLe_total _).imp textLe_iff.mp
  · intro a ha hclass
    obtain ⟨b, _, rfl⟩ := List.mem_map.mp ha
    obtain ⟨name, v⟩ := b
    obtain rfl : name = "class" := by simpa using hclass
    rw [canonical_class, wordsOf_classValue]
    exact ⟨(List.pairwise_mergeSort textLe_trans textLe_total _).imp textLe_iff.mp, rfl⟩

theorem canonical_of_inOrder {attrs : List Attr} (h : InOrder attrs) {a : Attr} (ha : a ∈ attrs) :
    a.canonical = a := by
  by_cases hclass : a.name = "class"
  · obtain ⟨hwords, hvalue⟩ := h.words a ha hclass
    obtain ⟨name, v⟩ := a
    obtain rfl : name = "class" := hclass
    have hsorted : (wordsOf v).mergeSort textLe = wordsOf v :=
      List.mergeSort_of_pairwise (hwords.imp textLe_iff.mpr)
    rw [canonical_class, classValue, hsorted, ← hvalue]
  · simp [canonical, hclass]

theorem sorted_of_inOrder {attrs : List Attr} (h : InOrder attrs) : sorted attrs = attrs := by
  have hcanonical : attrs.map canonical = attrs := by
    rw [List.map_congr_left (g := id), List.map_id]
    exact fun a ha => canonical_of_inOrder h ha
  rw [sorted_eq_mergeSort, hcanonical]
  exact List.mergeSort_of_pairwise (h.names.imp textLe_iff.mpr)

end Attr

namespace Node

variable {o : Options} {tags : List String} {ns : List Node}

theorem isBlankText_eq_false_iff {s : String} :
    (text s).isBlankText = false ↔ ∃ c ∈ s.toList, Text.isMarkupBlank c = false := by
  simp [isBlankText]

-- Texts that stand apart still do so without the blank ones among them.
theorem apart_filter_blank (h : Apart ns) : Apart (ns.filter (!·.isBlankText)) := by
  induction ns with
  | nil => exact h
  | cons n ns ih =>
    obtain ⟨hhead, htail⟩ := List.isChain_cons.mp h
    by_cases hn : n.isBlankText = true
    · simpa [hn] using ih htail
    · rw [List.filter_cons_of_pos (by simpa using hn)]
      refine List.isChain_cons.mpr ⟨fun m hm hboth => ?_, ih htail⟩
      -- what stands after a text is no text, so it stays where it is
      cases ns with
      | nil => simp at hm
      | cons k ns =>
        have hk : ¬IsText k := fun ht => hhead k (by simp) ⟨hboth.1, ht⟩
        have hsolid : ¬k.isBlankText = true := fun hblank => hk (isText_of_isBlankText hblank)
        rw [List.filter_cons_of_pos (by simpa using hsolid)] at hm
        obtain rfl := Option.some.inj hm
        exact hk hboth.2

theorem mergeTexts_of_apart (h : Apart ns) : mergeTexts ns = ns := by
  induction ns with
  | nil => rfl
  | cons n ns ih =>
    obtain ⟨hhead, htail⟩ := List.isChain_cons.mp h
    by_cases hn : IsText n
    · obtain ⟨s, rfl⟩ := isText_iff.mp hn
      rw [mergeTexts_text_cons fun m hm ht => hhead m hm ⟨hn, ht⟩, ih htail]
    · rw [mergeTexts_cons_of_not_isText hn, ih htail]

theorem mergeTexts_cons_cons {m n : Node} (h : ¬(IsText m ∧ IsText n)) (ns : List Node) :
    mergeTexts (m :: n :: ns) = m :: mergeTexts (n :: ns) := by
  by_cases hm : IsText m
  · obtain ⟨s, rfl⟩ := isText_iff.mp hm
    refine mergeTexts_text_cons (fun k hk hkt => h ⟨hm, ?_⟩) s
    obtain rfl := Option.some.inj hk
    exact hkt
  · exact mergeTexts_cons_of_not_isText hm _

@[simp] theorem isBlankText_normal (o : Options) (n : Node) :
    (normal o n).isBlankText = n.isBlankText := by
  cases n <;> rfl

theorem filter_blank_normals (ns : List Node) :
    (normals o ns).filter (!·.isBlankText) = normals o (ns.filter (!·.isBlankText)) := by
  rw [normals_eq_map, normals_eq_map, List.filter_map]
  simp [Function.comp_def]

theorem mergeTexts_normals (ns : List Node) :
    mergeTexts (normals o ns) = normals o (mergeTexts ns) := by
  induction ns with
  | nil => rfl
  | cons n ns ih =>
    by_cases hn : IsText n
    · obtain ⟨s, rfl⟩ := isText_iff.mp hn
      have htext : normal o (text s) = text s := rfl
      rw [normals, htext, mergeTexts, mergeTexts, ih]
      cases mergeTexts ns with
      | nil => rfl
      | cons m ms => cases m <;> rfl
    · rw [normals, mergeTexts_cons_of_not_isText hn, normals, ← ih]
      exact mergeTexts_cons_of_not_isText (mt (isText_normal o n).mp hn) _

-- Siblings can be settled before each of them is brought into normal form, also for other options.
theorem settled_normals (o o' : Options) (ns : List Node) :
    settled o' (normals o ns) = normals o (settled o' ns) := by
  rw [settled, filter_normals, mergeTexts_normals, filter_blank_normals, settled]

theorem inOrder_settled (o : Options) (ns : List Node) :
    InOrder o.prunedTags (settled o ns) := by
  refine ⟨fun n hn => ?_, apart_filter_blank (apart_mergeTexts _), fun s hs => ?_⟩
  · rw [← isPruned_iff]
    rcases (mem_settled hn).2 with ht | ⟨_, hkept⟩
    · obtain ⟨s, rfl⟩ := isText_iff.mp ht
      exact Bool.false_ne_true
    · exact Bool.eq_false_iff.mp hkept
  · exact isBlankText_eq_false_iff.mp (mem_settled hs).1

theorem settled_of_inOrder (h : InOrder o.prunedTags ns) : settled o ns = ns := by
  have hkept : ns.filter (!·.isPruned o) = ns := by
    refine List.filter_eq_self.mpr fun n hn => ?_
    simpa [← isPruned_iff] using h.kept n hn
  have hsolid : ns.filter (!·.isBlankText) = ns := by
    refine List.filter_eq_self.mpr fun n hn => ?_
    cases n with
    | text s => simpa using isBlankText_eq_false_iff.mpr (h.solid s hn)
    | element tag attrs children => rfl
    | comment s => rfl
  rw [settled, hkept, mergeTexts_of_apart h.apart, hsolid]

-- Every element of a normal form has sorted attributes and settled children.
theorem exists_of_below_settled {tag : String} {attrs : List Attr} {children : List Node}
    (h : Below (element tag attrs children) (settled o (normals o ns))) :
    ∃ as cs, attrs = Attr.sorted as ∧ children = settled o (normals o cs) := by
  generalize hms : settled o (normals o ns) = ms at h
  induction h generalizing ns with
  | here hm =>
    subst hms
    rcases (mem_settled hm).2 with ht | ⟨hmem, _⟩
    · exact absurd ht (not_isText_element tag attrs children)
    · rw [normals_eq_map] at hmem
      obtain ⟨n, _, heq⟩ := List.mem_map.mp hmem
      cases n with
      | element t as cs =>
        obtain ⟨-, rfl, rfl⟩ := Node.element.inj heq
        exact ⟨as, cs, rfl, rfl⟩
      | text s => exact Node.noConfusion heq
      | comment s => exact Node.noConfusion heq
  | inside hn _ ih =>
    subst hms
    obtain ⟨as, cs, _, _, hcs⟩ := element_mem_settled hn
    exact ih hcs.symm

theorem Below.mono {n : Node} {ms : List Node} (h : Below n ms) (hsub : ms ⊆ ns) : Below n ns := by
  cases h with
  | here hm => exact .here (hsub hm)
  | inside hn hm => exact .inside (hsub hn) hm

mutual

theorem normal_of_inOrder (n : Node)
    (h : ∀ tag attrs children, Below (element tag attrs children) [n] →
      Attr.InOrder attrs ∧ InOrder o.prunedTags children) : normal o n = n := by
  cases n with
  | element tag attrs children =>
    obtain ⟨hattrs, hchildren⟩ := h tag attrs children (.here List.mem_cons_self)
    have hinside := normals_of_inOrder children fun tag attrs children hbelow =>
      h tag attrs children (.inside List.mem_cons_self hbelow)
    rw [normal, Attr.sorted_of_inOrder hattrs, hinside, settled_of_inOrder hchildren]
  | text s => rfl
  | comment s => rfl

theorem normals_of_inOrder (ns : List Node)
    (h : ∀ tag attrs children, Below (element tag attrs children) ns →
      Attr.InOrder attrs ∧ InOrder o.prunedTags children) : normals o ns = ns := by
  cases ns with
  | nil => rfl
  | cons n ns =>
    have hhead := normal_of_inOrder n fun tag attrs children hbelow =>
      h tag attrs children (hbelow.mono (by simp))
    have htail := normals_of_inOrder ns fun tag attrs children hbelow =>
      h tag attrs children (hbelow.mono (by simp))
    rw [normals, hhead, htail]

end

theorem below_normal_inOrder {n : Node} {tag : String} {attrs : List Attr} {children : List Node}
    (h : Below (element tag attrs children) [normal o n]) :
    Attr.InOrder attrs ∧ InOrder o.prunedTags children := by
  have hsettled : ∀ cs, Below (element tag attrs children) (settled o (normals o cs)) →
      Attr.InOrder attrs ∧ InOrder o.prunedTags children := by
    intro cs hbelow
    obtain ⟨as, ds, rfl, rfl⟩ := exists_of_below_settled hbelow
    exact ⟨Attr.inOrder_sorted as, inOrder_settled o _⟩
  cases n with
  | element t as cs =>
    rcases below_element_cons.mp h with heq | hm | hm
    · obtain ⟨-, rfl, rfl⟩ := Node.element.inj heq
      exact ⟨Attr.inOrder_sorted as, inOrder_settled o _⟩
    · exact hsettled cs hm
    · exact absurd hm (not_below_nil _)
  | text s => simp [normal] at h
  | comment s => simp [normal] at h

theorem InOrder.mono {tags' : List String} (h : InOrder tags ns) (hsub : tags' ⊆ tags) :
    InOrder tags' ns :=
  ⟨fun n hn hignored => h.kept n hn (hignored.mono hsub), h.apart, h.solid⟩

end Node

namespace Fragment

variable {o : Options} {f : Fragment}

theorem isNormal_normal (o : Options) (f : Fragment) : (f.normal o).IsNormal o.prunedTags := by
  refine ⟨Node.inOrder_settled o _, fun tag attrs children hbelow => ?_⟩
  obtain ⟨as, cs, rfl, rfl⟩ := Node.exists_of_below_settled hbelow
  exact ⟨Attr.inOrder_sorted as, Node.inOrder_settled o _⟩

-- The fragments that stay as they are are those in normal form.
theorem normal_eq_self_iff : f.normal o = f ↔ f.IsNormal o.prunedTags := by
  constructor
  · intro h
    exact h ▸ isNormal_normal o f
  · intro h
    rw [normal, Node.normals_of_inOrder f h.inside, Node.settled_of_inOrder h.siblings]

theorem IsNormal.mono {tags tags' : List String} (h : f.IsNormal tags) (hsub : tags' ⊆ tags) :
    f.IsNormal tags' :=
  ⟨h.siblings.mono hsub, fun tag attrs children hbelow =>
    ⟨(h.inside tag attrs children hbelow).1, (h.inside tag attrs children hbelow).2.mono hsub⟩⟩

end Fragment

end MarkupDiff
