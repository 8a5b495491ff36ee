import MarkupDiff.Proofs.Node.AttributeOrder
import MarkupDiff.Proofs.Node.Settled

namespace MarkupDiff

-- The tags whose elements do not count: those that never do, and those of the options.
def Options.prunedTags (o : Options) : List String :=
  alwaysIgnored ++ o.ignoredTags

theorem Options.prunedTags_subset {o o' : Options} (h : o'.ignoredTags ⊆ o.ignoredTags) :
    o'.prunedTags ⊆ o.prunedTags :=
  List.append_subset.mpr ⟨List.subset_append_left _ _, fun _ ht =>
    List.mem_append_right _ (h ht)⟩

namespace Node

-- A comment, or an element whose tag is in lower case one of the tags.
inductive Ignored (tags : List String) : Node → Prop
  | comment (content : String) : Ignored tags (comment content)
  | element (tag : String) (attrs : List Attr) (children : List Node) (htag : lowered tag ∈ tags) :
      Ignored tags (element tag attrs children)

theorem Ignored.mono {tags tags' : List String} {n : Node} (h : Ignored tags n)
    (hsub : tags ⊆ tags') : Ignored tags' n := by
  cases h with
  | comment s => exact .comment s
  | element tag attrs children htag => exact .element tag attrs children (hsub htag)

-- Of these siblings, nearest first, the first one that counts is no text, if there is one.
def NoTextNearest (tags : List String) (siblings : List Node) : Prop :=
  ∀ passed n rest, siblings = passed ++ n :: rest → (∀ m ∈ passed, Ignored tags m) →
    ¬Ignored tags n → ¬IsText n

-- One step that keeps the meaning of siblings, or of something at any depth below them.
inductive Move (tags : List String) : List Node → List Node → Prop
  -- a comment or an ignored element goes, with everything in it
  | ignored (before after : List Node) {n : Node} (hn : Ignored tags n) :
      Move tags (before ++ n :: after) (before ++ after)
  -- two texts in a row become one
  | joined (before after : List Node) (s t : String) :
      Move tags (before ++ text s :: text t :: after) (before ++ text (s ++ t) :: after)
  -- a text of markup blanks goes where no text is next to it
  | blank (before after : List Node) {s : String}
      (hs : ∀ c ∈ s.toList, Text.isMarkupBlank c = true)
      (hbefore : NoTextNearest tags before.reverse) (hafter : NoTextNearest tags after) :
      Move tags (before ++ text s :: after) (before ++ after)
  -- attributes are written another way
  | attrs (before after : List Node) (tag : String) {as bs : List Attr} (children : List Node)
      (hattrs : Attr.Move as bs) :
      Move tags (before ++ element tag as children :: after)
        (before ++ element tag bs children :: after)
  | inside (before after : List Node) (tag : String) (as : List Attr) {cs ds : List Node}
      (hinside : Move tags cs ds) :
      Move tags (before ++ element tag as cs :: after) (before ++ element tag as ds :: after)

end Node

-- Fragments that mean the same: the least equivalence that every move keeps.
def Fragment.Same (tags : List String) : Fragment → Fragment → Prop :=
  Relation.EqvGen (Node.Move tags)

namespace Fragment.Same

variable {tags : List String} {f g h : Fragment}

theorem of_move (hmove : Node.Move tags f g) : Same tags f g :=
  Relation.EqvGen.rel _ _ hmove

theorem refl (tags : List String) (f : Fragment) : Same tags f f :=
  Relation.EqvGen.refl f

theorem symm (hs : Same tags f g) : Same tags g f :=
  Relation.EqvGen.symm _ _ hs

theorem trans (h₁ : Same tags f g) (h₂ : Same tags g h) : Same tags f h :=
  Relation.EqvGen.trans _ _ _ h₁ h₂

-- What means the same below an element makes no difference beside it.
theorem inside (hs : Same tags f g) (before after : List Node) (tag : String) (as : List Attr) :
    Same tags (before ++ .element tag as f :: after) (before ++ .element tag as g :: after) := by
  induction hs with
  | rel _ _ hmove => exact of_move (.inside before after tag as hmove)
  | refl _ => exact refl tags _
  | symm _ _ _ ih => exact ih.symm
  | trans _ _ _ _ _ ih₁ ih₂ => exact ih₁.trans ih₂

theorem attrs {as bs : List Attr} (hs : Attr.Same as bs) (before after : List Node) (tag : String)
    (children : List Node) :
    Same tags (before ++ .element tag as children :: after)
      (before ++ .element tag bs children :: after) := by
  induction hs with
  | rel _ _ hmove => exact of_move (.attrs before after tag children hmove)
  | refl _ => exact refl tags _
  | symm _ _ _ ih => exact ih.symm
  | trans _ _ _ _ _ ih₁ ih₂ => exact ih₁.trans ih₂

end Fragment.Same

namespace Node

variable {o : Options}

theorem isPruned_iff {n : Node} : n.isPruned o = true ↔ Ignored o.prunedTags n := by
  constructor
  · intro h
    cases n with
    | text s => simp [isPruned] at h
    | comment s => exact .comment s
    | element tag attrs children =>
      refine .element tag attrs children ?_
      simpa [isPruned, Options.prunes, Options.prunedTags] using h
  · intro h
    cases h with
    | comment s => rfl
    | element tag attrs children htag =>
      simpa [isPruned, Options.prunes, Options.prunedTags] using htag

theorem noTextNearest_iff {ns : List Node} :
    NoTextNearest o.prunedTags ns ↔ ∀ n ∈ (ns.filter (!·.isPruned o)).head?, ¬IsText n := by
  constructor
  · intro h n hn
    rw [List.head?_filter] at hn
    obtain ⟨hkept, passed, rest, rfl, hpassed⟩ := List.find?_eq_some_iff_append.mp hn
    apply h passed n rest rfl
    · intro m hm
      exact isPruned_iff.mp (by simpa using hpassed m hm)
    · intro hignored
      simp [isPruned_iff.mpr hignored] at hkept
  · intro h passed n rest heq hpassed hn
    apply h n
    rw [List.head?_filter, heq]
    refine List.find?_eq_some_iff_append.mpr ⟨?_, passed, rest, rfl, ?_⟩
    · simpa using mt isPruned_iff.mp hn
    · intro m hm
      simpa using isPruned_iff.mpr (hpassed m hm)

-- The kept children of a list whose children are brought into normal form.
def keptNormals (o : Options) (ns : List Node) : List Node :=
  normals o (ns.filter (!·.isPruned o))

theorem keptNormals_append (ms ns : List Node) :
    keptNormals o (ms ++ ns) = keptNormals o ms ++ keptNormals o ns := by
  simp [keptNormals, normals_eq_map]

theorem keptNormals_cons_of_pruned {n : Node} (h : n.isPruned o = true) (ns : List Node) :
    keptNormals o (n :: ns) = keptNormals o ns := by
  simp [keptNormals, h]

theorem keptNormals_text (s : String) (ns : List Node) :
    keptNormals o (text s :: ns) = text s :: keptNormals o ns := by
  simp [keptNormals, isPruned, normals, normal]

theorem settled_normals_eq (ns : List Node) :
    settled o (normals o ns) = (mergeTexts (keptNormals o ns)).filter (!·.isBlankText) := by
  rw [settled, filter_normals, keptNormals]

theorem keptNormals_head_not_isText {ns : List Node} (h : NoTextNearest o.prunedTags ns) :
    ∀ n ∈ (keptNormals o ns).head?, ¬IsText n := by
  intro n hn
  simp only [keptNormals, normals_eq_map, List.head?_map, Option.mem_def,
    Option.map_eq_some_iff] at hn
  obtain ⟨m, hm, rfl⟩ := hn
  simpa using noTextNearest_iff.mp h m hm

theorem keptNormals_last_not_isText {ns : List Node} (h : NoTextNearest o.prunedTags ns.reverse) :
    ∀ n ∈ (keptNormals o ns).getLast?, ¬IsText n := by
  intro n hn
  apply keptNormals_head_not_isText h n
  simpa [keptNormals, normals_eq_map] using hn

-- Blank text that no text stands next to settles to nothing.
theorem settled_blank {before after : List Node} {s : String}
    (hs : ∀ c ∈ s.toList, Text.isMarkupBlank c = true)
    (hbefore : NoTextNearest o.prunedTags before.reverse)
    (hafter : NoTextNearest o.prunedTags after) :
    settled o (normals o (before ++ text s :: after)) =
      settled o (normals o (before ++ after)) := by
  have hblank : (text s).isBlankText = true := List.all_eq_true.mpr hs
  have hlast := keptNormals_last_not_isText hbefore
  have hhead := keptNormals_head_not_isText hafter
  rw [settled_normals_eq, settled_normals_eq, keptNormals_append, keptNormals_append,
    keptNormals_text, mergeTexts_append_of_last hlast, mergeTexts_append_of_last hlast,
    mergeTexts_text_cons hhead]
  simp [hblank]

theorem settled_normals_append_congr {m n : Node} (h : normal o m = normal o n)
    (before after : List Node) :
    settled o (normals o (before ++ m :: after)) =
      settled o (normals o (before ++ n :: after)) := by
  simp [normals_eq_map, h]

-- Each move leaves the normal form as it is.
theorem normal_eq_of_move {f g : Fragment} (h : Move o.prunedTags f g) :
    Fragment.normal o f = Fragment.normal o g := by
  change settled o (normals o f) = settled o (normals o g)
  induction h with
  | ignored before after hn =>
    rw [settled_normals_eq, settled_normals_eq, keptNormals_append, keptNormals_append,
      keptNormals_cons_of_pruned (isPruned_iff.mpr hn)]
  | joined before after s t =>
    rw [settled_normals_eq, settled_normals_eq, keptNormals_append, keptNormals_append]
    simp only [keptNormals_text]
    rw [mergeTexts_append_congr (mergeTexts_text_text s t _)]
  | blank before after hs hbefore hafter => exact settled_blank hs hbefore hafter
  | attrs before after tag children hattrs =>
    apply settled_normals_append_congr
    simp only [normal, Attr.sorted_eq_of_move hattrs]
  | inside before after tag as hinside ih =>
    apply settled_normals_append_congr
    simp only [normal, ih]

theorem same_filter (ns before : List Node) :
    Fragment.Same o.prunedTags (before ++ ns) (before ++ ns.filter (!·.isPruned o)) := by
  induction ns generalizing before with
  | nil => exact .refl _ _
  | cons n ns ih =>
    by_cases hn : n.isPruned o = true
    · have hgone := Fragment.Same.of_move (Move.ignored before ns (isPruned_iff.mp hn))
      simpa [hn] using hgone.trans (ih before)
    · simpa [hn] using ih (before ++ [n])

theorem same_mergeTexts (tags : List String) (ns before : List Node) :
    Fragment.Same tags (before ++ ns) (before ++ mergeTexts ns) := by
  induction ns generalizing before with
  | nil => exact .refl _ _
  | cons n ns ih =>
    have htail : Fragment.Same tags (before ++ n :: ns) (before ++ n :: mergeTexts ns) := by
      simpa using ih (before ++ [n])
    by_cases hn : IsText n
    · obtain ⟨s, rfl⟩ := isText_iff.mp hn
      rw [mergeTexts]
      split
      · rename_i t rest heq
        rw [heq] at htail
        exact htail.trans (.of_move (.joined before rest s t))
      · exact htail
    · rwa [mergeTexts_cons_of_not_isText hn]

-- The nearest sibling is the one next to it where no sibling is ignored.
theorem noTextNearest_of_head {ns : List Node} (hkept : ∀ n ∈ ns, n.isPruned o = false)
    (h : ∀ n ∈ ns.head?, ¬IsText n) : NoTextNearest o.prunedTags ns := by
  rw [noTextNearest_iff, List.filter_eq_self.mpr (by simpa using hkept)]
  exact h

-- Blank texts can all go where no two texts stand next to each other.
theorem same_filter_blank (ns before : List Node)
    (hkept : ∀ n ∈ before ++ ns, n.isPruned o = false) (hapart : Apart (before ++ ns)) :
    Fragment.Same o.prunedTags (before ++ ns) (before ++ ns.filter (!·.isBlankText)) := by
  induction ns generalizing before with
  | nil => exact .refl _ _
  | cons n ns ih =>
    by_cases hn : n.isBlankText = true
    · obtain ⟨s, rfl⟩ := isText_iff.mp (isText_of_isBlankText hn)
      obtain ⟨hfront, hback, hmeet⟩ := List.isChain_append.mp hapart
      have hlast : ∀ m ∈ before.getLast?, ¬IsText m := fun m hm ht =>
        hmeet m hm (text s) (by simp) ⟨ht, trivial⟩
      have hhead : ∀ m ∈ ns.head?, ¬IsText m := fun m hm ht =>
        (List.isChain_cons.mp hback).1 m hm ⟨trivial, ht⟩
      have hgone : Fragment.Same o.prunedTags (before ++ text s :: ns) (before ++ ns) := by
        apply Fragment.Same.of_move
        apply Move.blank before ns (by simpa [isBlankText] using hn)
        · apply noTextNearest_of_head
          · exact fun m hm => hkept m (by simp [List.mem_reverse.mp hm])
          · simpa using hlast
        · exact noTextNearest_of_head (fun m hm => hkept m (by simp [hm])) hhead
      have hrest := ih before (fun m hm => hkept m (by
          rcases List.mem_append.mp hm with h | h <;> simp [h]))
        (List.isChain_append.mpr ⟨hfront, (List.isChain_cons.mp hback).2, fun a ha b hb h =>
          hlast a ha h.1⟩)
      simpa [hn] using hgone.trans hrest
    · simpa [hn] using ih (before ++ [n]) (by simpa using hkept) (by simpa using hapart)

-- Settling keeps the meaning of siblings.
theorem same_settled (ns : List Node) : Fragment.Same o.prunedTags ns (settled o ns) := by
  have hkept : ∀ n ∈ mergeTexts (ns.filter (!·.isPruned o)), n.isPruned o = false := by
    intro n hn
    by_cases ht : IsText n
    · obtain ⟨s, rfl⟩ := isText_iff.mp ht
      rfl
    · simpa using (List.mem_filter.mp ((mem_mergeTexts ht).mp hn)).2
  have hpruned := same_filter (o := o) ns []
  have hmerged := same_mergeTexts o.prunedTags (ns.filter (!·.isPruned o)) []
  have hblank := same_filter_blank (mergeTexts (ns.filter (!·.isPruned o))) [] hkept
    (apart_mergeTexts _)
  exact hpruned.trans (hmerged.trans hblank)

mutual

theorem same_normal_node (n : Node) (before after : List Node) :
    Fragment.Same o.prunedTags (before ++ n :: after) (before ++ normal o n :: after) := by
  match n with
  | text s => exact .refl _ _
  | comment s => exact .refl _ _
  | element tag attrs children =>
    have hattrs : Attr.Same attrs (Attr.sorted attrs) := by
      rw [Attr.same_iff_sorted_eq, Attr.sorted_sorted]
    have hchildren : Fragment.Same o.prunedTags children (settled o (normals o children)) :=
      (same_normal_nodes children []).trans (same_settled _)
    exact (Fragment.Same.attrs hattrs before after tag children).trans
      (hchildren.inside before after tag (Attr.sorted attrs))

theorem same_normal_nodes (ns before : List Node) :
    Fragment.Same o.prunedTags (before ++ ns) (before ++ normals o ns) := by
  match ns with
  | [] => exact .refl _ _
  | n :: ns =>
    have htail := same_normal_nodes ns (before ++ [normal o n])
    exact (same_normal_node n before ns).trans (by simpa [normals] using htail)

end

end Node

namespace Fragment

variable {o : Options}

-- Bringing a fragment into normal form keeps its meaning.
theorem same_normal (f : Fragment) : Same o.prunedTags f (f.normal o) :=
  (Node.same_normal_nodes f []).trans (Node.same_settled _)

-- Fragments mean the same exactly when they have one normal form.
theorem same_iff_normal_eq {f g : Fragment} :
    Same o.prunedTags f g ↔ f.normal o = g.normal o := by
  constructor
  · intro h
    induction h with
    | rel _ _ hmove => exact Node.normal_eq_of_move hmove
    | refl _ => rfl
    | symm _ _ _ ih => exact ih.symm
    | trans _ _ _ _ _ ih₁ ih₂ => exact ih₁.trans ih₂
  · intro h
    exact (same_normal f).trans (h ▸ (same_normal g).symm)

-- What is in normal form stays as it is.
theorem normal_normal (f : Fragment) : (f.normal o).normal o = f.normal o :=
  same_iff_normal_eq.mp (same_normal f).symm

end Fragment

end MarkupDiff
