import MarkupDiff.Proofs.Markup.Building
import MarkupDiff.Proofs.Node.Widening

namespace MarkupDiff

namespace Node

-- Where the second options bring texts of siblings together that the first ones leave apart, blank
-- texts meet blank texts only.
def BlanksApart (o o' : Options) (ns : List Node) : Prop :=
  (thinned o o' ns).IsChain BlankAlike

mutual

-- The same at any depth below a node, but for what the second options ignore.
def BlanksApartBelow (o o' : Options) : Node → Prop
  | element tag _ children => o'.prunes tag = false →
      BlanksApart o o' children ∧ BlanksApartBelowAll o o' children
  | _ => True

def BlanksApartBelowAll (o o' : Options) : List Node → Prop
  | [] => True
  | n :: ns => BlanksApartBelow o o' n ∧ BlanksApartBelowAll o o' ns

end

mutual

-- No text is empty, at any depth, but for what is always ignored.
def Worded : Node → Prop
  | element tag _ children => Options.alwaysIgnored.contains (lowered tag) = false →
      AllWorded children
  | text s => s ≠ ""
  | comment _ => True

def AllWorded : List Node → Prop
  | [] => True
  | n :: ns => Worded n ∧ AllWorded ns

end

theorem allWorded_iff {ns : List Node} : AllWorded ns ↔ ∀ n ∈ ns, n.Worded := by
  induction ns with
  | nil => simp [AllWorded]
  | cons n ns ih => simp [AllWorded, ih]

variable {o o' : Options}

theorem blanksApartBelow_of_isText {n : Node} (h : IsText n) : BlanksApartBelow o o' n := by
  obtain ⟨s, rfl⟩ := isText_iff.mp h
  exact trivial

theorem blanksApartBelow_of_isPruned {n : Node} (h : n.isPruned o' = true) :
    BlanksApartBelow o o' n := by
  cases n with
  | element tag attrs children =>
    exact fun hkept => Bool.noConfusion (hkept.symm.trans (h : o'.prunes tag = true))
  | text s => exact trivial
  | comment s => exact trivial

theorem text_mem_mergeTexts {ns : List Node} (hns : ∀ s, text s ∈ ns → s ≠ "") :
    ∀ s, text s ∈ mergeTexts ns → s ≠ "" := by
  induction ns with
  | nil => exact hns
  | cons n ns ih =>
    have hrest := ih fun s hs => hns s (List.mem_cons_of_mem _ hs)
    by_cases hn : IsText n
    · obtain ⟨u, rfl⟩ := isText_iff.mp hn
      have hu := hns u List.mem_cons_self
      intro s hs
      rw [mergeTexts] at hs
      split at hs
      · rename_i t rest heq
        rcases List.mem_cons.mp hs with hs | hs
        · rw [Node.text.inj hs]
          simp [hu]
        · exact hrest s (heq ▸ List.mem_cons_of_mem _ hs)
      · rcases List.mem_cons.mp hs with hs | hs
        · rwa [Node.text.inj hs]
        · exact hrest s hs
    · intro s hs
      rw [mergeTexts_cons_of_not_isText hn] at hs
      rcases List.mem_cons.mp hs with hs | hs
      · exact absurd (hs ▸ isText_text s) hn
      · exact hrest s hs

theorem text_mem_thinned {ns : List Node} (hns : AllWorded ns) :
    ∀ s, text s ∈ thinned o o' ns → s ≠ "" := by
  intro s hs
  apply text_mem_mergeTexts _ s (List.mem_filter.mp hs).1
  intro t ht
  exact allWorded_iff.mp hns (text t) (List.mem_filter.mp ht).1

theorem mem_thinned_iff (h : o.ignoredTags ⊆ o'.ignoredTags) {n : Node} (hn : ¬IsText n)
    {ns : List Node} : n ∈ thinned o o' ns ↔ n ∈ ns ∧ n.isPruned o' = false := by
  rw [thinned, List.mem_filter, mem_mergeTexts hn, List.mem_filter]
  constructor
  · rintro ⟨⟨hmem, -⟩, hkept⟩
    exact ⟨hmem, by simpa using hkept⟩
  · rintro ⟨hmem, hkept⟩
    have hkept' : n.isPruned o ≠ true := fun hpruned =>
      Bool.noConfusion (hkept.symm.trans (isPruned_of_subset h hpruned))
    exact ⟨⟨hmem, by simpa using hkept'⟩, by simpa using hkept⟩

theorem keepsTexts_normal (o : Options) : KeepsTexts (normal o) :=
  ⟨fun _ => rfl, fun n hn => mt (isText_normal o n).mp hn⟩

theorem keepsTexts_normal_normal (o o' : Options) :
    KeepsTexts fun n => normal o' (normal o n) :=
  ⟨fun _ => rfl, fun n hn => mt (isText_normal o' _).mp (mt (isText_normal o n).mp hn)⟩

theorem normal_normal_eq_iff_of (h : o.ignoredTags ⊆ o'.ignoredTags) {ns : List Node}
    (hns : AllWorded ns) :
    Fragment.normal o' (Fragment.normal o ns) = Fragment.normal o' ns ↔
      BlanksApart o o' ns ∧ ∀ n ∈ ns, ¬IsText n → n.isPruned o' = false →
        normal o' (normal o n) = normal o' n := by
  rw [Fragment.normal_normal_eq_map, Fragment.normal_eq_map h,
    map_settledEarly_eq_iff (keepsTexts_normal_normal o o') (keepsTexts_normal o')
      (text_mem_thinned hns)]
  refine and_congr_right fun _ => forall_congr' fun n => ?_
  constructor
  · exact fun hall hmem hn hkept => hall ((mem_thinned_iff h hn).mpr ⟨hmem, hkept⟩) hn
  · intro hall hmem hn
    obtain ⟨hmem, hkept⟩ := (mem_thinned_iff h hn).mp hmem
    exact hall hmem hn hkept

mutual

theorem normal_normal_eq_iff (h : o.ignoredTags ⊆ o'.ignoredTags) {n : Node} (hn : n.Worded)
    (hkept : n.isPruned o' = false) :
    normal o' (normal o n) = normal o' n ↔ BlanksApartBelow o o' n := by
  match n with
  | text s => exact iff_of_true rfl trivial
  | comment s => exact iff_of_true rfl trivial
  | element tag attrs children =>
    have hprunes : o'.prunes tag = false := hkept
    have hworded : AllWorded children := hn (Bool.or_eq_false_iff.mp hprunes).1
    rw [normal_element_eq, normal_element_eq, normal_element_eq, Attr.sorted_sorted,
      BlanksApartBelow, Node.element.injEq, normal_normal_eq_iff_of h hworded,
      forall_normal_normal_eq_iff h hworded]
    simp [hprunes]

theorem forall_normal_normal_eq_iff (h : o.ignoredTags ⊆ o'.ignoredTags) {ns : List Node}
    (hns : AllWorded ns) :
    (∀ n ∈ ns, ¬IsText n → n.isPruned o' = false → normal o' (normal o n) = normal o' n) ↔
      BlanksApartBelowAll o o' ns := by
  match ns with
  | [] => simp [BlanksApartBelowAll]
  | n :: ns =>
    rw [List.forall_mem_cons, forall_normal_normal_eq_iff h hns.2, BlanksApartBelowAll]
    apply and_congr_left'
    cases hkept : n.isPruned o' with
    | false =>
      rw [normal_normal_eq_iff h hns.1 hkept]
      refine ⟨fun hhead => ?_, fun hhead _ _ => hhead⟩
      by_cases ht : IsText n
      · exact blanksApartBelow_of_isText ht
      · exact hhead ht rfl
    | true => exact iff_of_true (by simp) (blanksApartBelow_of_isPruned hkept)

end

theorem contains_lowered_of_raw {tag : String}
    (h : Markup.Scan.rawElements.contains tag = true) :
    Options.alwaysIgnored.contains (lowered tag) = true := by
  rcases Markup.Scan.script_or_style h with rfl | rfl <;> decide +kernel

mutual

-- What is read as a document has no empty texts but in scripts and styles.
theorem worded_of_mem_ofItem {keep : Bool} (i : Markup.Item) (h : i.Proper keep) :
    ∀ n ∈ ofItem i, n.Worded := by
  match i with
  | .text s =>
    intro n hn
    rw [List.mem_singleton.mp hn]
    exact fun hempty => h.1 (by rw [hempty]; rfl)
  | .aside kind s =>
    intro n hn
    cases kind
    case comment => exact List.mem_singleton.mp hn ▸ trivial
    all_goals exact absurd hn List.not_mem_nil
  | .element tag attrs children =>
    intro n hn
    rw [List.mem_singleton.mp hn]
    intro hcalm
    have hraw : Markup.Scan.rawElements.contains tag = false := by
      rw [← Bool.not_eq_true]
      intro hraw
      exact Bool.noConfusion (hcalm.symm.trans (contains_lowered_of_raw hraw))
    exact allWorded_ofItems children (h.2.2.2 hraw)

theorem allWorded_ofItems {keep : Bool} (is : List Markup.Item)
    (h : Markup.Item.AllProper keep is) : AllWorded (ofItems is) := by
  match is with
  | [] => exact trivial
  | i :: is =>
    have hhead := worded_of_mem_ofItem i h.1
    have htail := allWorded_iff.mp (allWorded_ofItems is h.2)
    rw [ofItems, allWorded_iff]
    exact fun n hn => (List.mem_append.mp hn).elim (hhead n) (htail n)

end

end Node

-- No blank text is brought together with another text that is not blank, at any depth, when more is
-- ignored by the second options.
def Fragment.BlanksApart (o o' : Options) (f : Fragment) : Prop :=
  Node.BlanksApart o o' f ∧ Node.BlanksApartBelowAll o o' f

-- Blanks stay apart exactly where ignoring less before makes no difference.
theorem Fragment.normal_normal_eq_iff {o o' : Options} (h : o.ignoredTags ⊆ o'.ignoredTags)
    {f : Fragment} (hf : Node.AllWorded f) :
    (f.normal o).normal o' = f.normal o' ↔ f.BlanksApart o o' := by
  rw [Node.normal_normal_eq_iff_of h hf, Node.forall_normal_normal_eq_iff h hf, BlanksApart]

end MarkupDiff
