import MarkupDiff.Proofs.Node.Settled

namespace MarkupDiff.Node

-- Siblings are texts in a row, and then nothing or a node that is no text with more siblings.
theorem runs_induction {motive : List Node → Prop} (last : ∀ ss : List String, motive (ss.map text))
    (next : ∀ (ss : List String) (n : Node) (ns : List Node), ¬IsText n → motive ns →
      motive (ss.map text ++ n :: ns)) (ns : List Node) : motive ns := by
  suffices h : ∀ (ns : List Node) (ss : List String), motive (ss.map text ++ ns) from h ns []
  intro ns
  induction ns with
  | nil =>
    intro ss
    rw [List.append_nil]
    exact last ss
  | cons n ns ih =>
    intro ss
    by_cases hn : IsText n
    · obtain ⟨s, rfl⟩ := isText_iff.mp hn
      have hgrown := ih (ss ++ [s])
      simpa using hgrown
    · exact next ss n ns hn (ih [])

-- What texts in a row come to: one text, or nothing at all.
def run (ss : List String) : List Node :=
  if ss.isEmpty then [] else [text (String.join ss)]

theorem run_cons (s : String) (ss : List String) :
    run (s :: ss) = [text (s ++ String.join ss)] := by
  simp [run, String.join_cons]

theorem mergeTexts_texts (ss : List String) : mergeTexts (ss.map text) = run ss := by
  induction ss with
  | nil => rfl
  | cons s ss ih =>
    rw [List.map_cons, mergeTexts, ih, run_cons]
    cases ss with
    | nil => simp [run]
    | cons t ss => rw [run_cons, String.join_cons]

theorem mergeTexts_run_append {n : Node} (hn : ¬IsText n) (ss : List String) (ns : List Node) :
    mergeTexts (ss.map text ++ n :: ns) = run ss ++ n :: mergeTexts ns := by
  rw [mergeTexts_append_of_head (by simpa using hn), mergeTexts_texts,
    mergeTexts_cons_of_not_isText hn]

-- Siblings without blank texts.
def solid (ns : List Node) : List Node :=
  ns.filter (!·.isBlankText)

-- Texts that hold more than blanks.
def solidTexts (ss : List String) : List String :=
  ss.filter fun s => !(text s).isBlankText

theorem solidTexts_cons_of_blank {s : String} (h : (text s).isBlankText = true)
    (ss : List String) : solidTexts (s :: ss) = solidTexts ss := by
  simp [solidTexts, h]

theorem solidTexts_cons_of_solid {s : String} (h : (text s).isBlankText = false)
    (ss : List String) : solidTexts (s :: ss) = s :: solidTexts ss := by
  simp [solidTexts, h]

theorem solid_append (ms ns : List Node) : solid (ms ++ ns) = solid ms ++ solid ns :=
  List.filter_append ..

theorem solid_cons_of_not_isText {n : Node} (hn : ¬IsText n) (ns : List Node) :
    solid (n :: ns) = n :: solid ns := by
  have hblank : n.isBlankText = false := Bool.eq_false_iff.mpr (mt isText_of_isBlankText hn)
  simp [solid, hblank]

theorem solid_texts (ss : List String) : solid (ss.map text) = (solidTexts ss).map text :=
  List.filter_map ..

theorem isBlankText_join (ss : List String) :
    (text (String.join ss)).isBlankText = ss.all fun s => (text s).isBlankText := by
  induction ss with
  | nil => rfl
  | cons s ss ih =>
    simp only [isBlankText] at ih
    simp only [isBlankText, String.join_cons, String.toList_append, List.all_append, List.all_cons,
      ih]

theorem solid_run (ss : List String) :
    solid (run ss) =
      if ss.all fun s => (text s).isBlankText then [] else [text (String.join ss)] := by
  cases ss with
  | nil => rfl
  | cons s ss =>
    rw [← isBlankText_join, run, if_neg (by simp)]
    generalize String.join (s :: ss) = t
    cases hblank : (text t).isBlankText <;> simp [solid, hblank]

theorem solid_run_solidTexts (ss : List String) :
    solid (run (solidTexts ss)) = if ss.all fun s => (text s).isBlankText then []
      else [text (String.join (solidTexts ss))] := by
  have hall : ((solidTexts ss).all fun s => (text s).isBlankText) =
      ss.all fun s => (text s).isBlankText := by
    rw [Bool.eq_iff_iff, List.all_eq_true, List.all_eq_true]
    constructor
    · intro h s hs
      by_contra hblank
      exact hblank (h s (List.mem_filter.mpr ⟨hs, by simpa using hblank⟩))
    · exact fun h s hs => h s (List.mem_filter.mp hs).1
  rw [solid_run, hall]

-- Siblings with their texts joined, where blank texts go after or before that.
def settledLate (ns : List Node) : List Node :=
  solid (mergeTexts ns)

def settledEarly (ns : List Node) : List Node :=
  solid (mergeTexts (solid ns))

section Parts

variable {n : Node} (hn : ¬IsText n) (ss : List String) (ns : List Node)

theorem settledLate_texts : settledLate (ss.map text) = solid (run ss) := by
  rw [settledLate, mergeTexts_texts]

theorem settledEarly_texts : settledEarly (ss.map text) = solid (run (solidTexts ss)) := by
  rw [settledEarly, solid_texts, mergeTexts_texts]

include hn

theorem settledLate_run_append :
    settledLate (ss.map text ++ n :: ns) = solid (run ss) ++ n :: settledLate ns := by
  rw [settledLate, mergeTexts_run_append hn, solid_append, solid_cons_of_not_isText hn, settledLate]

theorem settledEarly_run_append :
    settledEarly (ss.map text ++ n :: ns) =
      solid (run (solidTexts ss)) ++ n :: settledEarly ns := by
  rw [settledEarly, solid_append, solid_cons_of_not_isText hn, solid_texts,
    mergeTexts_run_append hn, solid_append, solid_cons_of_not_isText hn, settledEarly]

end Parts

-- The text without blanks of markup.
def unblankedText (s : String) : String :=
  .ofList (s.toList.filter (!Text.isMarkupBlank ·))

theorem unblankedText_append (s t : String) :
    unblankedText (s ++ t) = unblankedText s ++ unblankedText t := by
  simp [unblankedText]

theorem unblankedText_of_blank {s : String} (h : (text s).isBlankText = true) :
    unblankedText s = "" := by
  have hnone : s.toList.filter (!Text.isMarkupBlank ·) = [] :=
    List.filter_eq_nil_iff.mpr fun c hc => by simpa using List.all_eq_true.mp h c hc
  rw [unblankedText, hnone, String.ofList_nil]

theorem unblankedText_join_solidTexts (ss : List String) :
    unblankedText (String.join (solidTexts ss)) = unblankedText (String.join ss) := by
  induction ss with
  | nil => rfl
  | cons s ss ih =>
    rw [String.join_cons, unblankedText_append, ← ih]
    cases hblank : (text s).isBlankText with
    | false =>
      rw [solidTexts_cons_of_solid hblank, String.join_cons, unblankedText_append]
    | true =>
      rw [solidTexts_cons_of_blank hblank, unblankedText_of_blank hblank, String.empty_append]

-- It makes no difference but for blanks whether blank texts go before or after texts are joined.
theorem map_settledEarly_eq {g h : Node → Node}
    (hg : ∀ s, g (text s) = text (unblankedText s)) (hh : ∀ s, h (text s) = text (unblankedText s))
    (ns : List Node) (hother : ∀ n ∈ ns, ¬IsText n → g n = h n) :
    (settledEarly ns).map g = (settledLate ns).map h := by
  have hrun : ∀ ss, (solid (run (solidTexts ss))).map g = (solid (run ss)).map h := by
    intro ss
    rw [solid_run_solidTexts, solid_run]
    split
    · rfl
    · rw [List.map_singleton, List.map_singleton, hg, hh, unblankedText_join_solidTexts]
  induction ns using runs_induction with
  | last ss => rw [settledEarly_texts, settledLate_texts, hrun]
  | next ss n ns hn ih =>
    rw [settledEarly_run_append hn, settledLate_run_append hn, List.map_append, List.map_append,
      List.map_cons, List.map_cons, hrun, hother n (by simp) hn,
      ih fun m hm => hother m (by simp [hm])]

-- If both nodes are texts, both of them are blank or neither is.
def BlankAlike (m n : Node) : Prop :=
  IsText m → IsText n → m.isBlankText = n.isBlankText

-- A function on nodes that leaves texts alone and makes no new ones.
structure KeepsTexts (g : Node → Node) : Prop where
  text : ∀ s, g (text s) = text s
  other : ∀ n, ¬IsText n → ¬IsText (g n)

theorem length_join_solidTexts_le (ss : List String) :
    (String.join (solidTexts ss)).length ≤ (String.join ss).length := by
  induction ss with
  | nil => exact Nat.le_refl _
  | cons s ss ih =>
    rw [String.join_cons, String.length_append]
    cases hblank : (text s).isBlankText with
    | false =>
      rw [solidTexts_cons_of_solid hblank, String.join_cons, String.length_append]
      exact Nat.add_le_add_left ih _
    | true =>
      rw [solidTexts_cons_of_blank hblank]
      exact Nat.le_add_left_of_le ih

-- Where no text is empty, blank ones are missed.
theorem join_solidTexts_eq_iff {ss : List String} (hss : ∀ s ∈ ss, s ≠ "") :
    String.join (solidTexts ss) = String.join ss ↔ ∀ s ∈ ss, (text s).isBlankText = false := by
  induction ss with
  | nil => simp [solidTexts]
  | cons s ss ih =>
    obtain ⟨hs, hrest⟩ := List.forall_mem_cons.mp hss
    rw [List.forall_mem_cons, ← ih hrest]
    cases hblank : (text s).isBlankText with
    | false =>
      rw [solidTexts_cons_of_solid hblank, String.join_cons, String.join_cons,
        String.append_right_inj]
      simp
    | true =>
      have hle := length_join_solidTexts_le ss
      have hpos : 0 < s.length := Nat.pos_of_ne_zero (mt String.length_eq_zero_iff.mp hs)
      refine iff_of_false (fun heq => ?_) (by simp)
      rw [solidTexts_cons_of_blank hblank, String.join_cons] at heq
      have hlength := congrArg String.length heq
      rw [String.length_append] at hlength
      omega

theorem isChain_blankAlike_texts (ss : List String) :
    (ss.map text).IsChain BlankAlike ↔ (∀ s ∈ ss, (text s).isBlankText = true) ∨
      ∀ s ∈ ss, (text s).isBlankText = false := by
  induction ss with
  | nil => simp
  | cons s ss ih =>
    rw [List.map_cons, List.isChain_cons, ih]
    cases ss with
    | nil => cases (text s).isBlankText <;> simp
    | cons t ss =>
      simp only [List.map_cons, List.head?_cons, Option.mem_def, Option.some.injEq, forall_eq',
        BlankAlike, isText_text, true_imp_iff, List.forall_mem_cons]
      constructor
      · rintro ⟨heq, ⟨ht, hss⟩ | ⟨ht, hss⟩⟩
        · exact .inl ⟨heq.trans ht, ht, hss⟩
        · exact .inr ⟨heq.trans ht, ht, hss⟩
      · rintro (⟨hs, ht, hss⟩ | ⟨hs, ht, hss⟩)
        · exact ⟨hs.trans ht.symm, .inl ⟨ht, hss⟩⟩
        · exact ⟨hs.trans ht.symm, .inr ⟨ht, hss⟩⟩

-- Texts in a row come to the same without the blank ones exactly when all are blank or none is.
theorem solid_run_solidTexts_eq_iff {ss : List String} (hss : ∀ s ∈ ss, s ≠ "") :
    solid (run (solidTexts ss)) = solid (run ss) ↔ (ss.map text).IsChain BlankAlike := by
  rw [solid_run_solidTexts, solid_run, isChain_blankAlike_texts]
  split
  · rename_i hall
    exact iff_of_true rfl (.inl (List.all_eq_true.mp hall))
  · rename_i hall
    rw [List.cons.injEq, Node.text.injEq, join_solidTexts_eq_iff hss, and_iff_left rfl]
    exact (or_iff_right (mt List.all_eq_true.mpr hall)).symm

theorem isChain_blankAlike_run_append {n : Node} (hn : ¬IsText n) (ss : List String)
    (ns : List Node) : (ss.map text ++ n :: ns).IsChain BlankAlike ↔
      (ss.map text).IsChain BlankAlike ∧ ns.IsChain BlankAlike := by
  rw [List.isChain_append, List.isChain_cons]
  constructor
  · rintro ⟨hss, ⟨-, hns⟩, -⟩
    exact ⟨hss, hns⟩
  · rintro ⟨hss, hns⟩
    refine ⟨hss, ⟨fun m _ h => absurd h hn, hns⟩, fun m _ k hk _ h => ?_⟩
    obtain rfl := Option.some.inj hk
    exact absurd h hn

-- Two lists that go on from texts to a node that is no text agree part by part.
theorem append_cons_eq_iff {xs ys as bs : List Node} {a b : Node} (hxs : ∀ x ∈ xs, IsText x)
    (hys : ∀ y ∈ ys, IsText y) (ha : ¬IsText a) (hb : ¬IsText b) :
    xs ++ a :: as = ys ++ b :: bs ↔ xs = ys ∧ a = b ∧ as = bs := by
  induction xs generalizing ys with
  | nil =>
    cases ys with
    | nil => simp
    | cons y ys =>
      refine iff_of_false (fun heq => ha ?_) (by simp)
      obtain ⟨rfl, -⟩ := List.cons.inj heq
      exact hys _ List.mem_cons_self
  | cons x xs ih =>
    cases ys with
    | nil =>
      refine iff_of_false (fun heq => hb ?_) (by simp)
      obtain ⟨rfl, -⟩ := List.cons.inj heq
      exact hxs _ List.mem_cons_self
    | cons y ys =>
      have hrest := ih (fun z hz => hxs z (List.mem_cons_of_mem _ hz))
        (fun z hz => hys z (List.mem_cons_of_mem _ hz))
      rw [List.cons_append, List.cons_append, List.cons.injEq, hrest, List.cons.injEq, and_assoc]

theorem isText_of_mem_solid_run {ss : List String} {n : Node} (h : n ∈ solid (run ss)) :
    IsText n := by
  rw [solid_run] at h
  split at h
  · exact absurd h List.not_mem_nil
  · exact List.mem_singleton.mp h ▸ trivial

theorem KeepsTexts.map_solid_run {g : Node → Node} (hg : KeepsTexts g) (ss : List String) :
    (solid (run ss)).map g = solid (run ss) := by
  rw [solid_run]
  split
  · rfl
  · rw [List.map_singleton, hg.text]

-- Siblings without empty texts come to the same, after a function of each, whether blank texts go
-- before or after texts are joined, exactly when blank texts and others do not meet and the
-- functions agree on all nodes that are no texts.
theorem map_settledEarly_eq_iff {g h : Node → Node} (hg : KeepsTexts g) (hh : KeepsTexts h)
    {ns : List Node} (hns : ∀ s, text s ∈ ns → s ≠ "") :
    (settledEarly ns).map g = (settledLate ns).map h ↔
      ns.IsChain BlankAlike ∧ ∀ n ∈ ns, ¬IsText n → g n = h n := by
  induction ns using runs_induction with
  | last ss =>
    have hss : ∀ s ∈ ss, s ≠ "" := fun s hs => hns s (List.mem_map_of_mem hs)
    rw [settledEarly_texts, settledLate_texts, hg.map_solid_run, hh.map_solid_run,
      solid_run_solidTexts_eq_iff hss]
    simp
  | next ss n ns hn ih =>
    have hss : ∀ s ∈ ss, s ≠ "" := fun s hs => hns s (by simp [hs])
    have hrest := ih fun s hs => hns s (by simp [hs])
    rw [settledEarly_run_append hn, settledLate_run_append hn, List.map_append, List.map_append,
      List.map_cons, List.map_cons, hg.map_solid_run, hh.map_solid_run,
      append_cons_eq_iff (fun _ => isText_of_mem_solid_run) (fun _ => isText_of_mem_solid_run)
        (hg.other n hn) (hh.other n hn),
      solid_run_solidTexts_eq_iff hss, hrest, isChain_blankAlike_run_append hn]
    have hothers : (∀ m ∈ ss.map text ++ n :: ns, ¬IsText m → g m = h m) ↔
        g n = h n ∧ ∀ m ∈ ns, ¬IsText m → g m = h m := by
      simp [or_imp, forall_and, hn]
    rw [hothers]
    tauto

end MarkupDiff.Node
