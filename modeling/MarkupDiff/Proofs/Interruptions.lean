import MarkupDiff.Proofs.Markup.Interruption
import MarkupDiff.Proofs.Node.Plain

namespace MarkupDiff

open Markup (Item settledText)
open Markup.Item (joinedAll settledItems spelling spellingAll)

-- Only blanks of markup.
def IsBlankPiece (s : String) : Prop :=
  ∀ m ∈ s.toList, Text.isMarkupBlank m = true

-- A piece of text as it is read: a blank one becomes a line feed or a space.
def readPiece (s : String) : String :=
  if s = "" then "" else .ofList (settledText false s.toList)

-- A piece of text that is read as it is written: text that is not blank, no text at all, or one of
-- the shortest blank texts.
def ReadAsWritten (s : String) : Prop :=
  ¬IsBlankPiece s ∨ s = "" ∨ s = " " ∨ s = "\n"

theorem readPiece_of_not_blank {s : String} (h : ¬IsBlankPiece s) : readPiece s = s := by
  have hne : s ≠ "" := by
    rintro rfl
    exact h (by simp [IsBlankPiece])
  have hall : s.toList.all Text.isMarkupBlank = false := by
    rw [← Bool.not_eq_true, List.all_eq_true]
    exact h
  rw [readPiece, if_neg hne, settledText, hall]
  exact String.ofList_toList

theorem readPiece_of_blank {s : String} (h : IsBlankPiece s) (hne : s ≠ "") :
    readPiece s = if s.toList.contains '\n' then "\n" else " " := by
  have hall : s.toList.all Text.isMarkupBlank = true := List.all_eq_true.mpr h
  rw [readPiece, if_neg hne, settledText, hall]
  simp only [Bool.not_false, Bool.and_self, if_true]
  split <;> rfl

theorem readPiece_eq_self_iff {s : String} : readPiece s = s ↔ ReadAsWritten s := by
  constructor
  · intro h
    by_cases hblank : IsBlankPiece s
    · by_cases hne : s = ""
      · exact .inr (.inl hne)
      · rw [readPiece_of_blank hblank hne] at h
        split at h
        · exact .inr (.inr (.inr h.symm))
        · exact .inr (.inr (.inl h.symm))
    · exact .inl hblank
  · rintro (h | rfl | rfl | rfl)
    · exact readPiece_of_not_blank h
    · rfl
    · rfl
    · rfl

theorem isBlankPiece_readPiece_iff {s : String} : IsBlankPiece (readPiece s) ↔ IsBlankPiece s := by
  by_cases hblank : IsBlankPiece s
  · refine iff_of_true ?_ hblank
    by_cases hne : s = ""
    · rwa [hne] at hblank ⊢
    · rw [readPiece_of_blank hblank hne]
      split <;> simp [IsBlankPiece, Text.isMarkupBlank]
  · rw [readPiece_of_not_blank hblank]

theorem isBlankPiece_append {s t : String} :
    IsBlankPiece (s ++ t) ↔ IsBlankPiece s ∧ IsBlankPiece t := by
  simp [IsBlankPiece, or_imp, forall_and]

theorem append_eq_append_iff_of_or {s s' t t' : String} (h : s' = s ∨ t' = t) :
    s' ++ t' = s ++ t ↔ s' = s ∧ t' = t := by
  rcases h with rfl | rfl
  · simp
  · simp

-- Two pieces that are read one by one make up the same text as the two of them read together,
-- exactly when they hold blanks only or each of them is read as it is written.
theorem readPiece_append_iff {s t : String} (h : ¬IsBlankPiece (s ++ t)) :
    readPiece s ++ readPiece t = readPiece (s ++ t) ↔ ReadAsWritten s ∧ ReadAsWritten t := by
  have hone : readPiece s = s ∨ readPiece t = t := by
    rw [isBlankPiece_append, not_and_or] at h
    exact h.imp readPiece_of_not_blank readPiece_of_not_blank
  rw [readPiece_of_not_blank h, append_eq_append_iff_of_or hone, readPiece_eq_self_iff,
    readPiece_eq_self_iff]

namespace Node

-- A text by itself; the empty text is no node.
def piece (s : String) : List Node :=
  if s = "" then [] else [text s]

theorem ofItems_settledItems (s : String) :
    ofItems (settledItems false s.toList) = piece (readPiece s) := by
  by_cases hs : s = ""
  · subst hs
    rfl
  · have hnil : s.toList ≠ [] := by simpa using hs
    have hread : readPiece s ≠ "" := by
      rw [readPiece, if_neg hs]
      intro hempty
      have hlist := congrArg String.toList hempty
      rw [String.toList_ofList] at hlist
      exact Markup.settledText_ne_nil false hnil hlist
    rw [piece, if_neg hread, readPiece, if_neg hs, settledItems, if_neg (by simpa using hs)]
    rfl

theorem settled_piece_piece (o : Options) (s t : String) :
    settled o (piece s ++ piece t) = [text (s ++ t)].filter (!·.isBlankText) := by
  by_cases hs : s = ""
  · by_cases ht : t = ""
    · simp [hs, ht, piece, settled, isBlankText]
    · simp [hs, ht, piece, settled, isPruned, mergeTexts]
  · by_cases ht : t = ""
    · simp [hs, ht, piece, settled, isPruned, mergeTexts]
    · simp [hs, ht, piece, settled, isPruned, mergeTexts]

theorem normals_piece (o : Options) (s : String) : normals o (piece s) = piece s := by
  unfold piece
  split <;> rfl

theorem settled_normals_interrupted {o : Options} {n : Node} (hn : n.isPruned o = true)
    (s t : String) :
    settled o (normals o (piece s ++ n :: piece t)) =
      [text (s ++ t)].filter (!·.isBlankText) := by
  have hnormals : normals o (piece s ++ n :: piece t) = piece s ++ normal o n :: piece t := by
    rw [normals_eq_map, List.map_append, List.map_cons, ← normals_eq_map, ← normals_eq_map,
      normals_piece, normals_piece]
  have hcut : settled o (piece s ++ normal o n :: piece t) = settled o (piece s ++ piece t) := by
    simp [settled, List.filter_append, hn]
  rw [hnormals, hcut, settled_piece_piece]

theorem isBlankText_iff {s : String} : (text s).isBlankText = true ↔ IsBlankPiece s :=
  List.all_eq_true

theorem filter_text_eq_iff {s t : String} (h : IsBlankPiece s ↔ IsBlankPiece t) :
    [text s].filter (!·.isBlankText) = [text t].filter (!·.isBlankText) ↔
      IsBlankPiece t ∨ s = t := by
  by_cases ht : IsBlankPiece t
  · have hs := isBlankText_iff.mpr (h.mpr ht)
    simp [hs, isBlankText_iff.mpr ht, ht]
  · have hs : (text s).isBlankText = false :=
      Bool.eq_false_iff.mpr (mt isBlankText_iff.mp (mt h.mp ht))
    have ht' : (text t).isBlankText = false := Bool.eq_false_iff.mpr (mt isBlankText_iff.mp ht)
    simp [hs, ht', ht]

end Node

variable {o : Options} {s t : String} {c : Interruption}

theorem ofItems_plain (s : String) :
    Node.ofItems (joinedAll false [] [.text s]) = Node.piece (readPiece s) := by
  rw [joinedAll, joinedAll]
  exact Node.ofItems_settledItems s

theorem exists_ofItems_interrupted (o : Options) (c : Interruption) (s t : String) :
    ∃ n : Node, n.isPruned o = true ∧ Node.ofItems (joinedAll false [] [.text s, c.item, .text t]) =
      Node.piece (readPiece s) ++ n :: Node.piece (readPiece t) := by
  have hread : ∀ i : Item, (∀ u, i ≠ .text u) →
      joinedAll false [] [.text s, i, .text t] = settledItems false s.toList ++
        i.joined false :: joinedAll false [] [.text t] := by
    intro i hi
    cases i with
    | text u => exact absurd rfl (hi u)
    | element tag attrs children => rfl
    | aside kind u => rfl
  have hitem : ∀ u, c.item ≠ .text u := by
    intro u
    cases c <;> simp [Interruption.item]
  rw [hread c.item hitem, Node.ofItems_append, Node.ofItems_settledItems, Node.ofItems,
    ofItems_plain]
  cases c with
  | comment b => exact ⟨_, rfl, rfl⟩
  | script b => exact ⟨_, rfl, rfl⟩

-- What remains of a paragraph is what remains of the text in it.
theorem normal_paragraph_eq_iff (hp : o.prunes "p" = false) {ms ns : List Node} :
    Fragment.normal o [.element "p" [] ms] = Fragment.normal o [.element "p" [] ns] ↔
      Node.settled o (Node.normals o ms) = Node.settled o (Node.normals o ns) := by
  simp [Fragment.normal, Node.normals, Node.normal, Node.settled, Node.isPruned, hp,
    Node.isBlankText, Node.mergeTexts]

theorem prunes_paragraph (hp : "p" ∉ o.ignoredTags) : o.prunes "p" = false := by
  have hlower : lowered "p" = "p" := by decide +kernel
  simp [Options.prunes, Options.alwaysIgnored, hlower, hp]

theorem read_interrupted (hs : Unescaped s) (ht : Unescaped t) (hc : c.IsPlain) :
    Fragment.read (.text ("<p>" ++ (s ++ c.markup ++ t) ++ "</p>")) =
      .ok [.element "p" [] (Node.ofItems (joinedAll false [] [.text s, c.item, .text t]))] := by
  apply Fragment.read_paragraph
  · exact ⟨trivial, hc.spellable, trivial, trivial⟩
  · rw [String.toList_append, String.toList_append]
    exact (hs.hasNoMarker.append hc.hasNoMarker).append ht.hasNoMarker
  · simp [spellingAll, spelling, hs.flatMap_escapedChar, ht.flatMap_escapedChar, c.toList_markup]

theorem read_uninterrupted (hs : Unescaped s) :
    Fragment.read (.text ("<p>" ++ s ++ "</p>")) =
      .ok [.element "p" [] (Node.ofItems (joinedAll false [] [.text s]))] := by
  apply Fragment.read_paragraph
  · exact ⟨trivial, trivial⟩
  · exact hs.hasNoMarker
  · simp [spellingAll, spelling, hs.flatMap_escapedChar]

theorem Unescaped.append (hs : Unescaped s) (ht : Unescaped t) : Unescaped (s ++ t) := by
  intro m hm
  rw [String.toList_append, List.mem_append] at hm
  exact hm.elim (hs m) (ht m)

-- A comment or a script that is written into the text of a paragraph goes unseen exactly when this
-- text is blank, or when both pieces that it is cut into are read as they are written.
theorem interruption_unseen_iff {config : Value} (hconfig : Options.resolve config = .ok o)
    (hp : "p" ∉ o.ignoredTags) (hs : Unescaped s) (ht : Unescaped t) (hc : c.IsPlain) :
    markupDiff (.text ("<p>" ++ (s ++ c.markup ++ t) ++ "</p>"))
        (.text ("<p>" ++ (s ++ t) ++ "</p>")) config = .ok none ↔
      IsBlankPiece (s ++ t) ∨ ReadAsWritten s ∧ ReadAsWritten t := by
  obtain ⟨n, hn, hnodes⟩ := exists_ofItems_interrupted o c s t
  have hplain : Node.settled o (Node.normals o (Node.piece (readPiece (s ++ t)))) =
      [.text (readPiece (s ++ t))].filter (!·.isBlankText) := by
    rw [Node.normals_piece, ← List.nil_append (Node.piece _)]
    exact Node.settled_piece_piece o "" _
  have hblank : IsBlankPiece (readPiece s ++ readPiece t) ↔ IsBlankPiece (readPiece (s ++ t)) := by
    simp only [isBlankPiece_append, isBlankPiece_readPiece_iff]
  rw [markupDiff_eq_none_iff hconfig (read_interrupted hs ht hc)
      (read_uninterrupted (hs.append ht)),
    normal_paragraph_eq_iff (prunes_paragraph hp), hnodes, ofItems_plain,
    Node.settled_normals_interrupted hn, hplain, Node.filter_text_eq_iff hblank,
    isBlankPiece_readPiece_iff]
  by_cases h : IsBlankPiece (s ++ t)
  · simp [h]
  · rw [readPiece_append_iff h]

-- A script between a letter and a blank goes unseen.
theorem markupDiff_scripted :
    markupDiff "<p>a<script>b</script> </p>" "<p>a </p>"
      (.record [("ignored_tags", .list ["svg"])]) = .ok none := by
  have hconfig : Options.resolve (.record [("ignored_tags", .list ["svg"])]) = .ok ⟨["svg"]⟩ := rfl
  have hs : Unescaped "a" := by simp [Unescaped]
  have ht : Unescaped " " := by simp [Unescaped]
  have hc : (Interruption.script "b").IsPlain :=
    ⟨by simp [Interruption.content], by simp [Interruption.content]⟩
  have hread : ReadAsWritten "a" := .inl (by simp [IsBlankPiece, Text.isMarkupBlank])
  have hiff := interruption_unseen_iff hconfig (by simp) hs ht hc
  have hleft : "<p>" ++ ("a" ++ (Interruption.script "b").markup ++ " ") ++ "</p>" =
      "<p>a<script>b</script> </p>" := rfl
  have hright : "<p>" ++ ("a" ++ " ") ++ "</p>" = "<p>a </p>" := rfl
  rw [hleft, hright] at hiff
  exact hiff.mpr (.inr ⟨hread, .inr (.inr (.inl rfl))⟩)

theorem read_commented_blanks : Fragment.read "<p>  <!--b-->x</p>" =
    .ok [.element "p" [] [.text " ", .comment "b", .text "x"]] := by
  have hs : Unescaped "  " := by simp [Unescaped]
  have ht : Unescaped "x" := by simp [Unescaped]
  have hc : (Interruption.comment "b").IsPlain :=
    ⟨by simp [Interruption.content], by simp [Interruption.content]⟩
  have hmarkup : "<p>" ++ ("  " ++ (Interruption.comment "b").markup ++ "x") ++ "</p>" =
      "<p>  <!--b-->x</p>" := rfl
  rw [← hmarkup, read_interrupted hs ht hc]
  rfl

theorem read_blanks : Fragment.read "<p>  x</p>" = .ok [.element "p" [] [.text "  x"]] := by
  have hs : Unescaped "  x" := by simp [Unescaped]
  have hmarkup : "<p>" ++ "  x" ++ "</p>" = "<p>  x</p>" := rfl
  rw [← hmarkup, read_uninterrupted hs]
  rfl

-- Two blanks before a comment become one, so the text after it is seen to begin differently.
theorem markupDiff_commented_blanks :
    markupDiff "<p>  <!--b-->x</p>" "<p>  x</p>" ≠ .ok none := by
  have hconfig : Options.resolve .null = .ok ⟨[]⟩ := rfl
  rw [ne_eq, markupDiff_eq_none_iff hconfig read_commented_blanks read_blanks,
    normal_paragraph_eq_iff (prunes_paragraph List.not_mem_nil)]
  simp [Node.normals, Node.normal, Node.settled, Node.isPruned, Node.mergeTexts, Node.isBlankText,
    Text.isMarkupBlank]

end MarkupDiff
