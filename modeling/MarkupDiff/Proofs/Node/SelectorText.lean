import MarkupDiff.Proofs.Node.Settled
import MarkupDiff.Proofs.Place.Selector
import MarkupDiff.Proofs.Text.Search
import MarkupDiff.Proofs.Text.Words

namespace MarkupDiff

namespace Text

-- No mark of a selector begins with the character.
def isTagChar (c : Char) : Bool :=
  c != '#' && c != '.' && c != ':'

theorem takeWhile_append_of_head? {p : Char → Bool} {cs rest : List Char}
    (hcs : ∀ c ∈ cs, p c = true) (hrest : ∀ c ∈ rest.head?, p c = false) :
    (cs ++ rest).takeWhile p = cs := by
  rw [List.takeWhile_append_of_pos hcs]
  cases rest with
  | nil => rw [List.takeWhile_nil, List.append_nil]
  | cons c rest => simp [hrest c rfl]

-- Texts without blanks can be read back from one text in which blanks stand between them.
theorem eq_of_intercalate_eq {separator : List Char} {ls ms : List (List Char)}
    (hls : ∀ l ∈ ls, ' ' ∉ l) (hms : ∀ m ∈ ms, ' ' ∉ m) (hne : ls ≠ []) (hne' : ms ≠ [])
    (h : (' ' :: separator).intercalate ls = (' ' :: separator).intercalate ms) : ls = ms := by
  induction ls generalizing ms with
  | nil => exact absurd rfl hne
  | cons l ls ih =>
    obtain ⟨m, ms, rfl⟩ := List.exists_cons_of_ne_nil hne'
    obtain ⟨hl, hrest⟩ := List.forall_mem_cons.mp hls
    obtain ⟨hm, hrest'⟩ := List.forall_mem_cons.mp hms
    cases ls with
    | nil =>
      cases ms with
      | nil => simpa using h
      | cons n ms =>
        rw [List.intercalate_singleton, List.intercalate_cons_cons] at h
        exact absurd (by rw [h]; simp) hl
    | cons k ls =>
      cases ms with
      | nil =>
        rw [List.intercalate_singleton, List.intercalate_cons_cons] at h
        exact absurd (by rw [← h]; simp) hm
      | cons n ms =>
        rw [List.intercalate_cons_cons, List.intercalate_cons_cons, List.append_assoc,
          List.append_assoc, List.cons_append, List.cons_append] at h
        have hsplit := splitAtChar?_append hl (separator ++ (' ' :: separator).intercalate (k :: ls))
        rw [h, splitAtChar?_append hm] at hsplit
        obtain ⟨rfl, hafter⟩ := Prod.mk.inj (Option.some.inj hsplit)
        rw [ih hrest hrest' (List.cons_ne_nil _ _) (List.cons_ne_nil _ _)
          (List.append_cancel_left hafter).symm]

theorem isDigit_of_mem_repr {n : Nat} {c : Char} (h : c ∈ n.repr.toList) : c.isDigit = true := by
  rw [Nat.toList_repr] at h
  exact Nat.isDigit_of_mem_toDigits (by decide) (by decide) h

-- A number in parentheses at the end of a text can be read back from it.
theorem eq_of_append_number_eq {s t : List Char} {m n : Nat}
    (h : s ++ '(' :: (m.repr.toList ++ [')']) = t ++ '(' :: (n.repr.toList ++ [')'])) : m = n := by
  have hdigits : ∀ k : Nat, '(' ∉ ')' :: k.repr.toList.reverse := by
    intro k hmem
    rcases List.mem_cons.mp hmem with heq | hmem
    · exact absurd heq (by decide)
    · exact absurd (isDigit_of_mem_repr (List.mem_reverse.mp hmem)) (by decide)
  have hreverse := congrArg List.reverse h
  simp only [List.reverse_append, List.reverse_cons, List.reverse_nil, List.nil_append,
    List.append_assoc, List.singleton_append] at hreverse
  have hsplit := splitAtChar?_append (hdigits m) s.reverse
  rw [hreverse, splitAtChar?_append (hdigits n)] at hsplit
  have hcons := (Prod.mk.inj (Option.some.inj hsplit)).1
  have hrepr := List.reverse_inj.mp (List.cons.inj hcons).2
  have hnumber := congrArg (Nat.ofDigitChars 10 · 0) hrepr
  simpa only [Nat.toList_repr, Nat.ofDigitChars_ten_toDigits] using hnumber.symm

end Text

namespace Node

-- The tag and the id can be told from what else a selector says.
structure Selectable (tag : String) (attrs : List Attr) : Prop where
  tag_ne_empty : tag ≠ ""
  tag_chars : ∀ c ∈ tag.toList, c ≠ '#' ∧ c ≠ '.' ∧ c ≠ ':' ∧ c ≠ ' '
  id_chars : ∀ a ∈ attrs, a.name = "id" → ' ' ∉ a.value.toList

variable {tag : String} {attrs : List Attr} {siblings : List Node} {i : Nat}

theorem Selectable.isTagChar (h : Selectable tag attrs) :
    ∀ c ∈ tag.toList, Text.isTagChar c = true := by
  intro c hc
  obtain ⟨hhash, hdot, hcolon, _⟩ := h.tag_chars c hc
  simp [Text.isTagChar, hhash, hdot, hcolon]

theorem idMark_eq (attrs : List Attr) :
    idMark attrs = "" ∨ ∃ a ∈ attrs, a.name = "id" ∧ idMark attrs = "#" ++ a.value := by
  rw [idMark, Attr.valueOf?]
  cases hfind : attrs.find? (·.name == "id") with
  | none => exact .inl rfl
  | some a =>
    have hname : a.name = "id" := by simpa using List.find?_some hfind
    by_cases hempty : a.value = ""
    · exact .inl (by simp [hempty])
    · exact .inr ⟨a, List.mem_of_find?_eq_some hfind, hname, by simp [hempty]⟩

theorem classMark_eq (attrs : List Attr) :
    ∃ words : List String, (∀ w ∈ words, Text.IsWord w.toList) ∧
      (classMark attrs).toList = words.flatMap fun w => '.' :: w.toList := by
  have hjoin : ∀ words : List String, (String.join (words.map ("." ++ ·))).toList =
      words.flatMap fun w => '.' :: w.toList := by
    intro words
    simp [String.toList_join, List.flatMap_map]
  rw [classMark]
  cases Attr.valueOf? "class" attrs with
  | none => exact ⟨[], by simp, rfl⟩
  | some v => exact ⟨wordsOf v, fun w hw => isWord_of_mem_wordsOf hw, hjoin _⟩

theorem ordinalMark_eq (siblings : List Node) (i : Nat) (tag : String) :
    (twins tag siblings).length ≤ 1 ∧ ordinalMark siblings i tag = "" ∨
      ¬(twins tag siblings).length ≤ 1 ∧ (ordinalMark siblings i tag).toList =
        ":nth-of-type".toList ++ '(' :: (((twins tag siblings).idxOf i + 1).repr.toList ++ [')']) := by
  rw [ordinalMark]
  split
  · rename_i hlen
    exact .inl ⟨hlen, rfl⟩
  · rename_i hlen
    refine .inr ⟨hlen, ?_⟩
    simp [toString]

theorem notMem_idMark (h : Selectable tag attrs) : ' ' ∉ (idMark attrs).toList := by
  rcases idMark_eq attrs with hempty | ⟨a, ha, hname, heq⟩
  · simp [hempty]
  · simpa [heq] using h.id_chars a ha hname

theorem notMem_classMark (attrs : List Attr) : ' ' ∉ (classMark attrs).toList := by
  obtain ⟨words, hwords, heq⟩ := classMark_eq attrs
  rw [heq]
  intro hmem
  obtain ⟨w, hw, hc⟩ := List.mem_flatMap.mp hmem
  rcases List.mem_cons.mp hc with hdot | hc
  · exact absurd hdot (by decide)
  · exact absurd ((hwords w hw).2 _ hc) (by decide)

theorem notMem_ordinalMark (siblings : List Node) (i : Nat) (tag : String) :
    ' ' ∉ (ordinalMark siblings i tag).toList := by
  rcases ordinalMark_eq siblings i tag with ⟨_, hempty⟩ | ⟨_, heq⟩
  · simp [hempty]
  · rw [heq]
    intro hmem
    have hdigit : ' ' ∈ ((twins tag siblings).idxOf i + 1).repr.toList := by simpa using hmem
    exact absurd (Text.isDigit_of_mem_repr hdigit) (by decide)

theorem notMem_selectorText (h : Selectable tag attrs) :
    ' ' ∉ (selectorText siblings i tag attrs).toList := by
  have htag : ' ' ∉ tag.toList := fun hmem => (h.tag_chars _ hmem).2.2.2 rfl
  simp [selectorText, htag, notMem_idMark h, notMem_classMark, notMem_ordinalMark]

-- A selector begins with the tag, and the tag ends where a mark begins.
theorem takeWhile_selectorText (h : Selectable tag attrs) :
    (selectorText siblings i tag attrs).toList.takeWhile Text.isTagChar = tag.toList := by
  have hid : ∀ c ∈ (idMark attrs).toList.head?, Text.isTagChar c = false := by
    rcases idMark_eq attrs with hempty | ⟨a, _, _, heq⟩
    · simp [hempty]
    · simp [heq, Text.isTagChar]
  have hclass : ∀ c ∈ (classMark attrs).toList.head?, Text.isTagChar c = false := by
    obtain ⟨words, _, heq⟩ := classMark_eq attrs
    rw [heq]
    cases words <;> simp [Text.isTagChar]
  have hordinal : ∀ c ∈ (ordinalMark siblings i tag).toList.head?, Text.isTagChar c = false := by
    rcases ordinalMark_eq siblings i tag with ⟨_, hempty⟩ | ⟨_, heq⟩
    · simp [hempty]
    · simp [heq, Text.isTagChar]
  simp only [selectorText, String.toList_append, List.append_assoc]
  refine Text.takeWhile_append_of_head? h.isTagChar ?_
  cases hids : (idMark attrs).toList with
  | cons c cs => simpa [hids] using hid
  | nil =>
    cases hclasses : (classMark attrs).toList with
    | cons c cs => simpa [hclasses] using hclass
    | nil => simpa using hordinal

-- Elements with one tag below one parent differ in their positions.
theorem eq_of_append_ordinalMark_eq {j : Nat} {s t : List Char} (hi : i ∈ twins tag siblings)
    (hj : j ∈ twins tag siblings)
    (h : s ++ (ordinalMark siblings i tag).toList = t ++ (ordinalMark siblings j tag).toList) :
    i = j := by
  rcases ordinalMark_eq siblings i tag with ⟨hlen, _⟩ | ⟨hlen, hi'⟩
  · obtain ⟨k, hk⟩ := List.length_eq_one_iff.mp
      (Nat.le_antisymm hlen (List.length_pos_of_mem hi))
    rw [hk] at hi hj
    rw [List.mem_singleton.mp hi, List.mem_singleton.mp hj]
  · rcases ordinalMark_eq siblings j tag with ⟨hlen', _⟩ | ⟨_, hj'⟩
    · exact absurd hlen' hlen
    · rw [hi', hj', ← List.append_assoc, ← List.append_assoc] at h
      have hposition := Text.eq_of_append_number_eq h
      exact (List.idxOf_inj hi).mp (Nat.succ_injective hposition)

-- No two elements below one parent have the same selector.
theorem selectorText_inj {j : Nat} {tag' : String} {attrs' : List Attr}
    {children children' : List Node} (hi : siblings[i]? = some (.element tag attrs children))
    (hj : siblings[j]? = some (.element tag' attrs' children')) (hs : Selectable tag attrs)
    (hs' : Selectable tag' attrs')
    (h : selectorText siblings i tag attrs = selectorText siblings j tag' attrs') : i = j := by
  have htag : tag.toList = tag'.toList :=
    calc
      tag.toList = (selectorText siblings i tag attrs).toList.takeWhile Text.isTagChar :=
        (takeWhile_selectorText hs).symm
      _ = (selectorText siblings j tag' attrs').toList.takeWhile Text.isTagChar := by rw [h]
      _ = tag'.toList := takeWhile_selectorText hs'
  obtain rfl := String.toList_inj.mp htag
  have htwins : ∀ {k as cs}, siblings[k]? = some (.element tag as cs) → k ∈ twins tag siblings :=
    fun hk => mem_twins.mpr ⟨_, hk, by simp [hasTag]⟩
  rw [selectorText, selectorText, ← String.toList_inj,
    String.toList_append (t := ordinalMark siblings i tag),
    String.toList_append (t := ordinalMark siblings j tag)] at h
  exact eq_of_append_ordinalMark_eq (htwins hi) (htwins hj) h

end Node

end MarkupDiff
