import MarkupDiff.Markup.Item
import MarkupDiff.Proofs.Markup.Escaping
import MarkupDiff.Proofs.Text.LowerCase
import MarkupDiff.Proofs.Text.Search
import Mathlib.Data.List.TakeWhile

namespace MarkupDiff.Markup.Tag

open Text (isBlank)

-- The name of a tag as it is read.
structure IsName (name : List Char) : Prop where
  lower : Text.Case.lower name = name
  head : ∃ c ∈ name.head?, Reference.isLetter c = true
  chars : ∀ c ∈ name, isNameChar c = true

theorem IsName.ne_nil {name : List Char} (h : IsName name) : name ≠ [] := by
  rintro rfl
  obtain ⟨_, hc, _⟩ := h.head
  cases hc

-- The name of an attribute as it is read. It can begin with an equals sign.
structure IsAttrName (name : List Char) : Prop where
  lower : Text.Case.lower name = name
  shape : ∃ c cs, name = c :: cs ∧ (isBlank c || c == '/' || c == '>') = false ∧
    ∀ d ∈ cs, isAttrChar d = true

-- An attribute as a tag can hold it, with the blank before it: its value stands between quotes of a
-- kind that it does not hold, and its references are replaced.
inductive Spells (a : String × String) : List Char → Prop
  | quoted {q : Char} {text : List Char} (hname : IsAttrName a.1.toList) (hq : isQuote q = true)
      (htext : q ∉ text) (hvalue : Reference.resolved text = a.2.toList) :
      Spells a (' ' :: (a.1.toList ++ '=' :: q :: (text ++ [q])))

-- An attribute as a tag holds it, with the blank before it.
def attrSpelling (a : String × String) : List Char :=
  ' ' :: (a.1.toList ++ '=' :: (quotedValue (escaped a.2)).toList)

theorem spells_attrSpelling {a : String × String} (h : IsAttrName a.1.toList) :
    Spells a (attrSpelling a) := by
  obtain ⟨q, text, hquoted, hq, htext, hvalue⟩ := exists_quotedValue a.2
  rw [attrSpelling, hquoted]
  exact .quoted h hq htext hvalue

-- The end of a start tag.
inductive IsClose : List Char → Prop
  | opened (rest : List Char) : IsClose ('>' :: rest)
  | closed (rest : List Char) : IsClose ('/' :: '>' :: rest)

theorem value_quoted {q : Char} {text : List Char} (hq : isQuote q = true) (htext : q ∉ text)
    (rest : List Char) : value ('=' :: q :: (text ++ q :: rest)) = (some text, rest) := by
  have hblank : isBlank q = false := by
    simp only [isQuote, Bool.or_eq_true, beq_iff_eq] at hq
    rcases hq with rfl | rfl <;> rfl
  have hequals : (q == '=') = false := by
    simp only [isQuote, Bool.or_eq_true, beq_iff_eq] at hq
    rcases hq with rfl | rfl <;> rfl
  have hsign : isBlank '=' = false := rfl
  simp [value, hsign, hblank, hequals, hq,
    Text.splitAtChar?_append htext]

theorem skipGaps_of_isClose {close : List Char} (h : IsClose close) : skipGaps close = close := by
  cases h with
  | opened rest => rfl
  | closed rest => rfl

theorem attrs_of_isClose {close : List Char} (h : IsClose close) (before : Char) :
    attrs before close = ([], close) := by
  cases h with
  | opened rest => rw [attrs]; simp
  | closed rest => rw [attrs]; simp

theorem skipGaps_of_isBlank {c : Char} (h : isBlank c = true) (cs : List Char) :
    skipGaps (c :: cs) = skipGaps cs := by
  rw [skipGaps.eq_def]
  split
  · rename_i heq
    cases heq
  · rename_i heq
    obtain ⟨rfl, _⟩ := List.cons.inj heq
    exact absurd h (by decide)
  · rename_i heq
    obtain ⟨rfl, rfl⟩ := List.cons.inj heq
    simp [h]

theorem skipGaps_of_not_gap {c : Char} (h : (isBlank c || c == '/') = false) (cs : List Char) :
    skipGaps (c :: cs) = c :: cs := by
  rw [skipGaps.eq_def]
  split
  · rename_i heq
    exact heq.symm
  · rename_i heq
    exact heq.symm
  · rename_i heq
    obtain ⟨rfl, rfl⟩ := List.cons.inj heq
    simp [h]

theorem IsAttrName.skipGaps {name : List Char} (h : IsAttrName name) (rest : List Char) :
    skipGaps (' ' :: (name ++ rest)) = name ++ rest := by
  obtain ⟨c, cs, rfl, hgap, _⟩ := h.shape
  rw [skipGaps_of_isBlank rfl, List.cons_append,
    skipGaps_of_not_gap (Bool.or_eq_false_iff.mp hgap).1]

theorem Spells.skipGaps {a : String × String} {cs : List Char} (h : Spells a cs)
    (rest : List Char) : cs ++ rest = ' ' :: Tag.skipGaps (cs ++ rest) := by
  obtain ⟨hname, _, _, _⟩ := h
  rw [List.cons_append, List.append_assoc, hname.skipGaps]

variable {as : List (String × String)} {spell : String × String → List Char} {close : List Char}

theorem skipGaps_flatMap (hspells : ∀ a ∈ as, Spells a (spell a)) (has : as ≠ [])
    (close : List Char) :
    as.flatMap spell ++ close = ' ' :: skipGaps (as.flatMap spell ++ close) := by
  cases as with
  | nil => exact absurd rfl has
  | cons a as =>
    rw [List.flatMap_cons, List.append_assoc]
    exact (hspells a List.mem_cons_self).skipGaps _

-- The blank before an attribute lets it begin.
theorem opensAttr_lastBefore (hspells : ∀ a ∈ as, Spells a (spell a)) (has : as ≠ [])
    (before : Char) (cs close : List Char) :
    opensAttr (lastBefore before (cs ++ (as.flatMap spell ++ close))
      (skipGaps (as.flatMap spell ++ close))) = true := by
  have hgap := skipGaps_flatMap hspells has close
  generalize Tag.skipGaps (as.flatMap spell ++ close) = rest at hgap ⊢
  have hconsumed := Text.consumed_append (cs ++ [' ']) rest
  rw [List.append_assoc, List.singleton_append] at hconsumed
  rw [hgap, lastBefore, hconsumed]
  simp [opensAttr, isBlank]

-- The attributes that stand in a tag are read back with their values.
theorem attrs_flatMap (hspells : ∀ a ∈ as, Spells a (spell a)) (hclose : IsClose close)
    {before : Char} (hbefore : as ≠ [] → opensAttr before = true) :
    attrs before (skipGaps (as.flatMap spell ++ close)) =
      (as.map fun a => (a.1.toList, some a.2.toList), close) := by
  induction as generalizing before with
  | nil =>
    rw [List.flatMap_nil, List.nil_append, skipGaps_of_isClose hclose, attrs_of_isClose hclose]
    rfl
  | cons a as ih =>
    have hspells' : ∀ b ∈ as, Spells b (spell b) := fun b hb =>
      hspells b (List.mem_cons_of_mem _ hb)
    have hspell := hspells a List.mem_cons_self
    generalize hcs : spell a = cs at hspell
    obtain ⟨hname, hq, htext, hvalue⟩ := hspell
    rename_i q text
    have hspelling : (a :: as).flatMap spell ++ close =
        ' ' :: (a.1.toList ++ '=' :: q :: (text ++ q :: (as.flatMap spell ++ close))) := by
      simp [hcs]
    rw [hspelling, hname.skipGaps]
    obtain ⟨c, cs, hcs, hgap, htail⟩ := hname.shape
    have hlower := hname.lower
    have hequals : isAttrChar '=' = false := rfl
    generalize hafter : as.flatMap spell ++ close = after
    have htake : (cs ++ '=' :: q :: (text ++ q :: after)).takeWhile isAttrChar = cs := by
      rw [List.takeWhile_append_of_pos htail]
      simp [hequals]
    have hdrop : (cs ++ '=' :: q :: (text ++ q :: after)).dropWhile isAttrChar =
        '=' :: q :: (text ++ q :: after) := by
      rw [List.dropWhile_append_of_pos htail]
      simp [hequals]
    have hlast : as ≠ [] → opensAttr (lastBefore before
        (c :: (cs ++ '=' :: q :: (text ++ q :: after))) (Tag.skipGaps after)) = true := by
      intro has
      have := opensAttr_lastBefore hspells' has before
        (c :: (cs ++ '=' :: q :: (text ++ [q]))) close
      simpa [hafter] using this
    have hopens := hbefore (List.cons_ne_nil _ _)
    rw [hcs, List.cons_append, attrs, if_pos (by simp [hopens, hgap])]
    simp only [htake, hdrop, value_quoted hq htext]
    rw [← hafter] at hlast ⊢
    rw [ih hspells' hlast]
    simp [hcs ▸ hlower, hvalue, hcs]

theorem attrs_startTag {name : List Char} (hname : IsName name)
    (hspells : ∀ a ∈ as, Spells a (spell a)) (hclose : IsClose close) :
    (name ++ (as.flatMap spell ++ close)).takeWhile isNameChar = name ∧
      attrs (lastBefore ' ' (name ++ (as.flatMap spell ++ close))
          (skipGaps ((name ++ (as.flatMap spell ++ close)).dropWhile isNameChar)))
        (skipGaps ((name ++ (as.flatMap spell ++ close)).dropWhile isNameChar)) =
      (as.map fun a => (a.1.toList, some a.2.toList), close) := by
  have hend : ∀ c ∈ (as.flatMap spell ++ close).head?, isNameChar c = false := by
    intro c hc
    cases as with
    | nil =>
      cases hclose with
      | opened rest => obtain rfl := Option.some.inj hc; rfl
      | closed rest => obtain rfl := Option.some.inj hc; rfl
    | cons a as =>
      rw [skipGaps_flatMap hspells (List.cons_ne_nil _ _)] at hc
      obtain rfl := Option.some.inj hc
      rfl
  have htake : (name ++ (as.flatMap spell ++ close)).takeWhile isNameChar =
      name ++ (as.flatMap spell ++ close).takeWhile isNameChar :=
    List.takeWhile_append_of_pos hname.chars
  have hdrop : (name ++ (as.flatMap spell ++ close)).dropWhile isNameChar =
      (as.flatMap spell ++ close).dropWhile isNameChar :=
    List.dropWhile_append_of_pos hname.chars
  have hnone : (as.flatMap spell ++ close).takeWhile isNameChar = [] ∧
      (as.flatMap spell ++ close).dropWhile isNameChar = as.flatMap spell ++ close := by
    cases hcs : as.flatMap spell ++ close with
    | nil => exact ⟨rfl, rfl⟩
    | cons c cs =>
      have hc := hend c (by simp [hcs])
      simp [hc]
  rw [hnone.1, List.append_nil] at htake
  rw [hnone.2] at hdrop
  refine ⟨htake, ?_⟩
  rw [hdrop]
  exact attrs_flatMap hspells hclose fun has =>
    opensAttr_lastBefore hspells has ' ' name close

theorem startTag_spelling {name : List Char} (hname : IsName name)
    (hspells : ∀ a ∈ as, Spells a (spell a)) (rest : List Char) :
    startTag (name ++ (as.flatMap spell ++ '>' :: rest)) =
      .token (.startTag name (as.map fun a => (a.1.toList, some a.2.toList))) rest := by
  obtain ⟨htake, hattrs⟩ := attrs_startTag hname hspells (.opened rest)
  simp only [startTag, htake, hattrs, hname.lower]

theorem closedTag_spelling {name : List Char} (hname : IsName name)
    (hspells : ∀ a ∈ as, Spells a (spell a)) (rest : List Char) :
    startTag (name ++ (as.flatMap spell ++ '/' :: '>' :: rest)) =
      .token (.closedTag name (as.map fun a => (a.1.toList, some a.2.toList))) rest := by
  obtain ⟨htake, hattrs⟩ := attrs_startTag hname hspells (.closed rest)
  simp only [startTag, htake, hattrs, hname.lower]

theorem isNameChar_of_not_isReserved {c : Char} (h : Text.Case.isReserved c = false) :
    isNameChar c = true := by
  simp only [Text.Case.isReserved, Bool.or_eq_false_iff, beq_eq_false_iff_ne] at h
  obtain ⟨⟨⟨⟨⟨hblank, hslash⟩, _⟩, hbracket⟩, hnull⟩, _⟩ := h
  have hne : ∀ d : Char, isBlank d = true → c ≠ d := fun d hd hcd => by simp [hcd, hd] at hblank
  have htab := hne '\t' rfl
  have hfeed := hne '\n' rfl
  have hreturn := hne '\r' rfl
  have hform := hne '\x0c' rfl
  have hspace := hne ' ' rfl
  simp [isNameChar, htab, hfeed, hreturn, hform, hspace, hslash, hbracket, hnull]

theorem isAttrChar_of_not_isReserved {c : Char} (h : Text.Case.isReserved c = false) :
    isAttrChar c = true := by
  simp only [Text.Case.isReserved, Bool.or_eq_false_iff] at h
  simp [isAttrChar, h]

theorem ascii_isLetter : ((List.range 128).all fun n =>
    !Reference.isLetter (Char.ofNat n) || Reference.isLetter (Char.ofNat n).toLower) = true := by
  decide +kernel

theorem toNat_lt_of_isLetter {c : Char} (hc : Reference.isLetter c = true) : c.toNat < 128 := by
  simp only [Reference.isLetter, Bool.or_eq_true, Bool.and_eq_true, decide_eq_true_eq,
    Char.le_def] at hc
  have hz : c.val ≤ 'z'.val := by
    rcases hc with hc | hc
    · exact hc.2
    · exact UInt32.le_trans hc.2 (by decide)
  exact Nat.lt_of_le_of_lt (UInt32.le_iff_toNat_le.mp hz) (by decide)

theorem isName_lower {c : Char} {cs : List Char} (hc : Reference.isLetter c = true)
    (hcs : ∀ d ∈ c :: cs, isNameChar d = true) : IsName (Text.Case.lower (c :: cs)) := by
  refine ⟨Text.Case.lower_lower _, ?_, ?_⟩
  · obtain ⟨d, ds, hlower, hd, _⟩ := Text.Case.lower_cons c cs
    have hascii := toNat_lt_of_isLetter hc
    refine ⟨d, by simp [hlower], ?_⟩
    have h := List.all_eq_true.mp ascii_isLetter _ (List.mem_range.mpr hascii)
    rw [Char.ofNat_toNat, hc, ← hd.resolve_right (by omega)] at h
    simpa using h
  · intro d hd
    rcases (Text.Case.lowerFrom_cases hd).2 with hmem | hnot
    · exact hcs d hmem
    · exact isNameChar_of_not_isReserved hnot

theorem isAttrName_lower {c : Char} {cs : List Char}
    (hc : (isBlank c || c == '/' || c == '>') = false) (hcs : ∀ d ∈ cs, isAttrChar d = true) :
    IsAttrName (Text.Case.lower (c :: cs)) := by
  obtain ⟨d, ds, hlower, _, hd, hds⟩ := Text.Case.lower_cons c cs
  refine ⟨Text.Case.lower_lower _, d, ds, hlower, ?_, ?_⟩
  · rcases hd with rfl | hd
    · exact hc
    · simp only [Text.Case.isReserved, Bool.or_eq_false_iff] at hd
      simp [hd]
  · intro e he
    rcases hds e he with hmem | hnot
    · exact hcs e hmem
    · exact isAttrChar_of_not_isReserved hnot

theorem isAttrName_of_mem_attrs {before : Char} {cs : List Char}
    {a : List Char × Option (List Char)} (h : a ∈ (attrs before cs).1) : IsAttrName a.1 := by
  fun_induction attrs before cs with
  | case1 => exact absurd h List.not_mem_nil
  | case2 before c r hopens name v rest _ more finish hmore ih =>
    rcases List.mem_cons.mp h with rfl | h
    · have hgap := ((Bool.and_eq_true _ _).mp hopens).2
      exact isAttrName_lower ((Bool.not_eq_true' _).mp hgap) fun d hd => List.mem_takeWhile_imp hd
    · exact ih (hmore ▸ h)
  | case3 => exact absurd h List.not_mem_nil

theorem isNameChar_of_isLetter {c : Char} (hc : Reference.isLetter c = true) :
    isNameChar c = true := by
  cases hname : isNameChar c with
  | true => rfl
  | false =>
    simp only [isNameChar, Bool.not_eq_false', Bool.or_eq_true, beq_iff_eq] at hname
    rcases hname with ((((((rfl | rfl) | rfl) | rfl) | rfl) | rfl) | rfl) | rfl <;>
      exact absurd hc (by decide)

theorem isName_paragraph : IsName "p".toList :=
  ⟨by decide +kernel, ⟨'p', rfl, rfl⟩, List.all_eq_true.mp rfl⟩

theorem isName_bold : IsName "b".toList :=
  ⟨by decide +kernel, ⟨'b', rfl, rfl⟩, List.all_eq_true.mp rfl⟩

-- What is read as a start tag has names.
theorem isName_of_startTag {c : Char} {r rest : List Char} {t : Token} {name : List Char}
    {as : List (List Char × Option (List Char))} (hc : Reference.isLetter c = true)
    (h : startTag (c :: r) = .token t rest) (ht : t = .startTag name as ∨ t = .closedTag name as) :
    IsName name ∧ ∀ a ∈ as, IsAttrName a.1 := by
  have hparts : name = Text.Case.lower ((c :: r).takeWhile isNameChar) ∧
      ∃ before cs, as = (attrs before cs).1 := by
    unfold startTag at h
    simp only at h
    split at h
    · exact Reading.noConfusion h
    · obtain ⟨rfl, _⟩ := Reading.token.inj h
      rcases ht with ht | ht
      · obtain ⟨rfl, rfl⟩ := Token.startTag.inj ht
        exact ⟨rfl, _, _, rfl⟩
      · exact Token.noConfusion ht
    · obtain ⟨rfl, _⟩ := Reading.token.inj h
      rcases ht with ht | ht
      · exact Token.noConfusion ht
      · obtain ⟨rfl, rfl⟩ := Token.closedTag.inj ht
        exact ⟨rfl, _, _, rfl⟩
    · split at h
      · exact Reading.noConfusion h
      · obtain ⟨rfl, _⟩ := Reading.token.inj h
        rcases ht with ht | ht <;> exact Token.noConfusion ht
  obtain ⟨rfl, before, cs, rfl⟩ := hparts
  refine ⟨?_, fun a ha => isAttrName_of_mem_attrs ha⟩
  rw [List.takeWhile_cons_of_pos (isNameChar_of_isLetter hc)]
  refine isName_lower hc fun d hd => ?_
  rcases List.mem_cons.mp hd with rfl | hd
  · exact isNameChar_of_isLetter hc
  · exact List.mem_takeWhile_imp hd

end MarkupDiff.Markup.Tag

namespace MarkupDiff.Markup.Builder

theorem put_of_notMem {name : String} (value : String) {attrs : List (String × String)}
    (h : ∀ a ∈ attrs, a.1 ≠ name) : attrsOf.put name value attrs = attrs ++ [(name, value)] := by
  induction attrs with
  | nil => rfl
  | cons a attrs ih =>
    have ha := h a List.mem_cons_self
    rw [attrsOf.put, ih fun b hb => h b (List.mem_cons_of_mem _ hb)]
    simp [ha]

-- Attributes of distinct names are kept as they are.
theorem attrsOf_map {as : List (String × String)} (h : (as.map (·.1)).Nodup) :
    attrsOf (as.map fun a => (a.1.toList, some a.2.toList)) = as := by
  suffices hfold : ∀ before : List (String × String), (∀ a ∈ as, ∀ b ∈ before, b.1 ≠ a.1) →
      (as.map fun a => (a.1.toList, some a.2.toList)).foldl
        (fun attrs b => attrsOf.put (.ofList b.1) (.ofList (b.2.getD [])) attrs) before =
      before ++ as from
    hfold [] fun _ _ _ hb => absurd hb List.not_mem_nil
  induction as with
  | nil => simp
  | cons a as ih =>
    intro before hbefore
    rw [List.map_cons, List.nodup_cons] at h
    have hput := put_of_notMem a.2 (hbefore a List.mem_cons_self)
    have hrest := ih h.2 (before ++ [a]) <| by
      intro b hb c hc
      rcases List.mem_append.mp hc with hc | hc
      · exact hbefore b (List.mem_cons_of_mem _ hb) c hc
      · rw [List.mem_singleton.mp hc]
        exact fun heq => h.1 (heq ▸ List.mem_map_of_mem hb)
    rw [List.map_cons, List.foldl_cons]
    simp only [String.ofList_toList, Option.getD_some, hput]
    simpa using hrest

theorem map_fst_put (name value : String) (attrs : List (String × String)) :
    (attrsOf.put name value attrs).map (·.1) =
      if name ∈ attrs.map (·.1) then attrs.map (·.1) else attrs.map (·.1) ++ [name] := by
  induction attrs with
  | nil => rfl
  | cons a attrs ih =>
    rw [attrsOf.put]
    by_cases ha : a.1 = name
    · simp [ha]
    · have ha' : name ≠ a.1 := fun h => ha h.symm
      have hbeq : (a.1 == name) = false := by simpa using ha
      rw [hbeq, if_neg Bool.noConfusion, List.map_cons, ih]
      by_cases hmem : name ∈ attrs.map (·.1) <;> simp [hmem, ha', List.mem_cons]

-- The names of the attributes of an element are distinct and stand in its tag.
theorem names_attrsOf (as : List (List Char × Option (List Char))) :
    ((attrsOf as).map (·.1)).Nodup ∧ ∀ a ∈ attrsOf as, ∃ b ∈ as, a.1 = .ofList b.1 := by
  suffices hfold : ∀ before : List (String × String), (before.map (·.1)).Nodup →
      ((as.foldl (fun attrs b => attrsOf.put (.ofList b.1) (.ofList (b.2.getD [])) attrs)
          before).map (·.1)).Nodup ∧
        ∀ n ∈ (as.foldl (fun attrs b =>
            attrsOf.put (.ofList b.1) (.ofList (b.2.getD [])) attrs) before).map (·.1),
          n ∈ before.map (·.1) ∨ ∃ b ∈ as, n = .ofList b.1 by
    obtain ⟨hnodup, hnames⟩ := hfold [] List.nodup_nil
    exact ⟨hnodup, fun a ha =>
      (hnames a.1 (List.mem_map_of_mem ha)).resolve_left List.not_mem_nil⟩
  induction as with
  | nil => exact fun before h => ⟨h, fun n hn => .inl hn⟩
  | cons a as ih =>
    intro before h
    have hput := map_fst_put (.ofList a.1) (.ofList (a.2.getD [])) before
    have hnodup : ((attrsOf.put (.ofList a.1) (.ofList (a.2.getD [])) before).map (·.1)).Nodup := by
      rw [hput]
      split
      · exact h
      · rename_i hnot
        exact List.nodup_append.mpr ⟨h, by simp, fun x hx y hy hxy =>
          hnot (List.mem_singleton.mp hy ▸ hxy ▸ hx)⟩
    obtain ⟨hrest, hnames⟩ := ih _ hnodup
    refine ⟨hrest, fun n hn => ?_⟩
    rcases hnames n hn with hmem | ⟨b, hb, rfl⟩
    · rw [hput] at hmem
      split at hmem
      · exact .inl hmem
      · rcases List.mem_append.mp hmem with hmem | hmem
        · exact .inl hmem
        · exact .inr ⟨a, List.mem_cons_self, List.mem_singleton.mp hmem⟩
    · exact .inr ⟨b, List.mem_cons_of_mem _ hb, rfl⟩

end MarkupDiff.Markup.Builder
