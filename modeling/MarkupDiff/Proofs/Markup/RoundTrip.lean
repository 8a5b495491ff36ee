import MarkupDiff.Proofs.Markup.Building
import MarkupDiff.Proofs.Markup.Spelling

namespace MarkupDiff.Markup

mutual

-- An item whose spelling is read back: names and contents are kept apart from the marks around
-- them.
def Item.Spellable : Item → Prop
  | .element tag attrs children =>
    Tag.IsProper tag attrs ∧ Construct.endTagTokens tag.toList = [.endTag tag.toList] ∧
      (voidElements.contains tag = true → children = []) ∧
      (Scan.rawElements.contains tag = true → children = [] ∨
        ∃ s, children = [.text s] ∧ Scan.RawText tag.toList s.toList) ∧
      Item.AllSpellable children
  | .text _ => True
  | .aside kind s => kind.Fits s.toList ∧ kind ≠ .declaration

def Item.AllSpellable : List Item → Prop
  | [] => True
  | i :: is => Item.Spellable i ∧ Item.AllSpellable is

end

namespace Builder

def addAll (b : Builder) (is : List Item) : Builder :=
  is.foldl add b

-- Takes an item where it is written: text goes on, anything else ends the text before it.
def take (b : Builder) : Item → Builder
  | .text s => b.extend s.toList
  | i => (b.flush .text).add (i.joined (keeps b.opened))

def takeAll (b : Builder) (is : List Item) : Builder :=
  is.foldl take b

variable {b : Builder}

@[simp] theorem closed_add (b : Builder) (i : Item) : (b.add i).closed = b.closed := by
  unfold Builder.add
  split <;> rfl

@[simp] theorem closed_flush (b : Builder) (make : String → Item) :
    (b.flush make).closed = b.closed := by
  unfold Builder.flush
  split
  · rfl
  · rw [closed_add]

@[simp] theorem closed_take (b : Builder) (i : Item) : (b.take i).closed = b.closed := by
  cases i with
  | text s => exact closed_extend b s.toList
  | element tag attrs children => simp [take]
  | aside kind s => simp [take]

@[simp] theorem closed_takeAll (b : Builder) (is : List Item) :
    (b.takeAll is).closed = b.closed := by
  induction is generalizing b with
  | nil => rfl
  | cons i is ih => exact (ih (b := b.take i)).trans (closed_take b i)

theorem addAll_append (b : Builder) (is js : List Item) :
    b.addAll (is ++ js) = (b.addAll is).addAll js :=
  List.foldl_append

theorem clear_of_pending (h : b.pending = none) : { b with pending := none } = b := by
  obtain ⟨done, opened, pending, closed⟩ := b
  obtain rfl : pending = none := h
  rfl

theorem flush_eq_addAll (h : b.pending ≠ some []) :
    b.flush .text = addAll { b with pending := none }
      (Item.settledItems (keeps b.opened) (b.pending.getD [])) := by
  unfold Builder.flush Item.settledItems
  cases hpending : b.pending with
  | none => exact (clear_of_pending hpending).symm
  | some text =>
    have htext : text ≠ [] := fun htext => h (htext ▸ hpending)
    simp [htext, addAll, settled_eq]

-- What has been taken is added joined.
theorem flush_takeAll (h : b.pending ≠ some []) (is : List Item) :
    (b.takeAll is).flush .text = addAll { b with pending := none }
      (Item.joinedAll (keeps b.opened) (b.pending.getD []) is) := by
  induction is generalizing b with
  | nil => exact flush_eq_addAll h
  | cons i is ih =>
    have hother : ∀ i : Item, (∀ s, i ≠ .text s) →
        ((b.take i).takeAll is).flush .text = addAll { b with pending := none }
          (Item.settledItems (keeps b.opened) (b.pending.getD []) ++
            i.joined (keeps b.opened) :: Item.joinedAll (keeps b.opened) [] is) := by
      intro i hi
      have htake : b.take i = (b.flush .text).add (i.joined (keeps b.opened)) := by
        cases i with
        | text s => exact absurd rfl (hi s)
        | element tag attrs children => rfl
        | aside kind s => rfl
      have hpending : (b.take i).pending = none := by rw [htake, pending_add, pending_flush]
      have hkeeps : keeps (b.take i).opened = keeps b.opened := by
        rw [htake, keeps_add, keeps_flush]
      rw [ih (by simp [hpending]), clear_of_pending hpending, hpending, hkeeps, htake,
        flush_eq_addAll h, List.append_cons, addAll_append, addAll_append]
      rfl
    cases i with
    | text s =>
      have hpending : (b.extend s.toList).pending ≠ some [] := by
        cases s.toList with
        | nil => exact h
        | cons c cs => simp [extend, push]
      have hclear : { b.extend s.toList with pending := none } = { b with pending := none } := by
        cases s.toList <;> rfl
      change ((b.extend s.toList).takeAll is).flush .text = _
      rw [ih hpending, hclear, opened_extend, pending_extend]
      rfl
    | element tag attrs children => exact hother _ (by simp)
    | aside kind s => exact hother _ (by simp)

theorem apart_eq_take (b : Builder) (kind : Aside) (s : String) :
    b.apart kind s.toList = b.take (.aside kind s) :=
  apart_eq_add b kind s.toList

theorem addAll_opened {o : Open} {os : List Open} (h : b.opened = o :: os) (is : List Item) :
    b.addAll is = { b with opened := { o with children := is.reverse ++ o.children } :: os } := by
  induction is generalizing b o with
  | nil =>
    obtain ⟨done, opened, pending, closed⟩ := b
    obtain rfl : opened = o :: os := h
    rfl
  | cons i is ih =>
    have hadd : b.add i = { b with opened := { o with children := i :: o.children } :: os } := by
      simp [add, h]
    have hrest := ih (b := b.add i) (o := { o with children := i :: o.children }) (by rw [hadd])
    rw [addAll, List.foldl_cons]
    refine hrest.trans ?_
    rw [hadd]
    simp

-- Where an element has begun and its children have been taken, its end tag adds it.
theorem endTag_takeAll {tag : String} {attrs : List (String × String)} {children : List Item}
    (hclosed : b.closed = []) (hpending : b.pending = none) :
    (({ b with opened := { tag, attrs } :: b.opened } : Builder).takeAll children).token
        (.endTag tag.toList) =
      b.add (.element tag attrs
        (Item.joinedAll (keepsBlanks tag || keeps b.opened) [] children)) := by
  have hbegun : ({ b with opened := { tag, attrs } :: b.opened } : Builder).pending ≠ some [] := by
    simp [hpending]
  have hflush := flush_takeAll hbegun children
  rw [addAll_opened rfl] at hflush
  have hclose := close_of_head (congrArg Builder.opened hflush)
  have hnone : (({ b with opened := { tag, attrs } :: b.opened } : Builder).takeAll
      children).closed = [] := by
    rw [closed_takeAll]
    exact hclosed
  simp only [Builder.token, hnone, String.ofList_toList, List.contains_nil, Bool.false_eq_true,
    if_false]
  rw [hclose, hflush]
  obtain ⟨done, opened, pending, closed⟩ := b
  obtain rfl : pending = none := hpending
  simp only [pop, List.append_nil, List.reverse_reverse]
  rfl

theorem closedTag_eq_take {tag : String} {attrs : List (String × String)}
    (h : Tag.IsProper tag attrs) :
    b.token (.closedTag tag.toList (attrs.map fun a => (a.1.toList, some a.2.toList))) =
      b.take (.element tag attrs []) := by
  simp only [Builder.token, start, attrsOf_map h.nodup, String.ofList_toList]
  rfl

theorem startTag_eq {tag : String} {attrs : List (String × String)} (h : Tag.IsProper tag attrs)
    (hvoid : voidElements.contains tag = false) :
    b.token (.startTag tag.toList (attrs.map fun a => (a.1.toList, some a.2.toList))) =
      { b.flush .text with opened := { tag, attrs } :: (b.flush .text).opened } := by
  simp only [Builder.token, start, attrsOf_map h.nodup, String.ofList_toList, hvoid,
    Bool.false_eq_true, if_false]

theorem endTag_eq_take {tag : String} {attrs : List (String × String)} {children : List Item}
    (hclosed : b.closed = []) :
    (({ b.flush .text with opened := { tag, attrs } :: (b.flush .text).opened } :
      Builder).takeAll children).token (.endTag tag.toList) =
        b.take (.element tag attrs children) := by
  rw [endTag_takeAll (by rw [closed_flush, hclosed]) (pending_flush b .text), keeps_flush]
  rfl

end Builder

namespace Item

open Scan (fed)
open Builder (keeps)

theorem bracket_notMem_of_isName {name : List Char} (h : Tag.IsName name) : '>' ∉ name :=
  fun hmem => absurd (h.chars '>' hmem) (by decide)

theorem fed_aside (b : Builder) {kind : Aside} {s : String} (h : (aside kind s).Spellable)
    (rest : List Char) :
    fed b .markup (asideSpelling kind s.toList ++ rest) =
      fed (b.take (aside kind s)) .markup rest := by
  obtain ⟨hfits, hkind⟩ := h
  rw [← Builder.apart_eq_take]
  cases kind with
  | comment =>
    have hfed := Scan.fed_declaration b (Construct.declaration_comment hfits rest) rfl
    simpa [asideSpelling, Builder.token] using hfed
  | doctype =>
    have hfed := Scan.fed_declaration b (Construct.declaration_doctype hfits rest) rfl
    simpa [asideSpelling, Builder.token] using hfed
  | characterData =>
    have hfed := Scan.fed_declaration b (Construct.declaration_characterData hfits rest) rfl
    rw [Builder.token, Construct.declared_characterData] at hfed
    simpa [asideSpelling] using hfed
  | declaration => exact absurd rfl hkind
  | instruction =>
    have hfed := Scan.fed_instruction b hfits rest
    simpa [asideSpelling, Builder.token] using hfed

mutual

theorem fed_spelling (i : Item) (h : i.Spellable) (b : Builder) (hclosed : b.closed = [])
    (rest : List Char) :
    fed b .markup (spelling false i ++ rest) = fed (b.take i) .markup rest := by
  cases i with
  | text s => exact Scan.fed_escaped b s.toList rest
  | aside kind s => exact fed_aside b h rest
  | element tag attrs children =>
    obtain ⟨htag, hend, hvoid, hraw, hchildren⟩ := h
    have hspells : ∀ a ∈ attrs, Tag.Spells a (Tag.attrSpelling a) := fun a ha =>
      Tag.spells_attrSpelling (htag.names a ha)
    by_cases hempty : (children.isEmpty && voidElements.contains tag) = true
    · obtain rfl := List.isEmpty_iff.mp ((Bool.and_eq_true _ _).mp hempty).1
      have hspelling : spelling false (element tag attrs []) ++ rest =
          '<' :: (tag.toList ++ (attrs.flatMap Tag.attrSpelling ++ '/' :: '>' :: rest)) := by
        rw [spelling, if_pos hempty]
        simp
      rw [hspelling, Scan.fed_closedTag b htag.name hspells, Builder.closedTag_eq_take htag]
    · have hspelling : spelling false (element tag attrs children) ++ rest =
          '<' :: (tag.toList ++ (attrs.flatMap Tag.attrSpelling ++
            '>' :: (spellingAll (Scan.rawElements.contains tag) children ++
              '<' :: '/' :: (tag.toList ++ '>' :: rest)))) := by
        rw [spelling, if_neg hempty]
        simp
      have hnotVoid : voidElements.contains tag = false := by
        rw [← Bool.not_eq_true]
        intro hcontains
        rw [hvoid hcontains, hcontains] at hempty
        exact hempty rfl
      rw [hspelling, Scan.fed_startTag b htag.name hspells,
        Builder.startTag_eq htag hnotVoid, ← Builder.endTag_eq_take hclosed, String.ofList_toList]
      have hbegun : ({ b.flush .text with opened := { tag, attrs } :: (b.flush .text).opened } :
          Builder).closed = [] := by
        rw [← hclosed]
        exact Builder.closed_flush b .text
      generalize ({ b.flush .text with opened := { tag, attrs } :: (b.flush .text).opened } :
        Builder) = begun at hbegun ⊢
      by_cases hcontains : Scan.rawElements.contains tag = true
      · obtain ⟨text, htext, hspell, htake⟩ : ∃ text, Scan.RawText tag.toList text ∧
            spellingAll true children = text ∧ begun.takeAll children = begun.extend text := by
          rcases hraw hcontains with rfl | ⟨s, rfl, hs⟩
          · exact ⟨[], .last Scan.hasNoEnd_nil, rfl, rfl⟩
          · exact ⟨s.toList, hs, by simp [spellingAll, spelling], rfl⟩
        rw [hcontains, if_pos rfl, hspell, htake]
        exact Scan.fed_raw (Scan.isRawName_of_contains hcontains) htext begun rest
      · have hcontains : Scan.rawElements.contains tag = false := by simpa using hcontains
        rw [hcontains, if_neg Bool.false_ne_true, fed_spellingAll children hchildren begun hbegun,
          Scan.fed_endTag _ (bracket_notMem_of_isName htag.name) hend]

theorem fed_spellingAll (is : List Item) (h : AllSpellable is) (b : Builder)
    (hclosed : b.closed = []) (rest : List Char) :
    fed b .markup (spellingAll false is ++ rest) = fed (b.takeAll is) .markup rest := by
  cases is with
  | nil => rfl
  | cons i is =>
    have hhead := fed_spelling i h.1 b hclosed (spellingAll false is ++ rest)
    have htail := fed_spellingAll is h.2 (b.take i) (by rw [Builder.closed_take, hclosed]) rest
    rw [spellingAll, List.append_assoc, hhead, htail]
    rfl

end

theorem addAll_done {b : Builder} (h : b.opened = []) (is : List Item) :
    b.addAll is = { b with done := is.reverse ++ b.done } := by
  induction is generalizing b with
  | nil => rfl
  | cons i is ih =>
    have hadd : b.add i = { b with done := i :: b.done } := by simp [Builder.add, h]
    have hrest := ih (b := b.add i) (by rw [hadd]; exact h)
    rw [Builder.addAll, List.foldl_cons]
    refine hrest.trans ?_
    rw [hadd]
    simp

-- A document that the first reading takes item by item is read as this document with its texts
-- joined.
theorem items_of_fed {cs : List Char} {is : List Item} {mode : Scan.Mode}
    (h : fed {} .markup cs = .ok (Builder.takeAll {} is, mode, [])) :
    items (.ofList cs) = .ok (joinedAll false [] is) := by
  rw [Scan.fed] at h
  cases hrun : Scan.run false .markup cs with
  | error problem => rw [hrun] at h; cases h
  | ok r =>
    obtain ⟨ts, mode', rest⟩ := r
    rw [hrun] at h
    obtain ⟨htokens, hrest⟩ := Prod.mk.inj (Except.ok.inj h)
    obtain ⟨hmode, hrest⟩ := Prod.mk.inj hrest
    obtain rfl : rest = [] := hrest
    have hflush := Builder.flush_takeAll (b := {}) (by simp) is
    rw [addAll_done rfl] at hflush
    have hfinish : ofTokens ts = joinedAll false [] is := by
      have htokens : ts.foldl Builder.token {} = Builder.takeAll {} is := htokens
      rw [ofTokens, htokens, Builder.finish, hflush]
      simp [Builder.popMany, keeps]
    rw [items, String.toList_ofList, tokens_eq_of_run hrun]
    exact congrArg Except.ok hfinish

-- The spelling of a document reads as the document with its texts joined.
theorem items_spellingAll {is : List Item} (h : AllSpellable is) :
    items (.ofList (spellingAll false is)) = .ok (joinedAll false [] is) := by
  have hfed := fed_spellingAll is h {} rfl []
  rw [List.append_nil, Scan.fed_nil] at hfed
  exact items_of_fed hfed

theorem items_of_spelling {is : List Item} {s : String} (h : AllSpellable is)
    (hspelling : spellingAll false is = s.toList) (hjoined : joinedAll false [] is = is) :
    items s = .ok is := by
  have hitems := items_spellingAll h
  rwa [hspelling, hjoined, String.ofList_toList] at hitems

-- An element without content is read with its attributes, however these are spelled.
theorem items_childless {tag : String} {attrs : List (String × String)}
    {spell : String × String → List Char} (htag : Tag.IsProper tag attrs)
    (hspells : ∀ a ∈ attrs, Tag.Spells a (spell a))
    (hend : Construct.endTagTokens tag.toList = [.endTag tag.toList]) (hvoid : tag ∉ voidElements)
    (hraw : tag ∉ Scan.rawElements) :
    items (.ofList ('<' :: (tag.toList ++ (attrs.flatMap spell ++
      '>' :: '<' :: '/' :: (tag.toList ++ ['>']))))) = .ok [element tag attrs []] := by
  have hvoid : voidElements.contains tag = false := by simpa using hvoid
  have hraw : Scan.rawElements.contains tag = false := by simpa using hraw
  have hfed : fed {} .markup ('<' :: (tag.toList ++ (attrs.flatMap spell ++
      '>' :: '<' :: '/' :: (tag.toList ++ ['>'])))) =
        .ok (Builder.takeAll {} [element tag attrs []], .markup, []) := by
    have htake := @Builder.endTag_eq_take {} tag attrs [] rfl
    rw [Scan.fed_startTag {} htag.name hspells, Builder.startTag_eq htag hvoid,
      String.ofList_toList, hraw, if_neg Bool.false_ne_true,
      Scan.fed_endTag _ (bracket_notMem_of_isName htag.name) hend, Scan.fed_nil]
    exact congrArg (fun b => Except.ok (b, Scan.Mode.markup, [])) htake
  exact items_of_fed hfed

-- An element without attributes.
theorem spellable_bare {tag : String} {children : List Item} (hname : Tag.IsName tag.toList)
    (hend : Construct.endTagTokens tag.toList = [.endTag tag.toList]) (hvoid : tag ∉ voidElements)
    (hraw : tag ∉ Scan.rawElements) (h : AllSpellable children) :
    (Item.element tag [] children).Spellable :=
  ⟨⟨hname, by simp, by simp⟩, hend, fun hmem => absurd (List.contains_iff_mem.mp hmem) hvoid,
    fun hmem => absurd (List.contains_iff_mem.mp hmem) hraw, h⟩

theorem spellable_paragraph {children : List Item} (h : AllSpellable children) :
    (Item.element "p" [] children).Spellable :=
  spellable_bare Tag.isName_paragraph (by decide +kernel) (by decide) (by decide) h

theorem spellable_bold {children : List Item} (h : AllSpellable children) :
    (Item.element "b" [] children).Spellable :=
  spellable_bare Tag.isName_bold (by decide +kernel) (by decide) (by decide) h

theorem map_fst_encodingAttrs (tag : String) (attrs : List (String × String)) :
    (encodingAttrs tag attrs).map (·.1) = attrs.map (·.1) := by
  have hmap : ∀ (name : String) (f : String → String),
      (attrs.map fun a => if a.1 == name then (a.1, f a.2) else a).map (·.1) =
        attrs.map (·.1) := by
    intro name f
    rw [List.map_map]
    apply List.map_congr_left
    intro a _
    simp only [Function.comp]
    split <;> rfl
  unfold encodingAttrs
  simp only
  split
  · rfl
  · split
    · exact hmap "charset" fun _ => encodingName
    · split
      · exact hmap "content" withEncoding
      · rfl

theorem map_fst_spelledAttrs (tag : String) (attrs : List (String × String)) :
    ((spelledAttrs tag attrs).map (·.1)).Perm (attrs.map (·.1)) := by
  rw [spelledAttrs, List.map_map, ← map_fst_encodingAttrs tag attrs]
  exact (List.mergeSort_perm _ _).map _

theorem isProper_spelledAttrs {tag : String} {attrs : List (String × String)}
    (h : Tag.IsProper tag attrs) : Tag.IsProper tag (spelledAttrs tag attrs) := by
  have hperm := map_fst_spelledAttrs tag attrs
  refine ⟨h.name, fun a ha => ?_, hperm.nodup_iff.mpr h.nodup⟩
  have hmem := hperm.subset (List.mem_map_of_mem ha)
  obtain ⟨c, hc, hname⟩ := List.mem_map.mp hmem
  rw [← hname]
  exact h.names c hc

theorem allSpellable_append {is js : List Item} :
    AllSpellable (is ++ js) ↔ AllSpellable is ∧ AllSpellable js := by
  induction is with
  | nil => simp [AllSpellable]
  | cons i is ih => simp [AllSpellable, ih, and_assoc]

-- An item whose end tag is read as such, whose lists of words but the class are written with
-- single spaces, whose raw text does not end early, and whose declarations do not hold the end of
-- an instruction.
def Writable : Item → Prop
  | element tag attrs children =>
    Construct.endTagTokens tag.toList = [.endTag tag.toList] ∧
      (∀ a ∈ attrs, a.1 ≠ "class" → isWordList tag a.1 = true →
        " ".intercalate (wordsOf a.2) = a.2) ∧
      (Scan.rawElements.contains tag = true → ∀ s, text s ∈ children →
        Scan.RawText tag.toList s.toList)
  | text _ => True
  | aside kind s => kind = .declaration → '>' ∉ s.toList

-- A document that can be written out: its items can, and its canonical spelling holds no markers.
structure WritableDocument (is : List Item) : Prop where
  items : ∀ i, Within i is → i.Writable
  markers : withoutMarkers (printedAll false is).toList = (printedAll false is).toList

mutual

-- Without markers an item is as it can be read, if raw text without them does not end early.
theorem allProper_unmarked (keep : Bool) (i : Item) (h : i.Proper keep)
    (hwritable : ∀ j, Within j (unmarked false i) → j.Writable) :
    AllProper keep (unmarked false i) := by
  cases i with
  | text s => exact ⟨h, trivial⟩
  | aside kind s =>
    cases kind with
    | comment =>
      rw [unmarked]
      split
      · trivial
      · exact ⟨h, trivial⟩
    | _ => exact ⟨h, trivial⟩
  | element tag attrs children =>
    obtain ⟨htag, hvoid, hraw, hcalm⟩ := h
    refine ⟨⟨htag, ?_, ?_, ?_⟩, trivial⟩
    · intro hcontains
      rw [hvoid hcontains]
      rfl
    · intro hcontains
      have hearly := (hwritable _ (.here List.mem_cons_self)).2.2 hcontains
      rcases hraw hcontains with rfl | ⟨s, rfl, _⟩
      · exact .inl rfl
      · exact .inr ⟨_, rfl, hearly _ List.mem_cons_self⟩
    · intro hcontains
      have hinside : ∀ j, Within j (unmarkedAll false children) → j.Writable := fun j hj =>
        hwritable j (.inside List.mem_cons_self (hcontains ▸ hj))
      exact hcontains ▸ allProper_unmarkedAll _ children (hcalm hcontains) hinside

theorem allProper_unmarkedAll (keep : Bool) (is : List Item) (h : AllProper keep is)
    (hwritable : ∀ j, Within j (unmarkedAll false is) → j.Writable) :
    AllProper keep (unmarkedAll false is) := by
  cases is with
  | nil => trivial
  | cons i is =>
    have hhead := allProper_unmarked keep i h.1 fun j hj =>
      hwritable j (within_append.mpr (.inl hj))
    have htail := allProper_unmarkedAll keep is h.2 fun j hj =>
      hwritable j (within_append.mpr (.inr hj))
    exact allProper_append.mpr ⟨hhead, htail⟩

end

mutual

theorem allSpellable_lined (keep : Bool) (i : Item) (h : i.Proper keep)
    (hwritable : ∀ j, Within j [i] → j.Writable) :
    AllSpellable (lined (mapAttrs spelledAttrs i)) := by
  cases i with
  | text s => exact ⟨trivial, trivial⟩
  | aside kind s =>
    cases kind with
    | declaration =>
      have hbracket := hwritable _ (.here List.mem_cons_self) rfl
      exact ⟨⟨by simpa [Aside.Fits] using hbracket, by simp⟩, trivial⟩
    | doctype => exact ⟨⟨h, by simp⟩, trivial, trivial⟩
    | _ => exact ⟨⟨h, by simp⟩, trivial⟩
  | element tag attrs children =>
    obtain ⟨htag, hvoid, hraw, hcalm⟩ := h
    refine ⟨⟨isProper_spelledAttrs htag, (hwritable _ (.here List.mem_cons_self)).1, ?_, ?_, ?_⟩,
      trivial⟩
    · intro hcontains
      rw [hvoid hcontains]
      rfl
    · intro hcontains
      rcases hraw hcontains with rfl | ⟨s, rfl, hs⟩
      · exact .inl rfl
      · exact .inr ⟨s, rfl, hs⟩
    · by_cases hcontains : Scan.rawElements.contains tag = true
      · rcases hraw hcontains with rfl | ⟨s, rfl, _⟩
        · trivial
        · exact ⟨trivial, trivial⟩
      · exact allSpellable_linedAll _ children (hcalm (Bool.not_eq_true _ ▸ hcontains)) fun j hj =>
          hwritable j (.inside List.mem_cons_self hj)

theorem allSpellable_linedAll (keep : Bool) (is : List Item) (h : AllProper keep is)
    (hwritable : ∀ j, Within j is → j.Writable) :
    AllSpellable (linedAll (mapAttrsAll spelledAttrs is)) := by
  cases is with
  | nil => trivial
  | cons i is =>
    have hhead := allSpellable_lined keep i h.1 fun j hj =>
      hwritable j (within_cons.mpr (.inl hj))
    have htail := allSpellable_linedAll keep is h.2 fun j hj =>
      hwritable j (within_cons.mpr (.inr hj))
    exact allSpellable_append.mpr ⟨hhead, htail⟩

end

theorem allSpellable_trimmedStart {is : List Item} (h : AllSpellable is) :
    AllSpellable (trimmedStart is) := by
  induction is with
  | nil => exact h
  | cons i is ih =>
    cases i with
    | text s =>
      rw [trimmedStart]
      split
      · exact ih h.2
      · exact ⟨trivial, h.2⟩
    | element tag attrs children => exact h
    | aside kind s => exact h

theorem allSpellable_trimmedEnd {is : List Item} (h : AllSpellable is) :
    AllSpellable (trimmedEnd is) := by
  induction is with
  | nil => exact h
  | cons i is ih =>
    rw [trimmedEnd]
    split
    · cases i with
      | text s =>
        rw [lastTrimmed]
        split
        · trivial
        · exact ⟨trivial, trivial⟩
      | element tag attrs children => exact ⟨h.1, trivial⟩
      | aside kind s => exact ⟨h.1, trivial⟩
    · rename_i hrest
      exact ⟨h.1, hrest ▸ ih h.2⟩

-- The canonical spelling of a document, without markers and without blanks around it, is read as
-- the document without markers respelled.
theorem items_sanitize_printedAll {is : List Item} (h : AllProper false is)
    (hwritable : WritableDocument (unmarkedAll false is)) :
    items (sanitize (printedAll false is)) = .ok (joinedAll false []
      (trimmed (linedAll (mapAttrsAll spelledAttrs (unmarkedAll false is))))) := by
  have hproper := allProper_unmarkedAll false is h hwritable.items
  have hspellable := allSpellable_linedAll false _ hproper hwritable.items
  have hunmarked := withoutMarkers_printedAll false is h [] []
  rw [List.nil_append, List.append_nil, List.nil_append, List.append_nil] at hunmarked
  rw [sanitize, hunmarked, hwritable.markers, toList_printedAll, strip_spellingAll]
  exact items_spellingAll (allSpellable_trimmedEnd (allSpellable_trimmedStart hspellable))

end Item

end MarkupDiff.Markup
