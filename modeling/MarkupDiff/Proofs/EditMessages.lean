import MarkupDiff.Proofs.Difference.Edits
import MarkupDiff.Proofs.Difference.Objects
import MarkupDiff.Proofs.Place.Description

namespace MarkupDiff

open MarkupDiff.Tree (Root RootLink childLink normalizeIgnoring)
open MarkupDiff.Place (Leads located)

-- The text can be read in the description.
def Mentions (description text : String) : Prop :=
  ∃ front back, description = front ++ text ++ back

theorem Attr.mentions_name (a : Attr) : Mentions a.described a.name :=
  ⟨"attribute [", "=\"" ++ a.value ++ "\"]", by simp only [described, String.append_assoc]⟩

theorem Attr.mentions_value (a : Attr) : Mentions a.described a.value :=
  ⟨"attribute [" ++ a.name ++ "=\"", "\"]", rfl⟩

namespace Change

-- The report of an edit calls what stands on either side by different names, and the texts that
-- have been edited can be read there, unless they are the types of two nodes.
def ShownEdited (left right : Value) (path : Path) (v w : Value) : Prop :=
  ∃ p q old new place, located left path = .ok p ∧ located right path = .ok q ∧
    p.description = .ok old ∧ q.description = .ok new ∧ old ≠ new ∧
    Report.ofChange left right (.edited path v w) =
      .ok ⟨old ++ " has changed to " ++ new, place⟩ ∧
    ∃ key s s', path.getLast? = some (.text key) ∧ v = .text s ∧ w = .text s' ∧
      (key = "type" ∨
        key ∈ ["tag", "content", "name", "value"] ∧ Mentions old s ∧ Mentions new s')

theorem shown_of_leads {l r : Value} {path : Path} {p q : Place} {labels labels' : List String}
    {key s s' old new : String} (hl : Leads l path p p labels) (hr : Leads r path q q labels')
    (hs : p.focus.field? key = some (.text s)) (hs' : q.focus.field? key = some (.text s'))
    (hold : p.description = .ok old) (hnew : q.description = .ok new) (hne : old ≠ new)
    (hkey : key = "type" ∨
      key ∈ ["tag", "content", "name", "value"] ∧ Mentions old s ∧ Mentions new s') :
    ShownEdited l r (path ++ [.text key]) (.text s) (.text s') := by
  obtain ⟨hp, hat⟩ := hl.step_off (Place.step?_field hs (by simp)) (by simp [Place.IsRecord])
  obtain ⟨hq, -⟩ := hr.step_off (Place.step?_field hs' (by simp)) (by simp [Place.IsRecord])
  let c : Change := .edited (path ++ [.text key]) (.text s) (.text s')
  have hmessage : c.toEntry.message p q = .ok (old ++ " has changed to " ++ new) := by
    change (do return (← p.description) ++ " has changed to " ++ (← q.description)) = _
    rw [hold, hnew]
    rfl
  refine ⟨p, q, old, new, Place.chain labels, hp, hq, hold, hnew, hne, ?_, key, s, s', by simp,
    rfl, rfl, hkey⟩
  have hfull : c.fullPath = path ++ [.text key] := rfl
  have hpath : c.toEntry.path = path ++ [.text key] := rfl
  change Report.ofChange l r c = _
  rw [Report.ofChange, hfull, hpath, hp, hq, hat]
  simp only [bind, Except.bind, hmessage]
  rfl

end Change

namespace Tree.Root

variable {t u : Root} {s s' : String}

theorem described_of_tag? (h : t.tag? = some s) : t.described = "tag <" ++ s ++ ">" := by
  match t with
  | .node (.element tag _ _) =>
    obtain rfl := Option.some.inj h
    rfl
  | .fragment _ | .node (.text _) | .node (.comment _) => exact absurd h (by simp [tag?])

theorem described_of_content? (h : t.content? = some s) :
    t.described = t.typeName ++ " \"" ++ s ++ "\"" := by
  match t with
  | .node (.text _) | .node (.comment _) =>
    obtain rfl := Option.some.inj h
    rfl
  | .fragment _ | .node (.element _ _ _) => exact absurd h (by simp [content?])

theorem Named.of_attrs? {as : List Attr} {a : Attr} (h : t.Named) (has : t.attrs? = some as)
    (ha : a ∈ as) : a.Named := by
  match t with
  | .node (.element tag attrs children) =>
    obtain rfl := Option.some.inj has
    exact h tag attrs children (.here List.mem_cons_self) a ha
  | .fragment _ | .node (.text _) | .node (.comment _) => exact absurd has (by simp [attrs?])

-- A walk along the path ends at a record of the tree.
def FoundAt (t : Root) (l : Value) (path : Path) : Prop :=
  ∃ p labels link, Leads l path p p labels ∧ (RootLink link ∨ link = childLink) ∧
    p.focus = t.recordWith link

namespace FoundAt

variable {l r : Value} {path : Path} {i : Nat} {key : String}

theorem child {ns : List Node} {n : Node} (h : t.FoundAt l path) (hns : t.children? = some ns)
    (hn : ns[i]? = some n) : (node n).FoundAt l (path ++ [.text "children", .nat i]) := by
  obtain ⟨p, labels, link, hl, hlink, hp⟩ := h
  have hfield : p.focus.field? "children" = some (.list (Node.toValues ns)) := by
    rw [hp, field?_children hlink, hns]
    rfl
  exact ⟨_, _, childLink, hl.child hfield hn, .inr rfl, n.recordWith_owner.symm⟩

theorem exists_attr {as : List Attr} {a : Attr} (h : t.FoundAt l path) (has : t.attrs? = some as)
    (ha : as[i]? = some a) :
    ∃ p labels, p.focus = a.toValue ∧ Leads l (path ++ [.text "attrs", .nat i]) p p labels := by
  obtain ⟨p, labels, link, hl, hlink, hp⟩ := h
  have hfield : p.focus.field? "attrs" = some (.list (as.map Attr.toValue)) := by
    rw [hp, field?_attrs hlink, has]
    rfl
  obtain ⟨x, hx, hleads⟩ := Change.leads_attr hl hfield ha
  exact ⟨x, labels, hx, by simpa using hleads⟩

theorem shown (hl : t.FoundAt l path) (hr : u.FoundAt r path)
    (hs : ∀ link, RootLink link ∨ link = childLink →
      (t.recordWith link).field? key = some (.text s))
    (hs' : ∀ link, RootLink link ∨ link = childLink →
      (u.recordWith link).field? key = some (.text s'))
    (hne : t.described ≠ u.described)
    (hkey : key = "type" ∨ key ∈ ["tag", "content", "name", "value"] ∧
      Mentions t.described s ∧ Mentions u.described s') :
    Change.ShownEdited l r (path ++ [.text key]) (.text s) (.text s') := by
  obtain ⟨p, labels, link, hl, hlink, hp⟩ := hl
  obtain ⟨q, labels', link', hr, hlink', hq⟩ := hr
  exact Change.shown_of_leads hl hr (hp ▸ hs link hlink) (hq ▸ hs' link' hlink')
    (Place.description_of_tree hlink hp) (Place.description_of_tree hlink' hq) hne hkey

theorem shown_attr {as bs : List Attr} {a b : Attr} (hl : t.FoundAt l path)
    (hr : u.FoundAt r path) (ht : t.Named) (hu : u.Named) (has : t.attrs? = some as)
    (hbs : u.attrs? = some bs) (ha : as[i]? = some a) (hb : bs[i]? = some b)
    (hs : a.toValue.field? key = some (.text s)) (hs' : b.toValue.field? key = some (.text s'))
    (hne : ¬(a.name = b.name ∧ a.value = b.value)) (hkey : key ∈ ["name", "value"])
    (hold : Mentions a.described s) (hnew : Mentions b.described s') :
    Change.ShownEdited l r (path ++ [.text "attrs", .nat i] ++ [.text key]) (.text s)
      (.text s') := by
  obtain ⟨p, labels, hp, hlp⟩ := hl.exists_attr has ha
  obtain ⟨q, labels', hq, hrq⟩ := hr.exists_attr hbs hb
  have hna := ht.of_attrs? has (List.mem_of_getElem? ha)
  have hnb := hu.of_attrs? hbs (List.mem_of_getElem? hb)
  exact Change.shown_of_leads hlp hrq (hp ▸ hs) (hq ▸ hs') (Place.description_of_attr hp)
    (Place.description_of_attr hq) (fun heq => hne (Attr.eq_of_described_eq hna hnb heq))
    (.inr ⟨List.mem_cons_of_mem _ (List.mem_cons_of_mem _ hkey), hold, hnew⟩)

end FoundAt

-- Wherever two trees hold different texts, this is shown. The induction follows the way there.
theorem Edited.shown {path : Path} {key : String} (h : Edited t u path key s s')
    (ht : t.Named) (hu : u.Named) {l r : Value} {before : Path} (hl : t.FoundAt l before)
    (hr : u.FoundAt r before) :
    Change.ShownEdited l r (before ++ path ++ [.text key]) (.text s) (.text s') := by
  induction h generalizing before with
  | kind hne =>
    rw [List.append_nil]
    exact hl.shown hr (fun link _ => field?_type link) (fun link _ => field?_type link)
      (described_ne_of_typeName_ne hne) (.inl rfl)
  | tag htag htag' hne =>
    have hd := described_of_tag? htag
    have hd' := described_of_tag? htag'
    rw [List.append_nil]
    refine hl.shown hr (fun _ hlink => by rw [field?_tag hlink, htag]; rfl)
      (fun _ hlink => by rw [field?_tag hlink, htag']; rfl) ?_
      (.inr ⟨by simp, ⟨_, _, hd⟩, ⟨_, _, hd'⟩⟩)
    rw [hd, hd']
    simpa using hne
  | @content t u _ _ hcontent hcontent' hne =>
    have hd := described_of_content? hcontent
    have hd' := described_of_content? hcontent'
    rw [List.append_nil]
    refine hl.shown hr (fun _ hlink => by rw [field?_content hlink, hcontent]; rfl)
      (fun _ hlink => by rw [field?_content hlink, hcontent']; rfl) ?_
      (.inr ⟨by simp, ⟨_, _, hd⟩, ⟨_, _, hd'⟩⟩)
    by_cases htype : t.typeName = u.typeName
    · rw [hd, hd', htype]
      simpa using hne
    · exact described_ne_of_typeName_ne htype
  | @name _ _ _ _ _ a b has hbs ha hb hne =>
    exact hl.shown_attr hr ht hu has hbs ha hb rfl rfl (fun heq => hne heq.1) (by simp)
      a.mentions_name b.mentions_name
  | @value _ _ _ _ _ a b has hbs ha hb hne =>
    exact hl.shown_attr hr ht hu has hbs ha hb rfl rfl (fun heq => hne heq.2) (by simp)
      a.mentions_value b.mentions_value
  | child hns hms hn hm _ ih =>
    have hshown := ih (ht.child hns (List.mem_of_getElem? hn))
      (hu.child hms (List.mem_of_getElem? hm)) (hl.child hns hn) (hr.child hms hm)
    simpa using hshown

end Tree.Root

-- The message about an edit always shows one. Once two trees have been normalized alike, whatever
-- their records have led back to before, the report of every edit between them calls the two sides
-- by different names, if no name of an attribute is empty or holds an equals sign after its first
-- character. So it is in every tree that is read from markup. If a tag, a content, or the name or
-- value of an attribute has been edited, the old and the new one can be read in the message.
theorem edit_message_shows_edit :
    (∀ (tags v w : Value) (o : Options) (link link' : List (Value × Value)) (t u : Root),
      Options.ofTags tags = .ok o → RootLink link → RootLink link' →
      t.Recorded link v → u.Recorded link' w → (t.normal o).Named → (u.normal o).Named →
        ∃ l r, normalizeIgnoring tags v = ⟨l, none⟩ ∧ normalizeIgnoring tags w = ⟨r, none⟩ ∧
          ∀ path old new, .edited path old new ∈ structuralDiff l r ignoringParent →
            Change.ShownEdited l r path old new) ∧
    ∀ markup f o, Fragment.ofMarkup markup = .ok f → ((Root.fragment f).normal o).Named := by
  refine ⟨?_, fun markup f o h => (Fragment.named_of_ofMarkup h).normal o⟩
  intro tags v w o link link' t u htags hlink hlink' hv hw ht hu
  have hl := Tree.normalizeIgnoring_eq htags (hlink.imp id fun h => ⟨_, h⟩) hv
  have hr := Tree.normalizeIgnoring_eq htags (hlink'.imp id fun h => ⟨_, h⟩) hw
  refine ⟨_, _, hl, hr, fun path old new hedited => ?_⟩
  obtain ⟨steps, key, s, s', htexts, rfl, rfl, rfl⟩ :=
    Change.exists_edited_of_between (.inl hlink) (.inl hlink') hedited
  exact htexts.shown ht hu ⟨_, _, _, Leads.refl _, .inl hlink, rfl⟩
    ⟨_, _, _, Leads.refl _, .inl hlink', rfl⟩

-- Both the name and the values of an attribute look like what stands between them.
theorem edit_message_shows_equals_signs :
    let t : Root := .node (.element "p" [⟨"=a", "b"⟩] [])
    let u : Root := .node (.element "p" [⟨"=a", "=\"b"⟩] [])
    let path : Path := ["attrs", .nat 0, "value"]
    Options.ofTags .null = .ok {} ∧ RootLink [] ∧ t.Recorded [] (t.recordWith []) ∧
      u.Recorded [] (u.recordWith []) ∧ (t.normal {}).Named ∧ (u.normal {}).Named ∧
      ∃ l r, normalizeIgnoring .null (t.recordWith []) = ⟨l, none⟩ ∧
        normalizeIgnoring .null (u.recordWith []) = ⟨r, none⟩ ∧
        .edited path "b" "=\"b" ∈ structuralDiff l r ignoringParent ∧
        Change.ShownEdited l r path "b" "=\"b" := by
  intro t u path
  have htags : Options.ofTags .null = .ok {} := rfl
  have hlink : RootLink [] := .inl rfl
  have hnormal : ∀ a : Attr, a.name ≠ "class" → (Root.node (.element "p" [a] [])).normal {} =
      .node (.element "p" [a] []) := by
    intro a ha
    have hsorted : Attr.sorted [a] = [a] := by simp [Attr.sorted, Attr.canonical, ha]
    change Root.node (.element "p" (Attr.sorted [a]) []) = _
    rw [hsorted]
  have hnamed : ∀ value, (Root.node (.element "p" [⟨"=a", value⟩] [])).Named := by
    intro value tag attrs children hbelow a ha
    obtain ⟨rfl, rfl, rfl⟩ : tag = "p" ∧ attrs = [⟨"=a", value⟩] ∧ children = [] := by
      simpa [Root.nodes] using hbelow
    obtain rfl := List.mem_singleton.mp ha
    exact ⟨'=', ['a'], by simp, by decide⟩
  have ht : t.normal {} = t := hnormal _ (by decide)
  have hu : u.normal {} = u := hnormal _ (by decide)
  have hv := Root.recorded_recordWith [] t
  have hw := Root.recorded_recordWith [] u
  have hnt : (t.normal {}).Named := by rw [ht]; exact hnamed _
  have hnu : (u.normal {}).Named := by rw [hu]; exact hnamed _
  obtain ⟨l, r, hl, hr, hshown⟩ := edit_message_shows_edit.1 .null _ _ {} [] [] t u htags hlink
    hlink hv hw hnt hnu
  have hleft := Tree.normalizeIgnoring_eq htags (.inl rfl) hv
  have hright := Tree.normalizeIgnoring_eq htags (.inl rfl) hw
  obtain ⟨rfl, -⟩ := Tree.Attempt.mk.inj (hl.symm.trans hleft)
  obtain ⟨rfl, -⟩ := Tree.Attempt.mk.inj (hr.symm.trans hright)
  have hedited : .edited path "b" "=\"b" ∈ structuralDiff ((t.normal {}).recordWith [])
      ((u.normal {}).recordWith []) ignoringParent := by
    rw [ht, hu]
    simp [structuralDiff, t, u, path, Root.recordWith, Node.recordWith, Node.toValues,
      Change.between_record, Change.inEntries, Change.foreign, ignoringParent_text, Value.lookup,
      Value.equal_text, Change.between_text, Change.between_list, Change.inItems,
      Change.between_attr, Change.ofTexts, Change.surplus]
  exact ⟨htags, hlink, hv, hw, hnt, hnu, _, _, hl, hr, hedited, hshown _ _ _ hedited⟩

end MarkupDiff
