import MarkupDiff.Proofs.Options.TagNames
import Mathlib.Logic.Relation

namespace MarkupDiff

namespace Options

variable {names names' : List String} {config config' v : Value} {o : Options}

-- What a value that is given for tags comes to. Null names none, a text is refused, and so is what
-- cannot be gone through. Anything else names the tags that its items are, in lower case, without
-- the blanks around them, and without those that are nothing but blanks.
inductive Gives : Value → Except Fault Options → Prop
  | null : Gives .null (.ok {})
  | text {v : Value} {s : String} (h : v.text? = some s) : Gives v (.error .tagsAsText)
  | single {v : Value} (hnull : v ≠ .null) (htext : v.text? = none)
      (h : ∀ items, ¬Yields v items) : Gives v (.error (.notIterable v.kind))
  | tags {v : Value} {items : List Value} {o : Options} (h : Yields v items)
      (hmem : ∀ tag, tag ∈ o.ignoredTags ↔
        ∃ t ∈ items, stripped t.plain ≠ "" ∧ tag = lowered (stripped t.plain))
      (hascending : o.ignoredTags.Pairwise (· < ·)) : Gives v (.ok o)

theorem ofTags_of_yields {items : List Value} (h : Yields v items) :
    ofTags v = .ok ⟨namedTags (items.map (·.plain))⟩ := by
  rw [ofTags, tagNames_of_yields h]
  rfl

theorem gives_ofTags (v : Value) : Gives v (ofTags v) := by
  by_cases hyields : ∃ items, Yields v items
  · obtain ⟨items, hitems⟩ := hyields
    rw [ofTags_of_yields hitems]
    exact .tags hitems (fun _ => by simp [mem_namedTags, tagName?_eq_some_iff]) (pairwise_tagSet _)
  · have hyields : ∀ items, ¬Yields v items := fun items h => hyields ⟨items, h⟩
    cases htext : v.text? with
    | some s =>
      have hrefused : ofTags v = .error .tagsAsText := by
        cases v <;> first | rfl | exact absurd htext (by simp [Value.text?])
      exact hrefused ▸ .text htext
    | none =>
      by_cases hnull : v = .null
      · subst hnull
        exact .null
      · rw [ofTags, tagNames_of_not_yields hnull htext hyields]
        exact .single hnull htext hyields

-- A value comes to one thing only.
theorem Gives.unique {r r' : Except Fault Options} (h : Gives v r) (h' : Gives v r') : r = r' := by
  have htext : ∀ {w s items}, Value.text? w = some s → ¬Yields w items := by
    intro w s items hw hitems
    cases hitems <;> exact absurd hw (by simp [Value.text?])
  cases h with
  | null =>
    cases h' with
    | null => rfl
    | text h => exact absurd h (by simp [Value.text?])
    | single hnull _ _ => exact absurd rfl hnull
    | tags h _ _ => cases h
  | text hs =>
    cases h' with
    | null => exact absurd hs (by simp [Value.text?])
    | text _ => rfl
    | single _ hnone _ => exact absurd (hs.symm.trans hnone) (by simp)
    | tags h _ _ => exact absurd h (htext hs)
  | single hnull hnone hyields =>
    cases h' with
    | null => exact absurd rfl hnull
    | text hs => exact absurd (hs.symm.trans hnone) (by simp)
    | single _ _ _ => rfl
    | tags h _ _ => exact absurd h (hyields _)
  | @tags _ items o hitems hmem hascending =>
    cases h' with
    | null => cases hitems
    | text hs => exact absurd hitems (htext hs)
    | single _ _ hyields => exact absurd hitems (hyields _)
    | @tags _ items' o' hitems' hmem' hascending' =>
      have hsame : items = items' := by
        cases hitems <;> cases hitems' <;> rfl
      subst hsame
      have htags := eq_of_mem_iff hascending hascending' fun tag => (hmem tag).trans (hmem' tag).symm
      cases o
      cases o'
      exact congrArg Except.ok (congrArg Options.mk htags)

-- The two spellings of the only option.
def NamesTags (key : Value) : Prop :=
  key.text? = some "ignored_tags" ∨ key.text? = some "ignoredTags"

theorem isTagsKey_iff {key : Value} : isTagsKey key = true ↔ NamesTags key := by
  simp [isTagsKey, NamesTags, Value.isText]

-- What the entries of a record come to, in their order. The first key that is not known is refused,
-- whatever else there is. Otherwise the last value counts.
inductive Resolves : List (Value × Value) → Except Fault Options → Prop
  | unknown {before after : List (Value × Value)} {k v : Value}
      (hbefore : ∀ e ∈ before, NamesTags e.1) (hk : ¬NamesTags k) :
      Resolves (before ++ (k, v) :: after) (.error (.unknownOption k))
  | empty : Resolves [] (.ok {})
  | last {before : List (Value × Value)} {k v : Value} {r : Except Fault Options}
      (hbefore : ∀ e ∈ before, NamesTags e.1) (hk : NamesTags k) (h : Gives v r) :
      Resolves (before ++ [(k, v)]) r

theorem ofEntries_known {before : List (Value × Value)} {k : Value}
    (hbefore : ∀ e ∈ before, NamesTags e.1) (hk : NamesTags k) :
    ofEntries (before ++ [(k, v)]) = ofTags v := by
  have hnone : (before ++ [(k, v)]).find? (fun e => !isTagsKey e.1) = none := by
    rw [List.find?_eq_none]
    intro e he
    rcases List.mem_append.mp he with he | he
    · simp [isTagsKey_iff.mpr (hbefore e he)]
    · rw [List.mem_singleton.mp he]
      simp [isTagsKey_iff.mpr hk]
  rw [ofEntries, hnone]
  simp

theorem ofEntries_unknown {before after : List (Value × Value)} {k : Value}
    (hbefore : ∀ e ∈ before, NamesTags e.1) (hk : ¬NamesTags k) :
    ofEntries (before ++ (k, v) :: after) = .error (.unknownOption k) := by
  have hfind : (before ++ (k, v) :: after).find? (fun e => !isTagsKey e.1) = some (k, v) := by
    rw [List.find?_eq_some_iff_append]
    refine ⟨?_, before, after, rfl, fun e he => ?_⟩
    · simpa using mt isTagsKey_iff.mp hk
    · simpa using isTagsKey_iff.mpr (hbefore e he)
  rw [ofEntries, hfind]

theorem exists_unknown {es : List (Value × Value)} (h : ¬∀ e ∈ es, NamesTags e.1) :
    ∃ before k v after, es = before ++ (k, v) :: after ∧ (∀ e ∈ before, NamesTags e.1) ∧
      ¬NamesTags k := by
  induction es with
  | nil => exact absurd (by simp) h
  | cons e es ih =>
    by_cases he : NamesTags e.1
    · have hes : ¬∀ e ∈ es, NamesTags e.1 := fun hall => h (List.forall_mem_cons.mpr ⟨he, hall⟩)
      obtain ⟨before, k, v, after, rfl, hbefore, hk⟩ := ih hes
      exact ⟨e :: before, k, v, after, rfl, List.forall_mem_cons.mpr ⟨he, hbefore⟩, hk⟩
    · exact ⟨[], e.1, e.2, es, rfl, by simp, he⟩

theorem resolve_record_iff {es : List (Value × Value)} {r : Except Fault Options} :
    resolve (.record es) = r ↔ Resolves es r := by
  have hresolve : resolve (.record es) = ofEntries es := rfl
  rw [hresolve]
  constructor
  · rintro rfl
    by_cases hall : ∀ e ∈ es, NamesTags e.1
    · cases es using List.reverseRecOn with
      | nil => exact .empty
      | append_singleton before e _ =>
        obtain ⟨k, v⟩ := e
        have hbefore : ∀ e ∈ before, NamesTags e.1 := fun e he =>
          hall e (List.mem_append_left _ he)
        have hk : NamesTags k := hall (k, v) (by simp)
        rw [ofEntries_known hbefore hk]
        exact .last hbefore hk (gives_ofTags v)
    · obtain ⟨before, k, v, after, rfl, hbefore, hk⟩ := exists_unknown hall
      rw [ofEntries_unknown hbefore hk]
      exact .unknown hbefore hk
  · intro h
    cases h with
    | unknown hbefore hk => exact ofEntries_unknown hbefore hk
    | empty => rfl
    | last hbefore hk h =>
      rw [ofEntries_known hbefore hk]
      exact (gives_ofTags _).unique h

-- The names that a value given for tags consists of.
inductive Collects : Value → List String → Prop
  | null : Collects .null []
  | items {v : Value} {items : List Value} (h : Yields v items) :
      Collects v (items.map (·.plain))

theorem Collects.tagNames_eq (h : Collects v names) : tagNames v = .ok (namedTags names) := by
  cases h with
  | null => rfl
  | items h => exact tagNames_of_yields h

-- The names that a configuration gives for its tags, under either spelling of the option. Options
-- that have been made before are made out of such names as well.
inductive Configures : Value → List String → Prop
  | null : Configures .null []
  | empty : Configures (.record []) []
  | record {before : List (Value × Value)} {k v : Value} {names : List String}
      (hbefore : ∀ e ∈ before, NamesTags e.1) (hk : NamesTags k) (h : Collects v names) :
      Configures (.record (before ++ [(k, v)])) names
  | options {v : Value} {names ts : List String} (h : Collects v names)
      (hts : tagNames v = .ok ts) : Configures (.options ts) names

theorem Configures.resolve_eq (h : Configures config names) :
    resolve config = .ok ⟨namedTags names⟩ := by
  cases h with
  | null => rfl
  | empty => rfl
  | record hbefore hk h =>
    change ofEntries _ = _
    rw [ofEntries_known hbefore hk, ofTags, h.tagNames_eq]
    rfl
  | options h hts =>
    obtain rfl := Except.ok.inj (hts.symm.trans h.tagNames_eq)
    rfl

theorem exists_configures {es : List (Value × Value)} (h : resolve (.record es) = .ok o) :
    ∃ names, Configures (.record es) names := by
  cases resolve_record_iff.mp h with
  | empty => exact ⟨_, .empty⟩
  | last hbefore hk hgives =>
    cases hgives with
    | null => exact ⟨_, .record hbefore hk .null⟩
    | tags hitems _ _ => exact ⟨_, .record hbefore hk (.items hitems)⟩

theorem exists_namedTags {ts : List String} (h : tagNames v = .ok ts) :
    ∃ names, ts = namedTags names := by
  have hgives := gives_ofTags v
  rw [ofTags, h] at hgives
  cases hgives with
  | null => exact ⟨[], rfl⟩
  | tags hitems _ _ => exact ⟨_, Except.ok.inj (h.symm.trans (tagNames_of_yields hitems))⟩

-- One step between names that stand for the same tags: another order, one name less of two, another
-- case of a name, other blanks around it, or one blank name less.
inductive Move : List String → List String → Prop
  | order {names names' : List String} (h : names.Perm names') : Move names names'
  | repetition {name : String} {names : List String} (h : name ∈ names) :
      Move (name :: names) names
  | case {name name' : String} (names : List String) (h : lowered name = lowered name') :
      Move (name :: names) (name' :: names)
  | blanks {name name' : String} (names : List String) (h : stripped name = stripped name') :
      Move (name :: names) (name' :: names)
  | blank {name : String} (names : List String) (h : stripped name = "") :
      Move (name :: names) names

-- The names differ in their order, in repetitions, case and blanks.
def Alike : List String → List String → Prop :=
  Relation.EqvGen Move

theorem Move.namedTags_eq (h : Move names names') : namedTags names = namedTags names' := by
  have hhead : ∀ {name name' : String} {names : List String}, tagName? name = tagName? name' →
      namedTags (name :: names) = namedTags (name' :: names) := by
    intro name name' names heq
    rw [namedTags, namedTags, List.filterMap_cons, List.filterMap_cons, heq]
  cases h with
  | order h => exact namedTags_congr fun tag => by simp only [h.mem_iff]
  | @repetition name _ h =>
    refine namedTags_congr fun tag => ⟨?_, List.exists_mem_cons_of_exists⟩
    rintro ⟨n, hn, htag⟩
    rcases List.mem_cons.mp hn with rfl | hn
    · exact ⟨n, h, htag⟩
    · exact ⟨n, hn, htag⟩
  | case _ h =>
    exact hhead (tagName?_congr (by rw [← stripped_lowered, h, stripped_lowered]))
  | blanks _ h => exact hhead (tagName?_congr (by rw [h]))
  | blank _ h =>
    have hnone : ∀ name : String, stripped name = "" → tagName? name = none := by
      intro name hname
      rw [tagName?, hname]
      rfl
    rw [namedTags, List.filterMap_cons, hnone _ h]
    rfl

theorem Alike.namedTags_eq (h : Alike names names') : namedTags names = namedTags names' := by
  induction h with
  | rel _ _ hmove => exact hmove.namedTags_eq
  | refl _ => rfl
  | symm _ _ _ ih => exact ih.symm
  | trans _ _ _ _ _ ih₁ ih₂ => exact ih₁.trans ih₂

-- Tags that are named once more are the same tags, in whatever order that is.
theorem ofTags_again {items : List Value} (hv : Yields v items)
    (h : ∀ n, n ∈ items.map (·.plain) ↔ n ∈ namedTags names) :
    ofTags v = .ok ⟨namedTags names⟩ := by
  rw [ofTags_of_yields hv, namedTags_of_mem_iff h]

end Options

end MarkupDiff
