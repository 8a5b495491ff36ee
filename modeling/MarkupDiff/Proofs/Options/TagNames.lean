import MarkupDiff.Options
import MarkupDiff.Proofs.Text.LowerStrip

namespace MarkupDiff

theorem stripped_stripped (s : String) : stripped (stripped s) = stripped s := by
  rw [stripped, stripped, String.toList_ofList, Text.strip_strip]

theorem lowered_lowered (s : String) : lowered (lowered s) = lowered s := by
  rw [lowered, lowered, String.toList_ofList, Text.Case.lower_lower]

theorem stripped_lowered (s : String) : stripped (lowered s) = lowered (stripped s) := by
  rw [stripped, lowered, lowered, stripped, String.toList_ofList, String.toList_ofList,
    Text.Case.strip_lower]

theorem lowered_eq_empty_iff {s : String} : lowered s = "" ↔ s = "" := by
  rw [lowered, ← String.toList_inj, ← String.toList_inj, String.toList_ofList]
  exact Text.Case.lower_eq_nil_iff

namespace Options

section Sets

variable {tag t : String} {ts us : List String}

theorem mem_insertTag : t ∈ insertTag tag ts ↔ t = tag ∨ t ∈ ts := by
  induction ts with
  | nil => simp [insertTag]
  | cons u ts ih =>
    rw [insertTag]
    split
    · exact List.mem_cons
    · split
      · rename_i heq
        obtain rfl := beq_iff_eq.mp heq
        simp
      · rw [List.mem_cons, ih, List.mem_cons]
        exact or_left_comm

theorem pairwise_insertTag (h : ts.Pairwise (· < ·)) :
    (insertTag tag ts).Pairwise (· < ·) := by
  induction ts with
  | nil => exact List.pairwise_singleton _ _
  | cons u ts ih =>
    obtain ⟨hu, hts⟩ := List.pairwise_cons.mp h
    rw [insertTag]
    split
    · rename_i hlt
      refine List.pairwise_cons.mpr ⟨fun a ha => ?_, h⟩
      rcases List.mem_cons.mp ha with rfl | ha
      · exact hlt
      · exact String.lt_trans hlt (hu a ha)
    · split
      · exact h
      · rename_i hle hne
        have hlt : u < tag := by
          rcases Std.lt_trichotomy u tag with hlt | heq | hgt
          · exact hlt
          · exact absurd heq.symm (by simpa using hne)
          · exact absurd hgt hle
        refine List.pairwise_cons.mpr ⟨fun a ha => ?_, ih hts⟩
        rcases mem_insertTag.mp ha with rfl | ha
        · exact hlt
        · exact hu a ha

theorem mem_tagSet : t ∈ tagSet ts ↔ t ∈ ts := by
  induction ts with
  | nil => rfl
  | cons u ts ih => rw [tagSet, List.foldr_cons, mem_insertTag, List.mem_cons, ← tagSet, ih]

theorem pairwise_tagSet (ts : List String) : (tagSet ts).Pairwise (· < ·) := by
  induction ts with
  | nil => exact List.Pairwise.nil
  | cons u ts ih => exact pairwise_insertTag ih

-- Ascending tags are known by their members.
theorem eq_of_mem_iff (hts : ts.Pairwise (· < ·)) (hus : us.Pairwise (· < ·))
    (h : ∀ t, t ∈ ts ↔ t ∈ us) : ts = us := by
  have hnodup : ∀ {vs : List String}, vs.Pairwise (· < ·) → vs.Nodup := by
    refine fun hvs => List.Pairwise.imp ?_ hvs
    rintro a _ hlt rfl
    exact String.lt_irrefl a hlt
  refine List.Perm.eq_of_pairwise ?_ hts hus
    ((List.perm_ext_iff_of_nodup (hnodup hts) (hnodup hus)).mpr h)
  exact fun a b _ _ hab hba => absurd hba (String.lt_asymm hab)

end Sets

section Names

variable {name name' tag : String} {names names' : List String}

theorem tagName?_eq_some_iff :
    tagName? name = some tag ↔ stripped name ≠ "" ∧ tag = lowered (stripped name) := by
  simp only [tagName?]
  split
  · rename_i hempty
    simp [String.isEmpty_iff.mp hempty]
  · rename_i hne
    have hne : stripped name ≠ "" := mt String.isEmpty_iff.mpr hne
    exact ⟨fun h => ⟨hne, (Option.some.inj h).symm⟩, fun h => congrArg some h.2.symm⟩

-- The usual form of a name is its own usual form.
theorem tagName?_self (h : tagName? name = some tag) : tagName? tag = some tag := by
  obtain ⟨hne, rfl⟩ := tagName?_eq_some_iff.mp h
  have hstripped : stripped (lowered (stripped name)) = lowered (stripped name) := by
    rw [stripped_lowered, stripped_stripped]
  rw [tagName?_eq_some_iff, hstripped, lowered_lowered]
  exact ⟨mt lowered_eq_empty_iff.mp hne, rfl⟩

-- Neither the case of a name counts nor the blanks around it.
theorem tagName?_congr (h : lowered (stripped name) = lowered (stripped name')) :
    tagName? name = tagName? name' := by
  have hempty : stripped name = "" ↔ stripped name' = "" := by
    rw [← lowered_eq_empty_iff, h, lowered_eq_empty_iff]
  refine Option.ext fun tag => ?_
  rw [tagName?_eq_some_iff, tagName?_eq_some_iff, h, Ne, Ne, hempty]

-- The tags that these names stand for.
def namedTags (names : List String) : List String :=
  tagSet (names.filterMap tagName?)

theorem mem_namedTags : tag ∈ namedTags names ↔ ∃ name ∈ names, tagName? name = some tag := by
  rw [namedTags, mem_tagSet, List.mem_filterMap]

theorem namedTags_congr
    (h : ∀ tag, (∃ n ∈ names, tagName? n = some tag) ↔ ∃ n ∈ names', tagName? n = some tag) :
    namedTags names = namedTags names' := by
  refine eq_of_mem_iff (pairwise_tagSet _) (pairwise_tagSet _) fun tag => ?_
  rw [mem_namedTags, mem_namedTags, h]

-- Tags stand for themselves, in whatever order they are named.
theorem namedTags_of_mem_iff (h : ∀ n, n ∈ names ↔ n ∈ namedTags names') :
    namedTags names = namedTags names' := by
  refine namedTags_congr fun tag => ⟨?_, ?_⟩
  · rintro ⟨n, hn, htag⟩
    obtain ⟨m, hm, hname⟩ := mem_namedTags.mp ((h n).mp hn)
    obtain rfl := Option.some.inj ((tagName?_self hname).symm.trans htag)
    exact ⟨m, hm, hname⟩
  · rintro ⟨m, hm, hname⟩
    exact ⟨tag, (h tag).mpr (mem_namedTags.mpr ⟨m, hm, hname⟩), tagName?_self hname⟩

end Names

-- What going through a value yields, where it can be gone through.
inductive Yields : Value → List Value → Prop
  | list (items : List Value) : Yields (.list items) items
  | tuple (items : List Value) : Yields (.tuple items) items
  | set (texts : List String) : Yields (.set texts) (texts.map .text)
  | keys (entries : List (Value × Value)) : Yields (.record entries) (entries.map (·.1))
  | bytes (bs : List UInt8) : Yields (.bytes bs) (bs.map fun b => .nat b.toNat)

theorem tagNames_of_yields {v : Value} {items : List Value} (h : Yields v items) :
    tagNames v = .ok (namedTags (items.map (·.plain))) := by
  have hnames : items.filterMap (fun t => tagName? t.plain) =
      (items.map (·.plain)).filterMap tagName? := by
    simp only [List.filterMap_map, Function.comp_def]
  rw [namedTags, ← hnames]
  cases h <;> rfl

theorem tagNames_of_not_yields {v : Value} (hnull : v ≠ .null) (htext : v.text? = none)
    (h : ∀ items, ¬Yields v items) : tagNames v = .error (.notIterable v.kind) := by
  cases v with
  | null => exact absurd rfl hnull
  | text s | markup s => exact absurd htext (by simp [Value.text?])
  | list items => exact absurd (.list items) (h _)
  | tuple items => exact absurd (.tuple items) (h _)
  | set texts => exact absurd (.set texts) (h _)
  | record entries => exact absurd (.keys entries) (h _)
  | bytes bs => exact absurd (.bytes bs) (h _)
  | _ => rfl

end Options

end MarkupDiff
