import MarkupDiff.Proofs.Node.Tagged
import MarkupDiff.Proofs.Place.Lineage

namespace MarkupDiff

open MarkupDiff.Tree (Root RootLink)
open MarkupDiff.Place (located location chain rootLabel BelongsTo Traced LastRecord Longest)

-- Each element of the fragment has a tag, which is not taken for what a location reads at the top.
def Fragment.Headed (f : Fragment) : Prop :=
  ∀ tag attrs children, Node.Below (.element tag attrs children) f →
    ∃ c cs, tag.toList = c :: cs ∧ c ≠ '#'

theorem Fragment.headed_of_ofMarkup {markup : String} {f : Fragment}
    (h : Fragment.ofMarkup markup = .ok f) : f.Headed := by
  intro tag attrs children hbelow
  obtain ⟨as, hproper, -⟩ := Fragment.isProper_of_ofMarkup h hbelow
  obtain ⟨c, hc, hletter⟩ := hproper.name.head
  obtain ⟨rest, hrest⟩ := List.head?_eq_some_iff.mp hc
  refine ⟨c, rest, hrest, ?_⟩
  rintro rfl
  exact absurd hletter (by decide)

theorem Fragment.Headed.normal {f : Fragment} (h : f.Headed) (o : Options) :
    (f.normal o).Headed := by
  intro tag attrs children hbelow
  obtain ⟨as, cs, hbelow⟩ := Node.below_of_below_settled hbelow
  exact h tag as cs hbelow

-- Two selectors are never joined to what a location reads at the top, which holds no space.
theorem Place.chain_eq_rootLabel_iff {labels : List String} :
    chain labels = rootLabel ↔ labels = [] ∨ labels = [rootLabel] := by
  constructor
  · intro h
    match labels with
    | [] => exact .inl rfl
    | [label] =>
      have hchain : chain [label] = " > ".intercalate [label] := rfl
      rw [hchain, String.intercalate_singleton] at h
      exact .inr (by rw [h])
    | label :: next :: labels =>
      have hspace : ' ' ∈ (chain (label :: next :: labels)).toList := by
        have hchain : chain (label :: next :: labels) =
          " > ".intercalate (label :: next :: labels) := rfl
        rw [hchain, String.intercalate_cons_cons]
        simp
      rw [h] at hspace
      exact absurd hspace (by decide)
  · rintro (rfl | rfl) <;> rfl

-- The object at the end of a path and the text that describes where it is: the object is the last
-- record on the longest beginning of the path that exists, and the text is made of the selectors of
-- the elements that the links back lead through, from the object or from the element whose
-- attribute it is.
structure Place.Describes (start : Value) (path : Path) (target : Place) (labels : List String) :
    Prop where
  located : located start path = .ok target
  longest : ∃ before places, Longest (.root start) path before places ∧
    LastRecord target (.root start :: places)
  location : location start path = .ok (chain labels)
  traced : ∃ node, BelongsTo target node ∧ Traced node labels

-- The walk to an object and the walk that describes where it is agree. A location reads like that
-- of the fragment itself if there are no elements on the way, and otherwise only if the one there
-- is has a selector that reads so, as no tag that is read from markup allows. Where one walk fails,
-- on a step that cannot be a key, so does the other.
theorem location_describes_located {f : Fragment} {link : List (Value × Value)}
    (hlink : RootLink link) {path : Path} (hpath : ∀ s ∈ path, s.text? ≠ some "parent") :
    let v := (Root.fragment f).recordWith link
    ((∃ target labels, Place.Describes v path target labels ∧
        (chain labels = rootLabel ↔ labels = [] ∨ labels = [rootLabel]) ∧
        (f.Headed → (chain labels = rootLabel ↔ labels = []))) ∨
      ∃ fault, located v path = .error fault ∧ location v path = .error fault ∧
        ∃ s ∈ path, ¬s.IsKey) ∧
    (∀ markup, Fragment.ofMarkup markup = .ok f → f.Headed) ∧
    ∀ o, f.Headed → (f.normal o).Headed := by
  intro v
  refine ⟨?_, fun markup h => Fragment.headed_of_ofMarkup h, fun o h => h.normal o⟩
  have hstart : Place.Along (.fragment f) link (.root v) (.root v) [] :=
    .node .root (Place.Stands.traced_root hlink)
  rcases hstart.run hlink hpath with ⟨w, labels, node, hw, hselectors, hheads, hbelongs, htraced⟩ |
    ⟨fault, hw, hselectors, hkey⟩
  · have htarget : located v path = .ok w.target := by
      rw [located, Place.walk, hw]
      rfl
    have hrecord : LastRecord (.root v) [.root v] := ⟨trivial, [], [], rfl, by simp⟩
    have hheaded : f.Headed → labels ≠ [rootLabel] := by
      rintro hf rfl
      obtain ⟨tag, attrs, children, marks, hbelow, hlabel⟩ := hheads _ List.mem_cons_self
      obtain ⟨c, cs, htag, hc⟩ := hf tag attrs children hbelow
      have htext := congrArg String.toList hlabel
      rw [String.toList_append, htag] at htext
      exact hc (List.cons.inj htext).1.symm
    refine .inl ⟨w.target, labels, ⟨htarget, Place.walkFrom_target hrecord hw,
      Place.Leads.location_of_selectors hselectors, node, hbelongs, htraced⟩,
      Place.chain_eq_rootLabel_iff, fun hf => ?_⟩
    rw [Place.chain_eq_rootLabel_iff, or_iff_left (hheaded hf)]
  · refine .inr ⟨fault, ?_, ?_, hkey⟩
    · rw [located, Place.walk, hw]
      rfl
    · rw [location, hselectors]
      rfl

-- Steps are left over after the title of a paragraph, which is described by where the paragraph is.
theorem location_describes_title :
    let f : Fragment := [.element "p" [⟨"title", "x"⟩] []]
    let v := (Root.fragment f).recordWith []
    let path : Path := ["children", .nat 0, "attrs", .nat 0, "value", .nat 0]
    RootLink [] ∧ (∀ s ∈ path, s.text? ≠ some "parent") ∧ f.Headed ∧
      location v path = .ok "p" ∧ ∃ target labels, Place.Describes v path target labels ∧
        (chain labels = rootLabel ↔ labels = []) := by
  intro f v path
  have hlink : RootLink [] := .inl rfl
  have hpath : ∀ s ∈ path, s.text? ≠ some "parent" := by
    simp [path, Value.text?, Value.nat, Value.int]
  have hf : f.Headed := by
    intro tag attrs children hbelow
    obtain ⟨rfl, -, -⟩ : tag = "p" ∧ attrs = [⟨"title", "x"⟩] ∧ children = [] := by
      simpa [f] using hbelow
    exact ⟨'p', [], rfl, by decide⟩
  refine ⟨hlink, hpath, hf, rfl, ?_⟩
  rcases (location_describes_located hlink hpath).1 with ⟨target, labels, hdescribes, -, hroot⟩ |
    ⟨fault, hfault, -⟩
  · exact ⟨target, labels, hdescribes, hroot hf⟩
  · obtain ⟨target, htarget⟩ : ∃ target, located v path = .ok target := ⟨_, rfl⟩
    exact absurd (htarget.symm.trans hfault) (by simp)

-- An element whose tag is what a location reads at the top is described as if it were the top.
theorem location_of_element_like_root :
    let f : Fragment := [.element rootLabel [] []]
    let v := (Root.fragment f).recordWith []
    ∃ target, located v ["children", .nat 0] = .ok target ∧ BelongsTo target target ∧
      Traced target [rootLabel] ∧ location v ["children", .nat 0] = .ok rootLabel := by
  intro f v
  have hlink : RootLink [] := .inl rfl
  have hroot : Place.Stands (.fragment f) [] (.root v) (.fragment f) := .root
  have htraced : Traced _ [rootLabel] := hroot.traced_child (i := 0) hlink rfl rfl
    (Place.Stands.traced_root hlink) "children"
  exact ⟨_, rfl, .node rfl, htraced, rfl⟩

end MarkupDiff
