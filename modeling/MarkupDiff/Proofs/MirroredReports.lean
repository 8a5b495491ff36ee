import MarkupDiff.Proofs.Difference.Mirrored
import MarkupDiff.Proofs.Difference.Objects
import MarkupDiff.Proofs.Sameness

namespace MarkupDiff

-- Two sentences that tell of one change from its two sides, with the same descriptions.
inductive MirroredMessages : String → String → Prop
  | removed {v : Value} {d : String} (hv : v.Described d) :
      MirroredMessages (d ++ " has been removed") (d ++ " has been added")
  | added {v : Value} {d : String} (hv : v.Described d) :
      MirroredMessages (d ++ " has been added") (d ++ " has been removed")
  | changed {v w : Value} {d e : String} (hv : v.Described d) (hw : w.Described e) :
      MirroredMessages (d ++ " has changed to " ++ e) (e ++ " has changed to " ++ d)

theorem Value.Described.unique {v : Value} {d e : String} (hd : v.Described d)
    (he : v.Described e) : d = e := by
  have hplace := Place.description_eq (p := .root v) hd
  rw [Place.description_eq (p := .root v) he] at hplace
  exact (Except.ok.inj hplace).symm

theorem Change.Told.mirrored {c : Change} {old new : Value} {m m' : String}
    (h : c.Told old new m) (h' : c.mirrored.Told new old m') : MirroredMessages m m' := by
  cases h with
  | edited hold hnew =>
    cases h' with
    | edited hnew' hold' =>
      rw [hnew'.unique hnew, hold'.unique hold]
      exact .changed hold hnew
  | removedKey hold =>
    cases h' with
    | addedKey hold' => exact hold.unique hold' ▸ .removed hold
  | addedKey hnew =>
    cases h' with
    | removedKey hnew' => exact hnew.unique hnew' ▸ .added hnew
  | removedItem hold =>
    cases h' with
    | addedItem hold' => exact hold.unique hold' ▸ .removed hold
  | addedItem hnew =>
    cases h' with
    | removedItem hnew' => exact hnew.unique hnew' ▸ .added hnew

-- Both sides find what a change is about at the same path, so they call it alike.
theorem Change.Reported.mirrored {l r : Value} {labels labels' : List String} {c : Change}
    (h : c.Reported l r labels) (h' : c.mirrored.Reported r l labels') :
    ∃ there back, Report.ofChange l r c = .ok there ∧ Report.ofChange r l c.mirrored = .ok back ∧
      MirroredMessages there.message back.message := by
  obtain ⟨old, new, m, hold, hnew, hreport, _, htold⟩ := h
  obtain ⟨new', old', m', hnew', hold', hreport', _, htold'⟩ := h'
  rw [fullPath_mirrored] at hnew' hold'
  obtain rfl := Except.ok.inj (hold.symm.trans hold')
  obtain rfl := Except.ok.inj (hnew.symm.trans hnew')
  exact ⟨_, _, hreport, hreport', htold.mirrored htold'⟩

namespace Fragment

-- Two fragments that differ are reported in both directions, in mirrored sentences.
theorem exists_mirrored_reports {o : Options} {f g : Fragment} (h : f.normal o ≠ g.normal o) :
    ∃ there back, firstDifference o f g = .ok (some there) ∧
      firstDifference o g f = .ok (some back) ∧
      MirroredMessages there.message back.message := by
  obtain ⟨c, cs, hcs⟩ := List.exists_cons_of_ne_nil (mt changes_eq_nil_iff.mp h)
  have hfirst := firstMirrored_changes (f.normal o) (g.normal o)
  rw [hcs] at hfirst
  obtain ⟨ds, hds⟩ := hfirst.exists_cons
  obtain ⟨labels, hthere⟩ := reported_of_mem_changes (hcs ▸ List.mem_cons_self)
  obtain ⟨labels', hback⟩ := reported_of_mem_changes (hds ▸ List.mem_cons_self)
  obtain ⟨there, back, hthere, hback, hmessages⟩ := hthere.mirrored hback
  exact ⟨there, back, firstDifference_of_changes hcs hthere, firstDifference_of_changes hds hback,
    hmessages⟩

end Fragment

-- Comparing two values the other way round finds a difference exactly when comparing them does.
-- What is removed in one direction is added in the other, and what has changed has changed back,
-- under the same descriptions.
theorem reports_mirror_each_other {config left right : Value} {o : Options} {f g : Fragment}
    (hconfig : Options.resolve config = .ok o) (hf : Fragment.read left = .ok f)
    (hg : Fragment.read right = .ok g) :
    (markupDiff left right config = .ok none ↔ markupDiff right left config = .ok none) ∧
    (markupDiff left right config ≠ .ok none →
      ∃ there back, markupDiff left right config = .ok (some there) ∧
        markupDiff right left config = .ok (some back) ∧
        MirroredMessages there.message back.message) := by
  refine ⟨?_, fun hdiff => ?_⟩
  · rw [markupDiff_eq_none_iff hconfig hf hg, markupDiff_eq_none_iff hconfig hg hf, eq_comm]
  · rw [ne_eq, markupDiff_eq_none_iff hconfig hf hg] at hdiff
    rw [markupDiff_eq hconfig hf hg, markupDiff_eq hconfig hg hf]
    apply Fragment.exists_mirrored_reports
    rwa [Fragment.normal_normal, Fragment.normal_normal]

theorem read_bold : Fragment.read "<b></b>" = .ok [.element "b" [] []] := by
  have hspellable : Markup.Item.AllSpellable [.element "b" [] []] :=
    ⟨Markup.Item.spellable_bold trivial, trivial⟩
  exact Fragment.read_of_spelling hspellable rfl rfl (Markup.sanitize_eq_self rfl rfl)

-- An element stands where a text does in the other value.
theorem markupDiff_bold_and_plain :
    markupDiff "<b></b>" "ac" (.record [("ignoredTags", .list ["svg"])]) ≠ .ok none ∧
      ∃ there back,
        markupDiff "<b></b>" "ac" (.record [("ignoredTags", .list ["svg"])]) = .ok (some there) ∧
        markupDiff "ac" "<b></b>" (.record [("ignoredTags", .list ["svg"])]) = .ok (some back) ∧
        MirroredMessages there.message back.message := by
  have hconfig : Options.resolve (.record [("ignoredTags", .list ["svg"])]) = .ok ⟨["svg"]⟩ := rfl
  have hbold : Fragment.normal ⟨["svg"]⟩ [.element "b" [] []] =
      [.element "b" (Attr.sorted []) []] := rfl
  have hplain : Fragment.normal ⟨["svg"]⟩ [.text "ac"] = [.text "ac"] := rfl
  have hdiff : markupDiff "<b></b>" "ac" (.record [("ignoredTags", .list ["svg"])]) ≠ .ok none := by
    rw [ne_eq, markupDiff_eq_none_iff hconfig read_bold read_plain, hbold, hplain]
    simp
  exact ⟨hdiff, (reports_mirror_each_other hconfig read_bold read_plain).2 hdiff⟩

end MarkupDiff
