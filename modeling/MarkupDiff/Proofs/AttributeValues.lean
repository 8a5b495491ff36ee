import MarkupDiff.Proofs.Difference.Objects
import MarkupDiff.Proofs.Interruptions
import MarkupDiff.Proofs.Text.Strip

namespace MarkupDiff

open Markup (marker withoutMarkers HasNoMarker sanitize items)

-- A paragraph whose title is written with this text between its quotes.
def titled (v : String) : String :=
  "<p title=\"" ++ v ++ "\"></p>"

-- The text stays between the quotes, and no reference begins in it.
def Enquotable (v : String) : Prop :=
  '"' ∉ v.toList ∧ '&' ∉ v.toList

-- The text without the markers of template engines.
def unmarked (v : String) : String :=
  .ofList (withoutMarkers v.toList)

-- A paragraph with this title and nothing else.
def titledNode (title : String) : Node :=
  .element "p" [⟨"title", title⟩] []

variable {o : Options} {v w : String}

theorem toList_titled (v : String) :
    (titled v).toList = "<p title=\"".toList ++ v.toList ++ '"' :: "></p>".toList := by
  simp [titled]

theorem toList_unmarked (v : String) : (unmarked v).toList = withoutMarkers v.toList :=
  String.toList_ofList

theorem Enquotable.unmarked (h : Enquotable v) : Enquotable (unmarked v) := by
  have hsub := (Markup.withoutMarkers_sublist v.toList).subset
  rw [Enquotable, toList_unmarked]
  exact ⟨fun hmem => h.1 (hsub hmem), fun hmem => h.2 (hsub hmem)⟩

-- The markup loses its markers where the value does.
theorem sanitize_titled (v : String) : sanitize (titled v) = titled (unmarked v) := by
  have hquote : '"' ∉ marker := by decide
  have hbegin : HasNoMarker "<p title=\"".toList := fun _ => rfl
  have hkept : withoutMarkers (titled (unmarked v)).toList = (titled (unmarked v)).toList := by
    refine Markup.withoutMarkers_eq_self ?_
    rw [toList_titled, List.append_assoc, hbegin, Markup.eraseMarkers_append_cons hquote,
      toList_unmarked, Markup.eraseMarkers_withoutMarkers]
    rfl
  have hvalue : withoutMarkers (titled v).toList = withoutMarkers (titled (unmarked v)).toList := by
    rw [toList_titled, toList_titled, toList_unmarked,
      Markup.withoutMarkers_append_withoutMarkers]
  have hstrip : Text.strip (titled (unmarked v)).toList = (titled (unmarked v)).toList := by
    refine Text.strip_eq_self_iff.mpr ⟨?_, ?_⟩
    · simp [toList_titled, Text.isBlank]
    · rw [toList_titled, List.getLast?_append]
      simp [Text.isBlank]
  rw [sanitize, hvalue, hkept, hstrip, String.ofList_toList]

theorem isProper_titled (v : String) : Markup.Tag.IsProper "p" [("title", v)] := by
  have hname : Markup.Tag.IsAttrName "title".toList :=
    ⟨by decide +kernel, 't', "itle".toList, rfl, rfl, List.all_eq_true.mp rfl⟩
  refine ⟨Markup.Tag.isName_paragraph, ?_, by simp⟩
  intro a ha
  obtain rfl := List.mem_singleton.mp ha
  exact hname

theorem items_titled (h : Enquotable v) :
    items (titled v) = .ok [.element "p" [("title", v)] []] := by
  have hproper := isProper_titled v
  have hspells : ∀ a ∈ [("title", v)], Markup.Tag.Spells a
      (' ' :: (a.1.toList ++ '=' :: '"' :: (a.2.toList ++ ['"']))) := by
    intro a ha
    obtain rfl := List.mem_singleton.mp ha
    exact .quoted (hproper.names _ ha) rfl h.1 (Markup.Reference.resolved_eq_self h.2)
  have hitems := Markup.Item.items_childless hproper hspells (by decide +kernel) (by decide)
    (by decide)
  rw [← hitems, ← String.ofList_toList (s := titled v), toList_titled]
  simp

theorem read_titled (h : Enquotable v) :
    Fragment.read (.text (titled v)) = .ok [titledNode (unmarked v)] := by
  rw [Fragment.read_text, sanitize_titled, Fragment.ofMarkup, items_titled h.unmarked]
  rfl

theorem normal_titled (hp : "p" ∉ o.ignoredTags) (title : String) :
    Fragment.normal o [titledNode title] = [titledNode title] := by
  have hsorted : Attr.sorted [⟨"title", title⟩] = [⟨"title", title⟩] := by
    simp [Attr.sorted, Attr.canonical]
  simp [Fragment.normal, titledNode, Node.normals, Node.normal, Node.settled, Node.isPruned,
    prunes_paragraph hp, Node.mergeTexts, Node.isBlankText, hsorted]

-- Where the title stands.
def titlePath : Path :=
  [.text "children", .nat 0, .text "attrs", .nat 0, .text "value"]

-- The report of a title that has changed.
def titleReport (old new : String) : Report :=
  ⟨Attr.described ⟨"title", old⟩ ++ " has changed to " ++ Attr.described ⟨"title", new⟩, "p"⟩

theorem located_titled (title : String) : ∃ above,
    Place.located (Fragment.toValue [titledNode title]) titlePath =
      .ok ⟨Attr.toValue ⟨"title", title⟩, above⟩ :=
  ⟨_, rfl⟩

theorem ofChange_titled (old new : String) :
    Report.ofChange (Fragment.toValue [titledNode old]) (Fragment.toValue [titledNode new])
      (.edited titlePath (.text old) (.text new)) = .ok (titleReport old new) := by
  obtain ⟨above, hold⟩ := located_titled old
  obtain ⟨above', hnew⟩ := located_titled new
  have htold : Change.Told (Attr.toValue ⟨"title", old⟩) (Attr.toValue ⟨"title", new⟩)
      (.edited titlePath (.text old) (.text new)) (titleReport old new).message :=
    .edited (.attr ⟨"title", old⟩) (.attr ⟨"title", new⟩)
  have hmessage : (Change.edited titlePath (.text old) (.text new)).toEntry.message
      ⟨Attr.toValue ⟨"title", old⟩, above⟩ ⟨Attr.toValue ⟨"title", new⟩, above'⟩ =
        .ok (titleReport old new).message :=
    Change.message_eq htold
  have hpath : Place.location (Fragment.toValue [titledNode old]) titlePath = .ok "p" := rfl
  have hfull : (Change.edited titlePath (.text old) (.text new)).fullPath = titlePath := rfl
  have hentry : (Change.edited titlePath (.text old) (.text new)).toEntry.path = titlePath := rfl
  simp only [Report.ofChange, hfull, hold, hnew, hentry, hmessage, hpath, bind, Except.bind, pure,
    Except.pure]
  rfl

theorem changes_titled (old new : String) :
    Fragment.changes [titledNode old] [titledNode new] = Change.ofTexts titlePath old new := by
  rw [Fragment.changes_eq, titledNode, titledNode]
  simp [Node.toValues, Change.inItems, Change.between_element, Change.between_attr, Change.surplus,
    titlePath]

theorem firstDifference_titled (hp : "p" ∉ o.ignoredTags) (old new : String) :
    Fragment.firstDifference o [titledNode old] [titledNode new] =
      .ok (if old = new then none else some (titleReport old new)) := by
  simp only [Fragment.firstDifference, normal_titled hp, changes_titled, Change.ofTexts]
  by_cases h : old = new
  · simp only [if_pos h]
  · simp only [if_neg h, ofChange_titled]
    rfl

-- The text between the quotes of a title is its value, less the markers in it: what remains when
-- they are taken out in any order. Two titles are told apart exactly when what remains of them
-- differs.
theorem attribute_value_less_markers {config : Value} (hconfig : Options.resolve config = .ok o)
    (hp : "p" ∉ o.ignoredTags) (hv : Enquotable v) (hw : Enquotable w) :
    Fragment.ofConfigured (.text (titled v)) config = .ok [titledNode (unmarked v)] ∧
      (∀ rest, Markup.Unmarks v.toList rest ↔ rest = (unmarked v).toList) ∧
      (unmarked v = v ↔ ¬marker <:+: v.toList) ∧
      markupDiff (.text (titled v)) (.text (titled w)) config =
        .ok (if unmarked v = unmarked w then none
          else some (titleReport (unmarked v) (unmarked w))) := by
  refine ⟨?_, ?_, ?_, ?_⟩
  · rw [Fragment.ofConfigured_eq hconfig (read_titled hv), normal_titled hp]
  · intro rest
    rw [toList_unmarked, Markup.unmarks_iff]
  · rw [← Markup.withoutMarkers_eq_self_iff, ← toList_unmarked, String.toList_inj]
  · rw [markupDiff_eq hconfig (read_titled hv) (read_titled hw), normal_titled hp,
      normal_titled hp, firstDifference_titled hp]

-- Text that looks like a tag or a comment is kept; a marker that comes about when another one is
-- taken out goes with it.
theorem titles_less_nested_marker :
    let config : Value := .record [("ignored_tags", .list ["svg"])]
    let left := titled "a<b> <!--c-->"
    let right := titled "a<!--<!---->-->"
    Options.resolve config = .ok ⟨["svg"]⟩ ∧
      Fragment.ofConfigured (.text left) config = .ok [titledNode "a<b> <!--c-->"] ∧
      markupDiff (.text left) (.text right) config =
        .ok (some (titleReport "a<b> <!--c-->" "a")) := by
  intro config left right
  have hconfig : Options.resolve config = .ok ⟨["svg"]⟩ := rfl
  have hleft : unmarked "a<b> <!--c-->" = "a<b> <!--c-->" := by decide +kernel
  have hright : unmarked "a<!--<!---->-->" = "a" := by decide +kernel
  obtain ⟨hread, -, -, hdiff⟩ := attribute_value_less_markers (v := "a<b> <!--c-->")
    (w := "a<!--<!---->-->") hconfig (by simp) (by simp [Enquotable]) (by simp [Enquotable])
  rw [hleft] at hread
  rw [hleft, hright] at hdiff
  exact ⟨hconfig, hread, hdiff⟩

-- A title that is a marker is read as an empty one, and nothing tells the two apart.
theorem title_of_marker :
    let v := "<!---->"
    Enquotable v ∧ Enquotable "" ∧
      Fragment.ofConfigured (.text (titled v)) .null = .ok [titledNode ""] ∧
      titledNode "" ≠ titledNode v ∧
      markupDiff (.text (titled v)) (.text (titled "")) .null = .ok none := by
  intro v
  have hconfig : Options.resolve .null = .ok {} := rfl
  have hv : Enquotable v := by simp [Enquotable, v]
  have hempty : Enquotable "" := by simp [Enquotable]
  have hmarker : unmarked v = "" := by decide +kernel
  have hnone : unmarked "" = "" := by decide +kernel
  have hread := read_titled hv
  have hother := read_titled hempty
  rw [hmarker] at hread
  rw [hnone] at hother
  refine ⟨hv, hempty, ?_, by simp [titledNode, v],
    (markupDiff_eq_none_iff hconfig hread hother).mpr rfl⟩
  rw [Fragment.ofConfigured_eq hconfig hread, normal_titled List.not_mem_nil]

end MarkupDiff
