import MarkupDiff.Proofs.Rendering.Safe
import MarkupDiff.Proofs.Sameness

namespace MarkupDiff

open Rendering (joinedMarkup leafMarkup leaves leavesAll safe safe_append)

namespace Value

-- Data that brings no markup with it: null, truth values, numbers and texts, in lists and tuples
-- that are nested in any way.
inductive IsPlain : Value → Prop
  | null : IsPlain .null
  | bool (b : Bool) : IsPlain (.bool b)
  | num (n : Number) : IsPlain (.num n)
  | text (s : String) : IsPlain (.text s)
  | list {vs : List Value} (h : ∀ v ∈ vs, IsPlain v) : IsPlain (.list vs)
  | tuple {vs : List Value} (h : ∀ v ∈ vs, IsPlain v) : IsPlain (.tuple vs)

mutual

-- The texts of what is nested in lists and tuples, one after the other. Null has none.
def nestedText : Value → String
  | null => ""
  | list vs => nestedTexts vs
  | tuple vs => nestedTexts vs
  | v => v.plain

def nestedTexts : List Value → String
  | [] => ""
  | v :: vs => v.nestedText ++ nestedTexts vs

end

end Value

namespace Rendering

-- The markup of the leaves is made, and it is that of this text.
def Shows (leaves : Except Fault (List Value)) (s : String) : Prop :=
  ∃ ls texts, leaves = .ok ls ∧ ls.mapM leafMarkup = .ok texts ∧ String.join texts = safe s

theorem shows_leaf {v : Value} (hleaves : leaves v = .ok [v])
    (hmarkup : leafMarkup v = .ok (safe v.plain)) : Shows (leaves v) v.plain :=
  ⟨[v], [safe v.plain], hleaves, by rw [List.mapM_cons, hmarkup]; rfl, by simp [String.join]⟩

theorem Shows.append {v : Value} {vs : List Value} {s t : String} (h : Shows (leaves v) s)
    (hs : Shows (leavesAll vs) t) : Shows (leavesAll (v :: vs)) (s ++ t) := by
  obtain ⟨ls, texts, hleaves, hmarkup, hjoin⟩ := h
  obtain ⟨ls', texts', hleaves', hmarkup', hjoin'⟩ := hs
  refine ⟨ls ++ ls', texts ++ texts', ?_, ?_, ?_⟩
  · rw [leavesAll, hleaves, hleaves']
    rfl
  · rw [List.mapM_append, hmarkup, hmarkup']
    rfl
  · rw [String.join_append, hjoin, hjoin', safe_append]

theorem shows_nestedTexts {vs : List Value} (h : ∀ v ∈ vs, Shows (leaves v) v.nestedText) :
    Shows (leavesAll vs) (Value.nestedTexts vs) := by
  induction vs with
  | nil => exact ⟨[], [], rfl, rfl, rfl⟩
  | cons v vs ih =>
    obtain ⟨hhead, htail⟩ := List.forall_mem_cons.mp h
    exact hhead.append (ih htail)

theorem shows_nestedText {v : Value} (h : v.IsPlain) : Shows (leaves v) v.nestedText := by
  induction h with
  | null => exact ⟨[], [], rfl, rfl, rfl⟩
  | bool b => exact shows_leaf rfl rfl
  | num n => exact shows_leaf rfl rfl
  | text s => exact shows_leaf rfl rfl
  | list _ ih => exact shows_nestedTexts ih
  | tuple _ ih => exact shows_nestedTexts ih

theorem joinedMarkup_of_isPlain {v : Value} (h : v.IsPlain) :
    joinedMarkup v = .ok (safe v.nestedText) := by
  obtain ⟨ls, texts, hleaves, hmarkup, hjoin⟩ := shows_nestedText h
  rw [joinedMarkup, hleaves]
  simp only [bind, Except.bind, hmarkup, pure, Except.pure, hjoin]

end Rendering

-- Text without blanks around it is one node, or none if there is nothing left of it.
theorem ofItems_settledItems_strip (s : String) :
    Node.ofItems (Markup.Item.settledItems false (Text.strip s.toList)) =
      if stripped s = "" then [] else [.text (stripped s)] := by
  have hempty : (Text.strip s.toList).isEmpty = true ↔ stripped s = "" := by
    simp [stripped]
  rw [Markup.settledItems_strip]
  by_cases hstrip : stripped s = ""
  · rw [if_pos (hempty.mpr hstrip), if_pos hstrip]
    rfl
  · rw [if_neg (mt hempty.mp hstrip), if_neg hstrip]
    rfl

-- Plain data is read as its text without the blanks around it.
theorem Fragment.read_of_isPlain {v : Value} (h : v.IsPlain) (htext : v.text? = none) :
    Fragment.read v =
      .ok (if stripped v.nestedText = "" then [] else [.text (stripped v.nestedText)]) := by
  let cs := v.nestedText.toList
  have hrendered : Rendering.rendered v =
      .ok (.ofList ((Markup.settledShown cs).flatMap Markup.escapedChar)) := by
    rw [Rendering.rendered, Rendering.joinedMarkup_of_isPlain h]
    simp only [bind, Except.bind, Rendering.items_safe, pure, Except.pure,
      Markup.printedAll_settledItems, cs]
  have hread := Markup.items_sanitize_escaped (Markup.settledShown cs)
  rw [Markup.strip_settledShown] at hread
  simp only [Fragment.read, Rendering.markupOf, htext, hrendered, bind, Except.bind, Except.map,
    Fragment.ofMarkup, hread]
  exact congrArg Except.ok (ofItems_settledItems_strip v.nestedText)

-- Text without blanks around it is in normal form.
theorem Fragment.normal_stripped (o : Options) (s : String) :
    Fragment.normal o (if stripped s = "" then [] else [.text (stripped s)]) =
      if stripped s = "" then [] else [.text (stripped s)] := by
  split
  · rfl
  · rename_i hne
    have hstrip : Text.strip s.toList ≠ [] := by simpa [stripped] using hne
    have hblank : (Node.text (stripped s)).isBlankText = false := by
      rw [Node.isBlankText, stripped, String.toList_ofList, Text.all_isMarkupBlank_strip hstrip]
    simp [Fragment.normal, Node.normals, Node.normal, Node.settled, Node.isPruned,
      Node.mergeTexts, hblank]

-- Whatever stands in the texts of plain data, the fragment of the data is no more than one text:
-- nothing in them is taken for markup or for a reference, and nothing that they make up together.
theorem plain_data_is_text {v : Value} (h : v.IsPlain) (htext : v.text? = none) (config : Value) :
    Fragment.ofConfigured v config = (Options.resolve config).map fun _ =>
      if stripped v.nestedText = "" then [] else [.text (stripped v.nestedText)] := by
  unfold Fragment.ofConfigured
  cases Options.resolve config with
  | error fault => rfl
  | ok o =>
    simp only [bind, Except.bind, Fragment.ofValue_eq, Fragment.read_of_isPlain h htext, Except.map,
      Fragment.normal_stripped]

-- A reference that only comes about across two texts, and a marker. What looks like a tag is text.
theorem plain_data_with_marks :
    let v : Value := .list [" <b>", .tuple [.null, "&am", .list ["p;"]], .nat 1, .bool true,
      "<!---->'\" "]
    v.IsPlain ∧ v.text? = none ∧
      Fragment.ofConfigured v .null = .ok [.text "<b>&amp;1True<!---->'\""] := by
  intro v
  have hplain : v.IsPlain := by
    have htuple : Value.IsPlain (.tuple [.null, "&am", .list ["p;"]]) := by
      refine .tuple ?_
      simp [Value.IsPlain.null, Value.IsPlain.text, Value.IsPlain.list]
    refine .list ?_
    simp [htuple, Value.IsPlain.text, Value.IsPlain.bool, Value.nat, Value.int, Value.IsPlain.num]
  have htext : v.text? = none := rfl
  have hstripped : stripped v.nestedText = "<b>&amp;1True<!---->'\"" := by
    decide +kernel
  refine ⟨hplain, htext, ?_⟩
  rw [plain_data_is_text hplain htext, hstripped, if_neg (by decide)]
  rfl

end MarkupDiff
