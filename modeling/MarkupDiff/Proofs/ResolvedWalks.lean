import MarkupDiff.Proofs.Place.Route

namespace MarkupDiff

open MarkupDiff.Place (Overruns Route walk)

-- A walk by keys never fails. It reports that the path has been resolved if each step of the path
-- exists in what the steps before it lead to, and also if steps are left over after a scalar, which
-- has no steps: there the walk ends, and what is left is passed over. So the report means what it
-- says exactly where no steps are left over after a scalar.
theorem walk_resolves_up_to_scalar (start : Value) {path : Path} (hpath : ∀ s ∈ path, s.IsKey) :
    ∃ w, walk start path = .ok w ∧
      (w.resolved = true ↔
        (∃ places, Route (.root start) path places) ∨ Overruns (.root start) path) ∧
      ((w.resolved = true ↔ ∃ places, Route (.root start) path places) ↔
        ¬Overruns (.root start) path) := by
  obtain ⟨w, hw, hresolved⟩ := Place.walkFrom_resolved_iff (.root start) (.root start)
    hpath
  refine ⟨w, hw, hresolved, ?_⟩
  constructor
  · intro h hover
    exact Place.not_route_of_overruns hover (h.mp (hresolved.mpr (.inr hover)))
  · intro hover
    rw [hresolved, or_iff_left hover]

-- The second one of two items is reached, and no third one.
theorem walk_resolves_second_item :
    let start : Value := .record [("a", .list ["x", "y"])]
    (∀ s ∈ [.text "a", .bool true], Value.IsKey s) ∧
      ∃ w, walk start [.text "a", .bool true] = .ok w ∧ w.resolved = true ∧
        (∃ places, Route (.root start) [.text "a", .bool true] places) ∧
        ¬Overruns (.root start) [.text "a", .bool true] := by
  intro start
  have hpath : ∀ s ∈ [.text "a", .bool true], Value.IsKey s := by
    simp [Value.IsKey, Value.unhashablePart?]
  have hroute : ∃ places, Route (.root start) [.text "a", .bool true] places :=
    ⟨_, .go (.key rfl rfl Value.noConfusion) (.go (.index rfl rfl rfl) (.stop _))⟩
  obtain ⟨w, hw, hresolved, hexact⟩ := walk_resolves_up_to_scalar start hpath
  exact ⟨hpath, w, hw, hresolved.mpr (.inl hroute), hroute,
    hexact.mp (iff_of_true (hresolved.mpr (.inl hroute)) hroute)⟩

-- The tag of a paragraph is a text and has no items. A walk to the first one of them ends at the
-- tag and is reported to have come to its end.
theorem walk_past_tag :
    let start := Fragment.toValue [.element "p" [] [.text "x"]]
    let path : Path := ["children", .nat 0, "tag", .nat 0]
    (∀ s ∈ path, s.IsKey) ∧ ∃ w, walk start path = .ok w ∧ w.resolved = true ∧
      ¬∃ places, Route (.root start) path places := by
  intro start path
  have hpath : ∀ s ∈ path, s.IsKey := by
    simp [path, Value.IsKey, Value.unhashablePart?, Value.nat, Value.int]
  have hover : Overruns (.root start) path :=
    .later (.key rfl rfl Value.noConfusion) (.later (.index rfl rfl rfl)
      (.here (.key rfl rfl Value.noConfusion) trivial (by simp)))
  exact ⟨hpath, _, rfl, rfl, Place.not_route_of_overruns hover⟩

end MarkupDiff
