import MarkupDiff.Place.Edit
import MarkupDiff.Proofs.Value.Nested

namespace MarkupDiff.Place

theorem position_nat (kind : Kind) (changing : Bool) {n i : Nat} (h : i < n) :
    position kind changing n (.nat i) = .ok i := by
  have hposition : position? n i = some i := by
    have hnat : ¬(i : Int) < 0 := by omega
    have hrange : 0 ≤ (i : Int) ∧ (i : Int) < n := by omega
    simp [position?, hnat, h]
  simp [position, Value.nat, Value.int, Value.int?, hposition]

theorem item_key {es : List (Value × Value)} {k v : Value} (hk : k.IsKey)
    (hlookup : Value.lookup k es = some v) (hv : v ≠ .owner) (above : List Frame) :
    (mk (.record es) above).item k = .ok ⟨v, ⟨.record es, k⟩ :: above⟩ := by
  have hkey : k.unhashablePart? = none := hk
  simp only [item, hkey, hlookup]

theorem item_nat {xs : List Value} {i : Nat} {v : Value} (h : xs[i]? = some v)
    (above : List Frame) :
    (mk (.list xs) above).item (.nat i) = .ok ⟨v, ⟨.list xs, .nat i⟩ :: above⟩ := by
  obtain ⟨hlt, rfl⟩ := List.getElem?_eq_some_iff.mp h
  simp only [item, position_nat .list false hlt]
  simp [Except.map, hlt]

end MarkupDiff.Place
