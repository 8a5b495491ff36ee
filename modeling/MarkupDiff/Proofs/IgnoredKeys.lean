import MarkupDiff.Proofs.Difference.Ending
import MarkupDiff.Proofs.Difference.Walk
import MarkupDiff.Proofs.FirstChanges

namespace MarkupDiff

namespace Store

-- The walk through two objects comes to an end with some findings: these are what it finds whenever
-- it has room for enough calls one inside the other.
def Finds {Id : Type} [DecidableEq Id] (objects : Store Id) (ignore : Path → Value → Bool)
    (a b : Id) (cs : List (Finding Id)) : Prop :=
  ∃ depth, ∀ n, depth ≤ n → objects.walk ignore n [] a b = some cs

theorem exists_finds {Id : Type} [DecidableEq Id] {objects : Store Id}
    {ignore : Path → Value → Bool} (hignore : Respects ignore) {a b : Id} {left right : Value}
    (ha : objects.Shows ignore [] a left) (hb : objects.Shows ignore [] b right) :
    ∃ cs, objects.Finds ignore a b cs ∧
      List.Forall₂ (objects.Tells ignore) cs (structuralDiff left right) := by
  obtain ⟨cs, hcs, htells⟩ := tracks_of_respects hignore (sizeOf left + 1) ha hb
    (Nat.lt_succ_self _)
  exact ⟨cs, ⟨sizeOf left + 1, fun n hn => hcs n hn⟩, htells⟩

end Store

-- To ignore keys is to remove them. Where the part of an object that counts is finite and acyclic,
-- every way into it comes to an end. The walk through two objects of which this is true comes to an
-- end too, and finds the changes between what remains of the two without the entries that are
-- ignored, one for one. To the same changes come nested values of which the same remains, and all
-- objects that differ from these in ignored entries only, whether these lead back, lead somewhere
-- else or are missing.
theorem ignoring_is_removing {Id : Type} [DecidableEq Id] {objects : Store Id}
    {ignore : Path → Value → Bool} (hignore : Respects ignore) :
    (∀ a, objects.IsFiniteAcyclic ignore [] a → objects.Ends ignore [] a) ∧
    ∀ a b, objects.Ends ignore [] a → objects.Ends ignore [] b →
      ∃ left right cs, objects.Shows ignore [] a left ∧ objects.Shows ignore [] b right ∧
        objects.Finds ignore a b cs ∧
        List.Forall₂ (objects.Tells ignore) cs (structuralDiff left right) ∧
        (∀ left' right' : Value, left'.without ignore [] = left →
          right'.without ignore [] = right →
          (structuralDiff left' right' ignore).map (Change.without ignore) =
            structuralDiff left right) ∧
        ∀ objects' : Store Id, objects.Agrees objects' ⟨ignore, [], a⟩ →
          objects.Agrees objects' ⟨ignore, [], b⟩ →
          ∃ cs', objects'.Finds ignore a b cs' ∧
            List.Forall₂ (objects'.Tells ignore) cs' (structuralDiff left right) := by
  refine ⟨fun a h => h.ends, fun a b ha hb => ?_⟩
  obtain ⟨left, hleft⟩ := ha.exists_shows
  obtain ⟨right, hright⟩ := hb.exists_shows
  obtain ⟨cs, hfinds, htells⟩ := Store.exists_finds hignore hleft hright
  refine ⟨left, right, cs, hleft, hright, hfinds, htells, ?_, ?_⟩
  · rintro left' right' rfl rfl
    exact (Change.between_without hignore [] left' right').symm
  · intro objects' hagrees hagrees'
    exact Store.exists_finds hignore (hleft.agree hagrees) (hright.agree hagrees')

-- An entry that leads to another object, or none.
def link : Option Nat → List (Value × Nat)
  | some a => [("parent", a)]
  | none => []

theorem distinctKeys_link (up : Option Nat) (x : Nat) :
    Value.DistinctKeys (((Value.text "content", x) :: link up).map fun e => (e.1, .null)) := by
  cases up <;> simp [link, Value.distinctKeys_cons, Value.IsKey, Value.unhashablePart?,
    Value.equal, Value.text?]

-- Two fragments of one text each, with links from the texts to other objects.
def linkedTexts (up up' : Option Nat) : Store Nat
  | 0 => .record [("children", 1)] (by simp [Value.distinctKeys_cons, Value.IsKey,
      Value.unhashablePart?])
  | 1 => .list [2]
  | 2 => .record (("content", 3) :: link up) (distinctKeys_link up 3)
  | 3 => .atom "a" trivial
  | 4 => .record [("children", 5)] (by simp [Value.distinctKeys_cons, Value.IsKey,
      Value.unhashablePart?])
  | 5 => .list [6]
  | 6 => .record (("content", 7) :: link up') (distinctKeys_link up' 7)
  | 7 => .atom "b" trivial
  | _ => .atom .null trivial

theorem linkedTexts_ne_tuple (up up' : Option Nat) (a : Nat) (xs : List Nat) :
    linkedTexts up up' a ≠ .tuple xs := by
  match a with
  | 0 | 1 | 2 | 3 | 4 | 5 | 6 | 7 => simp [linkedTexts]
  | n + 8 => simp [linkedTexts]

-- Without its links every object leads to the next one or to none.
theorem lt_of_mem_linkedTexts {up up' : Option Nat} (path : Path) (a x : Nat)
    (hx : x ∈ Store.members (Store.counted ignoringParent path (linkedTexts up up' a))) :
    a < x ∧ x < 8 := by
  have hmembers : Store.members (Store.counted ignoringParent path (linkedTexts up up' a)) =
      if a ∈ [0, 1, 2, 4, 5, 6] then [a + 1] else [] := by
    match a with
    | 0 | 1 | 3 | 4 | 5 | 7 => rfl
    | 2 => cases up <;> rfl
    | 6 => cases up' <;> rfl
    | n + 8 => rfl
  grind

-- Each text leads back to its fragment, and it is the same if it leads to something else or to
-- nothing. The part that counts is finite and acyclic.
theorem finding_in_linked_texts :
    Respects ignoringParent ∧
      (linkedTexts (some 0) (some 4)).IsFiniteAcyclic ignoringParent [] 0 ∧
      (linkedTexts (some 0) (some 4)).IsFiniteAcyclic ignoringParent [] 4 ∧
      (linkedTexts (some 0) (some 4)).Ends ignoringParent [] 0 ∧
      (linkedTexts (some 0) (some 4)).Ends ignoringParent [] 4 ∧
      ∀ up up', ∃ cs, (linkedTexts up up').Finds ignoringParent 0 4 cs ∧
        List.Forall₂ ((linkedTexts up up').Tells ignoringParent) cs
          [.edited ["children", .nat 0, "content"] "a" "b"] := by
  have hleft : (linkedTexts (some 0) (some 4)).Shows ignoringParent [] 0
      (.record [("children", .list [.record [("content", "a")]])]) :=
    .record _ rfl (.counted rfl (.list rfl (.cons (.record _ rfl (.counted rfl
      (.atom trivial rfl) (.ignored rfl .nil))) .nil)) .nil)
  have hright : (linkedTexts (some 0) (some 4)).Shows ignoringParent [] 4
      (.record [("children", .list [.record [("content", "b")]])]) :=
    .record _ rfl (.counted rfl (.list rfl (.cons (.record _ rfl (.counted rfl
      (.atom trivial rfl) (.ignored rfl .nil))) .nil)) .nil)
  have hfinite : ∀ a, (linkedTexts (some 0) (some 4)).IsFiniteAcyclic ignoringParent [] a :=
    fun a => Store.isFiniteAcyclic_of_lt [] a (linkedTexts_ne_tuple _ _) lt_of_mem_linkedTexts
  obtain ⟨hends, hremoves⟩ :=
    @ignoring_is_removing Nat _ (linkedTexts (some 0) (some 4)) _ respects_ignoringParent
  refine ⟨respects_ignoringParent, hfinite 0, hfinite 4, hends 0 (hfinite 0), hends 4 (hfinite 4),
    fun up up' => ?_⟩
  obtain ⟨left, right, -, hleft', hright', -, -, -, hlinks⟩ :=
    hremoves 0 4 (hends 0 (hfinite 0)) (hends 4 (hfinite 4))
  obtain rfl := hleft.unique hleft'
  obtain rfl := hright.unique hright'
  have hcounted : ∀ path a,
      Store.counted ignoringParent path (linkedTexts (some 0) (some 4) a) =
        Store.counted ignoringParent path (linkedTexts up up' a) := by
    intro path a
    match a with
    | 0 | 1 | 3 | 4 | 5 | 7 => rfl
    | 2 => cases up <;> rfl
    | 6 => cases up' <;> rfl
    | n + 8 => rfl
  exact hlinks _ (Store.agrees_of_counted hcounted (linkedTexts_ne_tuple _ _) [] 0)
    (Store.agrees_of_counted hcounted (linkedTexts_ne_tuple _ _) [] 4)

end MarkupDiff
