import MarkupDiff.Value.Basic

namespace MarkupDiff

-- Keys and indices from the outside in.
abbrev Path := List Value

-- One way in which two nested values differ. The path leads to the edited value, or to the record
-- or list on both sides that has something on one side only.
inductive Change
  | edited (path : Path) (left right : Value)
  | removedKey (path : Path) (key left : Value)
  | addedKey (path : Path) (key right : Value)
  | removedItem (path : Path) (index : Nat) (left : Value)
  | addedItem (path : Path) (index : Nat) (right : Value)
  deriving Inhabited

namespace Change

-- The path to the value itself that is edited or found on one side only.
def fullPath : Change → Path
  | edited p _ _ => p
  | removedKey p k _ => p ++ [k]
  | addedKey p k _ => p ++ [k]
  | removedItem p i _ => p ++ [.nat i]
  | addedItem p i _ => p ++ [.nat i]

-- Surplus items of one list, from the index where the other list ends.
def surplus (change : Nat → Value → Change) (start : Nat) (items : List Value) : List Change :=
  (items.zipIdx start).map fun (v, i) => change i v

-- Entries whose keys the other record lacks, apart from ignored ones.
def foreign (ignore : Path → Value → Bool) (path : Path)
    (others entries : List (Value × Value)) : List Change :=
  (entries.filter fun e =>
    (Value.lookup e.1 others).isNone && !ignore path e.1).map fun e => .addedKey path e.1 e.2

mutual

-- The changes that lead from the left value to the right one, in the order of a walk through
-- both: keys in the order of the left record, then those found only on the right; items by index.
-- Ignored keys are passed over on both sides.
def between (ignore : Path → Value → Bool) (path : Path) : Value → Value → List Change
  | .record es, .record fs => inEntries ignore path fs es ++ foreign ignore path es fs
  | .list xs, .list ys => inItems ignore path 0 xs ys
  | v, w => if v.equal w then [] else [.edited path v w]
termination_by structural v => v

-- The part of the walk through two records that follows the keys of the left one.
def inEntries (ignore : Path → Value → Bool) (path : Path) (others : List (Value × Value)) :
    List (Value × Value) → List Change
  | [] => []
  | (k, v) :: es =>
    (if ignore path k then []
     else match Value.lookup k others with
       | some w => between ignore (path ++ [k]) v w
       | none => [.removedKey path k v]) ++ inEntries ignore path others es
termination_by structural es => es

-- The walk through two lists from the index `i` on.
def inItems (ignore : Path → Value → Bool) (path : Path) (i : Nat) :
    List Value → List Value → List Change
  | [], ys => surplus (.addedItem path) i ys
  | x :: xs, [] => surplus (.removedItem path) i (x :: xs)
  | x :: xs, y :: ys => between ignore (path ++ [.nat i]) x y ++ inItems ignore path (i + 1) xs ys
termination_by structural xs => xs

end

end Change

-- The changes between two nested values, none exactly when they are equal.
def structuralDiff (left right : Value) (ignore : Path → Value → Bool := fun _ _ => false) :
    List Change :=
  Change.between ignore [] left right

-- Leaves out the way back from a node to its owner.
def ignoringParent (_path : Path) (key : Value) : Bool :=
  key.isText "parent"

end MarkupDiff
