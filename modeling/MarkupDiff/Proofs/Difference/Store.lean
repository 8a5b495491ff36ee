import MarkupDiff.Proofs.Value.Equality

namespace MarkupDiff

open Value (DistinctKeys)

-- What one object holds: a value with nothing inside, or other objects in order or under keys.
inductive Content (Id : Type)
  | atom (v : Value) (hv : v.IsAtom)
  | tuple (items : List Id)
  | list (items : List Id)
  | record (entries : List (Value × Id)) (h : DistinctKeys (entries.map fun e => (e.1, .null)))

-- Objects that hold each other, in circles too, and may be found at several places.
abbrev Store (Id : Type) := Id → Content Id

-- A change in terms of the objects that it is about.
inductive Finding (Id : Type)
  | edited (path : Path) (left right : Id)
  | removedKey (path : Path) (key : Value) (left : Id)
  | addedKey (path : Path) (key : Value) (right : Id)
  | removedItem (path : Path) (index : Nat) (left : Id)
  | addedItem (path : Path) (index : Nat) (right : Id)

namespace Store

variable {Id : Type}

-- The object under a key.
def under (key : Value) (entries : List (Value × Id)) : Option Id :=
  (entries.find? fun e => key.equal e.1).map (·.2)

-- Items are compared up to the first difference.
def equalItems? (equal? : Id → Id → Option Bool) : List Id → List Id → Option Bool
  | [], [] => some true
  | x :: xs, y :: ys => do
    if ← equal? x y then equalItems? equal? xs ys else return false
  | _, _ => some false

def equalEntries? (equal? : Id → Id → Option Bool) (others : List (Value × Id)) :
    List (Value × Id) → Option Bool
  | [] => some true
  | (k, x) :: es =>
    match under k others with
    | some y => do
      if ← equal? x y then equalEntries? equal? others es else return false
    | none => some false

-- Entries whose keys the other record lacks, apart from ignored ones.
def foreign (ignore : Path → Value → Bool) (path : Path) (others entries : List (Value × Id)) :
    List (Finding Id) :=
  (entries.filter fun e => (under e.1 others).isNone && !ignore path e.1).map fun e =>
    .addedKey path e.1 e.2

-- Surplus items of one list, from the index where the other list ends.
def surplus (finding : Nat → Id → Finding Id) (start : Nat) (items : List Id) :
    List (Finding Id) :=
  (items.zipIdx start).map fun (x, i) => finding i x

def walkEntries (walk : Path → Id → Id → Option (List (Finding Id)))
    (ignore : Path → Value → Bool) (path : Path) (others : List (Value × Id)) :
    List (Value × Id) → Option (List (Finding Id))
  | [] => some []
  | (k, x) :: es => do
    let inside ← if ignore path k then some []
      else match under k others with
        | some y => walk (path ++ [k]) x y
        | none => some [.removedKey path k x]
    let rest ← walkEntries walk ignore path others es
    return inside ++ rest

def walkItems (walk : Path → Id → Id → Option (List (Finding Id))) (path : Path) (i : Nat) :
    List Id → List Id → Option (List (Finding Id))
  | [], ys => some (surplus (.addedItem path) i ys)
  | x :: xs, [] => some (surplus (.removedItem path) i (x :: xs))
  | x :: xs, y :: ys => do
    let inside ← walk (path ++ [.nat i]) x y
    let rest ← walkItems walk path (i + 1) xs ys
    return inside ++ rest

variable [DecidableEq Id]

-- Whether two objects are equal by content, or no answer if that takes more than `depth` calls one
-- inside the other.
def equal? (objects : Store Id) (depth : Nat) (a b : Id) : Option Bool :=
  match depth with
  | 0 => none
  | depth + 1 =>
    if a = b then some true
    else match objects a, objects b with
      | .atom v _, .atom w _ => some (v.equal w)
      | .tuple xs, .tuple ys => equalItems? (equal? objects depth) xs ys
      | .list xs, .list ys =>
        if xs.length = ys.length then equalItems? (equal? objects depth) xs ys else some false
      | .record es _, .record fs _ =>
        if es.length = fs.length then equalEntries? (equal? objects depth) fs es else some false
      | _, _ => some false

-- The walk through two objects, or no answer if it takes more than `depth` calls one inside the
-- other. It stops where both objects are one and the same, and it does not look into what is
-- ignored on either side. Nothing else keeps it from going round in a circle.
def walk (objects : Store Id) (ignore : Path → Value → Bool) (depth : Nat) (path : Path)
    (a b : Id) : Option (List (Finding Id)) :=
  match depth with
  | 0 => none
  | depth + 1 =>
    if a = b then some []
    else match objects a, objects b with
      | .record es _, .record fs _ => do
        let inside ← walkEntries (walk objects ignore depth) ignore path fs es
        return inside ++ foreign ignore path es fs
      | .list xs, .list ys => walkItems (walk objects ignore depth) path 0 xs ys
      | _, _ => do
        if ← equal? objects (depth + 1) a b then return [] else return [.edited path a b]

end Store

end MarkupDiff
