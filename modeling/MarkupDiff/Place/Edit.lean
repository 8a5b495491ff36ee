import MarkupDiff.Place.Basic

namespace MarkupDiff.Place

-- The position in a sequence that an index means: a negative one counts from the end.
def position? (length : Nat) (i : Int) : Option Nat :=
  let j := if i < 0 then i + length else i
  if 0 ≤ j && j < length then some j.toNat else none

-- The position that an index into a sequence of this kind means, or the fault.
def position (kind : Kind) (changing : Bool) (length : Nat) (index : Value) : Except Fault Nat :=
  match index.int? with
  | none => .error (.badIndex kind index.kind)
  | some i =>
    match position? length i with
    | some n => .ok n
    | none => .error (.noSuchItem kind changing)

-- The place one step further, which has to exist.
def item (p : Place) (step : Value) : Except Fault Place :=
  match p.focus with
  | .record es =>
    match step.unhashablePart? with
    | some kind => .error (.unhashable kind)
    | none =>
      match Value.lookup step es with
      | none => .error (.missingKey step)
      | some .owner =>
        match p.owner? with
        | some owner => .ok owner
        | none => .error (.missingKey step)
      | some v => .ok ⟨v, ⟨p.focus, step⟩ :: p.above⟩
  | .list xs =>
    (position .list false xs.length step).map fun i =>
      ⟨xs.getD i .null, ⟨p.focus, .nat i⟩ :: p.above⟩
  | .text s =>
    (position .text false s.length step).map fun i =>
      ⟨.text (.ofList ((s.toList.drop i).take 1)), ⟨p.focus, .nat i⟩ :: p.above⟩
  | v => .error (.notSubscriptable v.kind)

-- The place that a path leads to, all of which has to exist.
def follow (p : Place) : Path → Except Fault Place
  | [] => .ok p
  | s :: rest => (p.item s).bind fun next => next.follow rest

-- A container with a new value at the step that was taken in it.
def filled (f : Frame) (v : Value) : Value :=
  match f.container with
  | .record es => .record (Value.put f.step v es)
  | .list xs => .list (xs.set ((f.step.int?.getD 0).toNat) v)
  | c => c

-- The outermost container, with the focus in its place.
def rebuilt (p : Place) : Value :=
  p.above.foldl (fun v f => filled f v) p.focus

-- What a container becomes when the item at a step is replaced.
def replaced (container step value : Value) : Except Fault Value :=
  match container with
  | .record es =>
    match step.unhashablePart? with
    | some kind => .error (.unhashable kind)
    | none => .ok (.record (Value.put step value es))
  | .list xs => (position .list true xs.length step).map fun i => .list (xs.set i value)
  | v => .error (.notChangeable v.kind false)

-- What a container becomes when the item at a step is taken out.
def removed (container step : Value) : Except Fault Value :=
  match container with
  | .record es =>
    match step.unhashablePart? with
    | some kind => .error (.unhashable kind)
    | none =>
      match Value.lookup step es with
      | some _ => .ok (.record (Value.drop step es))
      | none => .error (.missingKey step)
  | .list xs => (position .list true xs.length step).map fun i => .list (xs.eraseIdx i)
  | v => .error (.notChangeable v.kind true)

-- What a list becomes when an item is put in front of the one at an index. An index past an end
-- means that end.
def inserted (container step value : Value) : Except Fault Value :=
  match container with
  | .list xs =>
    match step.int? with
    | none => .error (.notAnInteger step.kind)
    | some i =>
      let j := if i < 0 then max 0 (i + xs.length) else min i xs.length
      .ok (.list (xs.take j.toNat ++ value :: xs.drop j.toNat))
  | v => .error (.noMember v.kind "insert")

-- Changes the container that all but the last step of a path lead to, at the last step.
def edit (change : Value → Value → Except Fault Value) (tree : Value) (path : Path) :
    Except Fault Value :=
  match path.getLast? with
  | none => .error (.noSuchItem .list false)
  | some last => do
    let p ← (root tree).follow path.dropLast
    let v ← change p.focus last
    return rebuilt { p with focus := v }

-- The tree with a new value at the end of a path.
def set (tree : Value) (path : Path) (value : Value) : Except Fault Value :=
  edit (fun c s => replaced c s value) tree path

-- The tree with a value put in front of the end of a path.
def insert (tree : Value) (path : Path) (value : Value) : Except Fault Value :=
  edit (fun c s => inserted c s value) tree path

-- The tree without the end of a path.
def remove (tree : Value) (path : Path) : Except Fault Value :=
  edit removed tree path

end MarkupDiff.Place
