import MarkupDiff.Difference.Change
import MarkupDiff.Value.Access

namespace MarkupDiff

-- One level of the way down to a value: the container gone through and the step taken in it.
structure Frame where
  container : Value
  step : Value

-- A value together with the containers around it, innermost first.
structure Place where
  focus : Value
  above : List Frame := []

namespace Place

-- A value by itself.
def root (v : Value) : Place := ⟨v, []⟩

-- The record in whose list of children the focus stands.
def owner? (p : Place) : Option Place :=
  match p.above with
  | _ :: owner :: rest => some ⟨owner.container, rest⟩
  | _ => none

-- The position of the focus in the list around it.
def index? (p : Place) : Option Nat :=
  match p.above with
  | frame :: _ => (frame.step.int?).map Int.toNat
  | [] => none

-- The value one step further, where there is one. Only keys of records and indices of lists lead
-- further; the way back from a child leads to its owner.
def step? (p : Place) (step : Value) : Except Fault (Option Place) :=
  match p.focus with
  | .record es =>
    match step.unhashablePart? with
    | some kind => .error (.unhashable kind)
    | none =>
      match Value.lookup step es with
      | some .owner => .ok p.owner?
      | some v => .ok (some ⟨v, ⟨p.focus, step⟩ :: p.above⟩)
      | none => .ok none
  | .list xs =>
    match step.int? with
    | some i =>
      if i < 0 then .ok none
      else .ok ((xs[i.toNat]?).map fun v => ⟨v, ⟨p.focus, .int i⟩ :: p.above⟩)
    | none => .ok none
  | _ => .ok none

end Place

-- Where a path leads: the last record on it, and whether the walk came to an end.
structure Walk where
  target : Place
  resolved : Bool

namespace Place

-- Follows a path that has led to `current`, with `target` the last record so far. Lists are gone
-- through, a scalar ends the walk, and so does a step that does not exist.
def walkFrom (target current : Place) : Path → Except Fault Walk
  | [] => .ok ⟨target, true⟩
  | s :: rest =>
    match current.step? s with
    | .error fault => .error fault
    | .ok none => .ok ⟨target, false⟩
    | .ok (some next) =>
      match next.focus with
      | .record _ => walkFrom next next rest
      | .list _ => walkFrom target next rest
      | _ => .ok ⟨target, true⟩

-- Follows a path from a value.
def walk (start : Value) (path : Path) : Except Fault Walk :=
  walkFrom (.root start) (.root start) path

-- The last record that a path leads to.
def located (start : Value) (path : Path) : Except Fault Place :=
  (walk start path).map (·.target)

-- The text of a record in which the way back reads `ownerText`, and the child at `hole`, which
-- encloses this text, is left out.
def recordText (ownerText : String) (hole : Option Nat) (entries : List (Value × Value)) :
    String :=
  let texts := entries.map fun (k, v) =>
    let text := match v, hole with
      | .owner, _ => ownerText
      | .list xs, some i =>
        if k.isText "children" then
          "[" ++ Value.commaSeparated ((Value.shownItems xs).set i Value.enclosing) ++ "]"
        else v.shown
      | v, _ => v.shown
    k.shown ++ ": " ++ text
  "\x7b" ++ Value.commaSeparated texts ++ "\x7d"

-- The text of the owner below which a value stands.
def ownerText : List Frame → String
  | child :: owner :: rest =>
    match owner.container with
    | .record es => recordText (ownerText rest) ((child.step.int?).map Int.toNat) es
    | _ => Value.enclosing
  | _ => Value.enclosing

-- The text of the focus, with what the way back from it leads to.
def shown (p : Place) : String :=
  match p.focus with
  | .record es => recordText (ownerText p.above) none es
  | v => v.shown

end Place

end MarkupDiff
