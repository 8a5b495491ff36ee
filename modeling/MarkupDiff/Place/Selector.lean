import MarkupDiff.Place.Basic
import MarkupDiff.Text.Blank

namespace MarkupDiff.Place

-- The value of the first attribute with the name, or null.
def attributeValue (name : String) (element : Value) : Except Fault Value := do
  let attrs ← element.namedOr "attrs" (.list [])
  find (← attrs.items)
where
  find : List Value → Except Fault Value
    | [] => .ok .null
    | a :: rest => do
      if (← a.named "name").isText name then a.named "value" else find rest

-- The positions of the element children that have the tag of `element`.
def sameTag (element : Value) (children : List Value) : Except Fault (List Nat) := do
  let hits ← (children.zipIdx).filterMapM fun (child, i) => do
    if (← child.named "type").isText "element" then
      let tag ← child.named "tag"
      return if tag.equal (← element.named "tag") then some i else none
    else return none
  return hits

-- The position of the focus among the children of its parent with its tag, counted from 1, when
-- it is not the only one.
def ordinal (p : Place) : Except Fault (Option Nat) := do
  let parent ← p.focus.namedOr "parent" .null
  match parent with
  | .null => return none
  | .owner =>
    match p.owner? with
    | none => return none
    | some owner =>
      let hits ← sameTag p.focus (← (← owner.focus.namedOr "children" (.list [])).items)
      if hits.length ≤ 1 then return none
      else match p.index?.bind fun i => hits.idxOf? i with
        | some n => return some (n + 1)
        | none => .error .notAmongSiblings
  | other =>
    let hits ← sameTag p.focus (← (← other.namedOr "children" (.list [])).items)
    if hits.length ≤ 1 then return none else .error .notAmongSiblings

-- The selector of one element: its tag, its id, its classes, and its position among siblings with
-- the same tag when there are several.
def selector (p : Place) : Except Fault Value := do
  let tag ← p.focus.named "tag"
  let id ← attributeValue "id" p.focus
  let named ← if id.isTruthy then tag.extendedBy (.text ("#" ++ id.plain)) else pure tag
  let classes ← attributeValue "class" p.focus
  let classed ←
    if classes.isTruthy then
      match classes.text? with
      | some s => named.extendedBy (.text (String.join ((wordsOf s).map ("." ++ ·))))
      | none => .error (.noMember classes.kind "split")
    else pure named
  match ← p.ordinal with
  | some n => classed.extendedBy (.text s!":nth-of-type({n})")
  | none => return classed

-- What a location reads when no element is on the way.
def rootLabel : String := "#document-fragment"

-- The selectors of the elements on a path, outermost first. The path is followed as far as it
-- exists, and no further than a scalar.
def selectors (current : Place) : Path → Except Fault (List Value)
  | [] => .ok []
  | s :: rest =>
    match current.step? s with
    | .error fault => .error fault
    | .ok none => .ok []
    | .ok (some next) =>
      match next.focus with
      | .record es =>
        if (Value.lookup (.text "type") es).any (·.isText "element") then do
          let here ← next.selector
          return here :: (← selectors next rest)
        else selectors next rest
      | .list _ => selectors next rest
      | _ => .ok []

-- Where a path leads, as a chain of selectors.
def location (start : Value) (path : Path) : Except Fault String := do
  let parts ← selectors (.root start) path
  if parts.isEmpty then return rootLabel else Value.joinTexts " > " parts

end MarkupDiff.Place
