import MarkupDiff.Difference.Entry
import MarkupDiff.Place.Selector

namespace MarkupDiff

-- The value is an attribute: it has a name and a value and no type.
def Value.isAttribute (v : Value) : Except Fault Bool := do
  if !(← v.holdsText "name") then return false
  else if !(← v.holdsText "value") then return false
  else return !(← v.holdsText "type")

-- A short description of the node or attribute in focus.
def Place.description (p : Place) : Except Fault String := do
  let node := p.focus
  match node with
  | .null => return "nothing"
  | _ =>
    if ← node.isAttribute then
      let name ← node.named "name"
      let value ← node.named "value"
      return "attribute [" ++ name.plain ++ "=\"" ++ value.plain ++ "\"]"
    else
      let type ← node.namedOr "type" .null
      if type.isText "element" then return "tag <" ++ (← node.named "tag").plain ++ ">"
      else if type.isText "text" then return "text \"" ++ (← node.named "content").plain ++ "\""
      else if type.isText "comment" then
        return "comment \"" ++ (← node.named "content").plain ++ "\""
      else if type.isText "fragment" then return "document fragment"
      else return "node " ++ p.shown

-- The sentence for a difference between what stands at `left` and what stands at `right`.
def Entry.message (e : Entry) (left right : Place) : Except Fault String := do
  if e.changeKind == some deleted then return (← left.description) ++ " has been removed"
  else if e.changeKind == some added then return (← right.description) ++ " has been added"
  else if e.changeKind == some edited then
    return (← left.description) ++ " has changed to " ++ (← right.description)
  else .error (.unknownChange e.kind)

-- A difference in words: what has happened, and where.
structure Report where
  message : String
  path : String
  deriving DecidableEq, Repr

-- The report of a change between two trees. What is on one side only is looked for on both, so
-- that an edit can name the old and the new object; the location is one of the left tree.
def Report.ofChange (left right : Value) (c : Change) : Except Fault Report := do
  let old ← Place.located left c.fullPath
  let new ← Place.located right c.fullPath
  let message ← c.toEntry.message old new
  let path ← Place.location left c.toEntry.path
  return ⟨message, path⟩

-- The text of a report in one sentence.
def Report.text (r : Report) : String :=
  r.message ++ ", at path: " ++ r.path

end MarkupDiff
