import MarkupDiff.Node.Basic
import MarkupDiff.Text.Case

namespace MarkupDiff.Tree

-- The children in a record are linked to it.
def linkChildren (record : Value) : Value :=
  match record.field? "children" with
  | some (.list children) =>
    record.withField "children" (.list (children.map (·.withField "parent" .owner)))
  | _ => record

mutual

-- The record of an item, none for what is neither element nor text nor comment. Records are made
-- without a parent, and an element is then made the parent of its children. Names are put in lower
-- case.
def recordsOf : Markup.Item → List Value
  | .element tag attrs children =>
    [linkChildren (.record [("type", "element"), ("tag", lowered tag),
      ("attrs", .list (attrs.map fun a => .record [("name", lowered a.1), ("value", a.2)])),
      ("children", .list (recordsOfAll children)), ("parent", .null)])]
  | .text content => [.record [("type", "text"), ("content", content), ("parent", .null)]]
  | .aside .comment content =>
    [.record [("type", "comment"), ("content", content), ("parent", .null)]]
  | .aside _ _ => []

def recordsOfAll : List Markup.Item → List Value
  | [] => []
  | i :: is => recordsOf i ++ recordsOfAll is

end

-- The tree that is made from a text, step by step.
def ofMarkup (markup : String) : Except Fault Value := do
  let is ← Markup.items markup
  return linkChildren (.record [("type", "fragment"), ("children", .list (recordsOfAll is)),
    ("parent", .null)])

end MarkupDiff.Tree
