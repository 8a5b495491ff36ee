import MarkupDiff.Markup.Item
import MarkupDiff.Value.Access

namespace MarkupDiff

structure Attr where
  name : String
  value : String
  deriving DecidableEq, Repr, Inhabited

-- What a comparison looks at: elements, texts and comments.
inductive Node
  | element (tag : String) (attrs : List Attr) (children : List Node)
  | text (content : String)
  | comment (content : String)
  deriving Repr, Inhabited

-- The nodes of a document without a common root.
abbrev Fragment := List Node

namespace Attr

def ofPair (p : String × String) : Attr := ⟨p.1, p.2⟩

-- The text of a dynamic attribute value: items of a list are joined by one space, and null is
-- empty.
def valueText : Value → Except Fault String
  | .list vs => Value.joinTexts " " vs
  | .null => .ok ""
  | v => .ok v.plain

-- Attributes from named dynamic values, in their order and with names in lower case.
def ofValues (entries : List (String × Value)) : Except Fault (List Attr) :=
  entries.mapM fun (name, v) => (valueText v).map fun s => ⟨lowered name, s⟩

def toValue (a : Attr) : Value :=
  .record [(.text "name", .text a.name), (.text "value", .text a.value)]

end Attr

namespace Node

mutual

-- The nodes of an item: none for what is neither element nor text nor comment.
def ofItem : Markup.Item → List Node
  | .element tag attrs children => [.element tag (attrs.map Attr.ofPair) (ofItems children)]
  | .text content => [.text content]
  | .aside .comment content => [.comment content]
  | .aside _ _ => []

def ofItems : List Markup.Item → List Node
  | [] => []
  | i :: is => ofItem i ++ ofItems is

end

mutual

-- A node as a record. A node that has a parent leads back to it.
def toValue : Node → Value
  | element tag attrs children =>
    .record [(.text "type", .text "element"), (.text "tag", .text tag),
      (.text "attrs", .list (attrs.map Attr.toValue)),
      (.text "children", .list (toValues children)), (.text "parent", .owner)]
  | text content =>
    .record [(.text "type", .text "text"), (.text "content", .text content),
      (.text "parent", .owner)]
  | comment content =>
    .record [(.text "type", .text "comment"), (.text "content", .text content),
      (.text "parent", .owner)]

def toValues : List Node → List Value
  | [] => []
  | n :: ns => toValue n :: toValues ns

end

end Node

namespace Fragment

-- The fragment of a text.
def ofMarkup (markup : String) : Except Fault Fragment :=
  (Markup.items markup).map Node.ofItems

-- A fragment as a record, which has no parent.
def toValue (f : Fragment) : Value :=
  .record [(.text "type", .text "fragment"), (.text "children", .list (Node.toValues f)),
    (.text "parent", .null)]

end Fragment

end MarkupDiff
