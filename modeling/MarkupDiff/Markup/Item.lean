import MarkupDiff.Markup.Scan

namespace MarkupDiff.Markup

-- What a document can hold besides elements and texts.
inductive Aside
  | comment
  | doctype
  | characterData
  | declaration
  | instruction
  deriving DecidableEq, Repr

-- A part of a document. Attribute names are distinct.
inductive Item
  | element (tag : String) (attrs : List (String × String)) (children : List Item)
  | text (content : String)
  | aside (kind : Aside) (content : String)
  deriving Repr, Inhabited

-- Elements that never have content.
def voidElements : List String :=
  ["area", "base", "br", "col", "embed", "hr", "img", "input", "keygen", "link", "menuitem",
   "meta", "param", "source", "track", "wbr", "basefont", "bgsound", "command", "frame", "image",
   "isindex", "nextid", "spacer"]

-- Elements in which blank text is kept as it is.
def preformattedElements : List String := ["pre", "textarea"]

-- An element that has begun and not ended; its children so far, the last one first.
structure Open where
  tag : String
  attrs : List (String × String)
  children : List Item := []

-- The document so far: its own children and the open elements, each the last or innermost one
-- first; the text that may still go on; and the void elements whose end tags are still awaited.
structure Builder where
  done : List Item := []
  opened : List Open := []
  pending : Option (List Char) := none
  closed : List String := []

namespace Builder

-- Adds an item to the innermost open element.
def add (b : Builder) (i : Item) : Builder :=
  match b.opened with
  | [] => { b with done := i :: b.done }
  | o :: os => { b with opened := { o with children := i :: o.children } :: os }

-- Text goes on.
def push (b : Builder) (text : List Char) : Builder :=
  { b with pending := some (b.pending.getD [] ++ text) }

-- Blank text is one line feed if it holds one, otherwise one space, unless preformatted.
def settled (b : Builder) (text : List Char) : List Char :=
  if text.all Text.isMarkupBlank && !(b.opened.any fun o => preformattedElements.contains o.tag) then
    if text.contains '\n' then ['\n'] else [' ']
  else text

-- The text that was pending becomes an item.
def flush (b : Builder) (make : String → Item) : Builder :=
  match b.pending with
  | none => b
  | some text => ({ b with pending := none }).add (make (.ofList (b.settled text)))

-- The innermost open element ends.
def pop (b : Builder) : Builder :=
  match b.opened with
  | [] => b
  | o :: os => ({ b with opened := os }).add (.element o.tag o.attrs o.children.reverse)

-- Ends the given number of open elements.
def popMany (b : Builder) : Nat → Builder
  | 0 => b
  | n + 1 => b.pop.popMany n

-- Ends the innermost open element with the tag and everything in it; without one nothing happens.
def close (b : Builder) (tag : String) : Builder :=
  match b.opened.findIdx? (·.tag == tag) with
  | some i => b.popMany (i + 1)
  | none => b

-- A later value of an attribute replaces an earlier one; a missing value is empty.
def attrsOf (as : List (List Char × Option (List Char))) : List (String × String) :=
  as.foldl (fun attrs (name, v) => put (.ofList name) (.ofList (v.getD [])) attrs) []
where
  put (name value : String) : List (String × String) → List (String × String)
    | [] => [(name, value)]
    | a :: rest => if a.1 == name then (name, value) :: rest else a :: put name value rest

-- An element begins.
def start (b : Builder) (name : List Char) (as : List (List Char × Option (List Char))) :
    Builder :=
  let b := b.flush .text
  { b with opened := { tag := .ofList name, attrs := attrsOf as } :: b.opened }

-- An item that is no element and stands apart from the text around it.
def apart (b : Builder) (kind : Aside) (text : List Char) : Builder :=
  ((b.flush .text).push text).flush (.aside kind)

-- The kind of a declaration, with its content.
def declared (text : List Char) : Aside × List Char :=
  if (text.take 6).map Char.toUpper == "CDATA[".toList then (.characterData, text.drop 6)
  else (.declaration, text)

-- Takes one token. A void element ends at once, and the next end tag with its name is passed over.
-- An element that ends itself ends at once too, also where such an end tag is still awaited, so that
-- `<br><br/>x` is two empty elements and a text.
def token (b : Builder) : Token → Builder
  | .data text => b.push text
  | .startTag name as =>
    let b := b.start name as
    let tag := String.ofList name
    if voidElements.contains tag then { b.pop with closed := b.closed ++ [tag] } else b
  | .closedTag name as => (b.start name as).pop
  | .endTag name =>
    let tag := String.ofList name
    if b.closed.contains tag then { b with closed := b.closed.erase tag }
    else (b.flush .text).close tag
  | .comment text => b.apart .comment text
  | .doctype text => b.apart .doctype text
  | .instruction text => b.apart .instruction text
  | .declaration text =>
    let (kind, content) := declared text
    b.apart kind content

-- The end of the document ends everything.
def finish (b : Builder) : List Item :=
  let b := b.flush .text
  (b.popMany b.opened.length).done.reverse

end Builder

-- The document that tokens make. Every element without an end tag ends where its parent does.
def Item.ofTokens (ts : List Token) : List Item :=
  (ts.foldl Builder.token {}).finish

-- The document of a text.
def items (markup : String) : Except Fault (List Item) :=
  match tokens markup.toList with
  | .ok ts => .ok (Item.ofTokens ts)
  | .error problem => .error (.rejectedMarkup problem)

end MarkupDiff.Markup
