import MarkupDiff.Markup.Item

namespace MarkupDiff.Markup

-- A character of text or of an attribute value, with the three that markup needs replaced.
def escapedChar : Char → List Char
  | '&' => "&amp;".toList
  | '<' => "&lt;".toList
  | '>' => "&gt;".toList
  | c => [c]

def escaped (s : String) : String :=
  .ofList (s.toList.flatMap escapedChar)

-- An attribute value between quotes: double ones, unless it holds double quotes and no single ones.
def quotedValue (s : String) : String :=
  if s.contains '"' then
    if s.contains '\'' then
      "\"" ++ String.ofList (s.toList.flatMap fun c => if c == '"' then "&quot;".toList else [c]) ++ "\""
    else "'" ++ s ++ "'"
  else "\"" ++ s ++ "\""

-- Attributes whose value is a list of words.
def isWordList (tag name : String) : Bool :=
  ["class", "accesskey", "dropzone"].contains name ||
    match name with
    | "rel" => ["a", "link", "area"].contains tag
    | "rev" => ["a", "link"].contains tag
    | "headers" => ["td", "th"].contains tag
    | "accept-charset" => tag == "form"
    | "archive" => tag == "object"
    | "sizes" => tag == "icon"
    | "sandbox" => tag == "iframe"
    | "for" => tag == "output"
    | _ => false

-- The name of the encoding in which markup is written.
def encodingName : String := "utf-8"

-- What a charset parameter begins with.
def charsetMark : List Char := "charset=".toList

-- The value of every charset becomes the encoding in which markup is written. A charset begins a
-- text or follows a blank or a semicolon, which `fresh` says; `inValue` says that the value of one
-- is under way, which goes on up to the next semicolon.
def reencoded (fresh inValue : Bool) : List Char → List Char
  | [] => []
  | c :: cs =>
    if inValue && c != ';' then reencoded false true cs
    else if fresh && charsetMark.isPrefixOf (c :: cs) then
      charsetMark ++ encodingName.toList ++ reencoded false true cs
    else c :: reencoded (Text.isBlank c || c == ';') false cs

def withEncoding (value : String) : String :=
  .ofList (reencoded true false value.toList)

-- The attributes of an element that says how the document is encoded say how it is written.
def encodingAttrs (tag : String) (attrs : List (String × String)) : List (String × String) :=
  let valueOf (name : String) := (attrs.find? (·.1 == name)).map (·.2)
  if tag != "meta" then attrs
  else if (valueOf "charset").isSome then
    attrs.map fun a => if a.1 == "charset" then (a.1, encodingName) else a
  else if (valueOf "http-equiv").any (lowered · == "content-type") then
    attrs.map fun a => if a.1 == "content" then (a.1, withEncoding a.2) else a
  else attrs

-- Before the attribute `b` in the order of names.
def attrBefore (a b : String × String) : Bool :=
  !(b.1 < a.1)

-- The attributes of an element as they are written, in the order of their names.
def attrsText (tag : String) (attrs : List (String × String)) : String :=
  String.join (((encodingAttrs tag attrs).mergeSort attrBefore).map fun (name, value) =>
    let value := if isWordList tag name then " ".intercalate (wordsOf value) else value
    " " ++ name ++ "=" ++ quotedValue (escaped value))

-- An aside between its marks.
def asideText (kind : Aside) (content : String) : String :=
  match kind with
  | .comment => "<!--" ++ content ++ "-->"
  | .doctype => "<!DOCTYPE " ++ content ++ ">\n"
  | .characterData => "<![CDATA[" ++ content ++ "]]>"
  | .declaration => "<?" ++ content ++ "?>"
  | .instruction => "<?" ++ content ++ ">"

namespace Item

mutual

-- An item as markup; `raw` says that it stands right in an element with raw text.
def printed (raw : Bool) : Item → String
  | element tag attrs children =>
    let inside := "<" ++ tag ++ attrsText tag attrs
    if children.isEmpty && voidElements.contains tag then inside ++ "/>"
    else inside ++ ">" ++ printedAll (Scan.rawElements.contains tag) children ++ "</" ++ tag ++ ">"
  | text content => if raw then content else escaped content
  | aside kind content => asideText kind content

def printedAll (raw : Bool) : List Item → String
  | [] => ""
  | i :: is => printed raw i ++ printedAll raw is

end

end Item

end MarkupDiff.Markup
