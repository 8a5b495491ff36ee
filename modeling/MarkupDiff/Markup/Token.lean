namespace MarkupDiff.Markup

-- A piece of markup. Names are in lower case; an attribute without a value has none, and
-- references are replaced.
inductive Token
  | data (text : List Char)
  | startTag (name : List Char) (attrs : List (List Char × Option (List Char)))
  | closedTag (name : List Char) (attrs : List (List Char × Option (List Char)))
  | endTag (name : List Char)
  | comment (text : List Char)
  | doctype (text : List Char)
  | instruction (text : List Char)
  | declaration (text : List Char)
  deriving DecidableEq, Repr

end MarkupDiff.Markup
