import MarkupDiff.Number.Text
import MarkupDiff.Text.Quoted
import MarkupDiff.Value.Basic

namespace MarkupDiff

-- The name by which messages call a kind of value.
def Kind.name : Kind → String
  | .null => "NoneType"
  | .bool => "bool"
  | .int => "int"
  | .binary => "float"
  | .text => "str"
  | .markup => "Markup"
  | .bytes => "bytes"
  | .tuple => "tuple"
  | .list => "list"
  | .set => "frozenset"
  | .record => "dict"
  | .selfRendering => "Html"
  | .failing => "HtmlError"
  | .template => "Template"
  | .options => "DiffConfig"

namespace Value

-- Texts with a comma and a space between neighbours.
def commaSeparated (texts : List String) : String :=
  ", ".intercalate texts

-- A set of texts.
def shownSet (texts : List String) : String :=
  if texts.isEmpty then "frozenset()"
  else "frozenset(\x7b" ++ commaSeparated (texts.map quoted) ++ "\x7d)"

-- The items of a tuple; a single one is followed by a comma.
def tupleText : List String → String
  | [x] => "(" ++ x ++ ",)"
  | xs => "(" ++ commaSeparated xs ++ ")"

-- What a record that encloses itself shows in its own place.
def enclosing : String := "\x7b...\x7d"

mutual

-- The text of a value inside another one: texts are quoted.
def shown : Value → String
  | null => "None"
  | bool b => if b then "True" else "False"
  | num n => .ofList n.written
  | text s => quoted s
  | markup s => "Markup(" ++ quoted s ++ ")"
  | bytes bs => .ofList (Text.Quoted.quotedBytes bs)
  | tuple xs => tupleText (shownItems xs)
  | list xs => "[" ++ commaSeparated (shownItems xs) ++ "]"
  | set ts => shownSet ts
  | record es => "\x7b" ++ commaSeparated (shownEntries es) ++ "\x7d"
  | owner => enclosing
  | selfRendering _ _ => "<Html object>"
  | failing _ _ => "<HtmlError object>"
  | template _ _ => "<Template object>"
  | options ts => "DiffConfig(ignored_tags=" ++ shownSet ts ++ ")"

def shownItems : List Value → List String
  | [] => []
  | x :: xs => shown x :: shownItems xs

def shownEntries : List (Value × Value) → List String
  | [] => []
  | (k, v) :: es => (shown k ++ ": " ++ shown v) :: shownEntries es

end

-- The text of a value by itself: a text is its own text.
def plain (v : Value) : String :=
  v.text?.getD v.shown

end Value

end MarkupDiff
