import MarkupDiff.Text.Blank
import MarkupDiff.Text.Case
import MarkupDiff.Value.Access

namespace MarkupDiff

-- The settings of a comparison: tags whose elements do not count, in ascending order and without
-- repetition.
structure Options where
  ignoredTags : List String := []
  deriving DecidableEq, Repr, Inhabited

namespace Options

-- A tag among ascending tags, once.
def insertTag (tag : String) : List String → List String
  | [] => [tag]
  | t :: ts => if tag < t then tag :: t :: ts else if tag == t then t :: ts else t :: insertTag tag ts

-- The tags in ascending order, each once.
def tagSet (tags : List String) : List String :=
  tags.foldr insertTag []

-- A tag name in its usual form: in lower case and without blanks around it. A blank name is none.
def tagName? (name : String) : Option String :=
  let s := stripped name
  if s.isEmpty then none else some (lowered s)

-- The tags that a value names, one by each of its items. Null names none, and a text by itself is
-- refused, since its items are characters.
def tagNames (v : Value) : Except Fault (List String) :=
  match v with
  | .null => .ok []
  | .text _ => .error .tagsAsText
  | .markup _ => .error .tagsAsText
  | v => v.items.map fun vs => tagSet (vs.filterMap fun t => tagName? t.plain)

-- Options with the tags that a value names.
def ofTags (v : Value) : Except Fault Options :=
  (tagNames v).map fun ts => ⟨ts⟩

-- The two spellings of the only option.
def isTagsKey (key : Value) : Bool :=
  key.isText "ignored_tags" || key.isText "ignoredTags"

-- Options from the entries of a record. A key of another name is refused before any value is
-- looked at; of both spellings the one that stands last counts.
def ofEntries (entries : List (Value × Value)) : Except Fault Options :=
  match entries.find? fun e => !isTagsKey e.1 with
  | some e => .error (.unknownOption e.1)
  | none =>
    match entries.getLast? with
    | some e => ofTags e.2
    | none => .ok {}

-- Options from whatever they are given as.
def resolve : Value → Except Fault Options
  | .null => .ok {}
  | .options ts => .ok ⟨ts⟩
  | .record es => ofEntries es
  | v => .error (.unsupportedOptions v.kind)

-- Tags whose elements never count.
def alwaysIgnored : List String := ["script", "style"]

-- An element with this tag does not count. Tags are compared in lower case.
def prunes (o : Options) (tag : String) : Bool :=
  alwaysIgnored.contains (lowered tag) || o.ignoredTags.contains (lowered tag)

end Options

end MarkupDiff
