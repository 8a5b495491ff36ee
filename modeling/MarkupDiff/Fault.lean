import MarkupDiff.Value.Text

namespace MarkupDiff

-- Why a text is not a JSON document.
inductive Json.Problem
  | byteOrderMark
  | value
  | propertyName
  | colon
  | comma
  | extraData
  | unterminatedText
  | controlCharacter
  | escape
  | unicodeEscape
  deriving DecidableEq

-- Why bytes are not UTF-8.
inductive Utf8.Problem
  | start
  | continuation
  | cutOff
  deriving DecidableEq

-- Why markup is refused.
inductive Markup.Problem
  -- a marked section whose keyword is not known; the keyword with the blanks after it
  | unknownKeyword (raw : String)
  -- a marked section without a keyword; the first characters of the section
  | missingKeyword (context : String)
  deriving DecidableEq

-- Everything that can go wrong, by its cause.
inductive Fault
  -- a record lacks the key
  | missingKey (key : Value)
  -- a sequence is too short for the index; `changing` when the item was to be replaced or removed
  | noSuchItem (container : Kind) (changing : Bool)
  -- an element is not among the children of its parent
  | notAmongSiblings
  -- values of this kind do not have the member
  | noMember (kind : Kind) (member : String)
  -- values of this kind have no items to go through
  | notIterable (kind : Kind)
  -- values of this kind cannot be asked whether they hold something
  | notSearchable (kind : Kind)
  -- bytes were asked whether they hold a text
  | bytesWanted (kind : Kind)
  -- values of this kind have nothing under a key
  | notSubscriptable (kind : Kind)
  -- values of this kind cannot replace or remove an item
  | notChangeable (kind : Kind) (removing : Bool)
  -- the index into a sequence is not an integer
  | badIndex (container index : Kind)
  -- a position was wanted
  | notAnInteger (kind : Kind)
  -- values of this kind cannot be keys
  | unhashable (kind : Kind)
  -- an item of a list that was to be joined is not a text
  | notJoinable (position : Nat) (kind : Kind)
  -- only text can be appended to text
  | notAppendable (kind : Kind)
  -- the two kinds have no sum
  | noSum (left right : Kind)
  -- a text was wanted
  | textWanted (kind : Kind)
  -- the two kinds have no order
  | notOrdered (left right : Kind)
  -- tag names were given as one text
  | tagsAsText
  -- options were given as something that is neither options nor a record
  | unsupportedOptions (kind : Kind)
  -- an option that is not known
  | unknownOption (key : Value)
  -- the file of options holds something other than an object
  | optionsNotRecord (path : String)
  -- a difference of a kind that has no sentence
  | unknownChange (kind : Option String)
  -- a value failed to give its markup
  | failedRendering (problem : String)
  -- a template could not be filled in
  | failedTemplate (problem : String)
  | noSuchFile (path : String)
  | isDirectory (path : String)
  -- bytes from `start` up to `stop` are not UTF-8; the first of them
  | badUtf8 (problem : Utf8.Problem) (byte : UInt8) (start stop : Nat)
  -- a text is not a JSON document: place by line, column and offset
  | badJson (problem : Json.Problem) (line column offset : Nat)
  | rejectedMarkup (problem : Markup.Problem)

def Json.Problem.message : Json.Problem → String
  | .byteOrderMark => "Unexpected UTF-8 BOM (decode using utf-8-sig)"
  | .value => "Expecting value"
  | .propertyName => "Expecting property name enclosed in double quotes"
  | .colon => "Expecting ':' delimiter"
  | .comma => "Expecting ',' delimiter"
  | .extraData => "Extra data"
  | .unterminatedText => "Unterminated string starting at"
  | .controlCharacter => "Invalid control character at"
  | .escape => "Invalid \\escape"
  | .unicodeEscape => "Invalid \\uXXXX escape"

def Utf8.Problem.message : Utf8.Problem → String
  | .start => "invalid start byte"
  | .continuation => "invalid continuation byte"
  | .cutOff => "unexpected end of data"

def Markup.Problem.message : Markup.Problem → String
  | .unknownKeyword raw => "unknown status keyword " ++ quoted raw ++ " in marked section"
  | .missingKeyword context => "expected name token at " ++ quoted context

-- Where the bytes stand that are not UTF-8.
def Utf8.placeMessage (byte : UInt8) (start stop : Nat) : String :=
  if stop ≤ start + 1 then
    "byte 0x" ++ String.ofList (Text.Quoted.hexDigits 2 byte.toNat) ++ s!" in position {start}"
  else s!"bytes in position {start}-{stop - 1}"

-- The sentence that reports a fault.
def Fault.message : Fault → String
  | missingKey key => key.shown
  | noSuchItem .list changing => if changing then "list assignment index out of range"
      else "list index out of range"
  | noSuchItem .text _ => "string index out of range"
  | noSuchItem .markup _ => "string index out of range"
  | noSuchItem .bytes _ => "index out of range"
  | noSuchItem kind _ => kind.name ++ " index out of range"
  | notAmongSiblings => ""
  | noMember kind member => "'" ++ kind.name ++ "' object has no attribute '" ++ member ++ "'"
  | notIterable kind => "'" ++ kind.name ++ "' object is not iterable"
  | notSearchable kind => "argument of type '" ++ kind.name ++ "' is not iterable"
  | bytesWanted kind => "a bytes-like object is required, not '" ++ kind.name ++ "'"
  | notSubscriptable kind => "'" ++ kind.name ++ "' object is not subscriptable"
  | notChangeable kind removing =>
    if removing then "'" ++ kind.name ++ "' object doesn't support item deletion"
    else "'" ++ kind.name ++ "' object does not support item assignment"
  | badIndex .text index => "string indices must be integers, not '" ++ index.name ++ "'"
  | badIndex .markup index => "string indices must be integers, not '" ++ index.name ++ "'"
  | badIndex .bytes index => "byte indices must be integers or slices, not " ++ index.name
  | badIndex container index =>
    container.name ++ " indices must be integers or slices, not " ++ index.name
  | notAnInteger kind => "'" ++ kind.name ++ "' object cannot be interpreted as an integer"
  | unhashable kind => "unhashable type: '" ++ kind.name ++ "'"
  | notJoinable position kind =>
    s!"sequence item {position}: expected str instance, " ++ kind.name ++ " found"
  | notAppendable kind => "can only concatenate str (not \"" ++ kind.name ++ "\") to str"
  | noSum left right =>
    "unsupported operand type(s) for +=: '" ++ left.name ++ "' and '" ++ right.name ++ "'"
  | textWanted kind => "expected string or bytes-like object, got '" ++ kind.name ++ "'"
  | notOrdered left right =>
    "'<' not supported between instances of '" ++ left.name ++ "' and '" ++ right.name ++ "'"
  | tagsAsText => "ignored_tags must be a sequence of tag names, not a string"
  | unsupportedOptions kind => "Unsupported diff config type: " ++ kind.name
  | unknownOption key => "Unknown diff config option: " ++ key.plain
  | optionsNotRecord path => "Diff config in " ++ path ++ " must be a JSON object"
  | unknownChange kind => "Unknown diff kind: " ++ kind.getD "None"
  | failedRendering problem => problem
  | failedTemplate problem => problem
  | noSuchFile path => "[Errno 2] No such file or directory: " ++ quoted path
  | isDirectory path => "[Errno 21] Is a directory: " ++ quoted path
  | badUtf8 problem byte start stop =>
    "'utf-8' codec can't decode " ++ Utf8.placeMessage byte start stop ++ ": " ++ problem.message
  | badJson problem line column offset =>
    problem.message ++ s!": line {line} column {column} (char {offset})"
  | rejectedMarkup problem =>
    "The markup you provided was rejected by the parser. Trying a different parser or a " ++
      "different encoding may help.\n\nOriginal exception(s) from parser:\n AssertionError: " ++
      problem.message

end MarkupDiff
