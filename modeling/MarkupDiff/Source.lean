import MarkupDiff.Json.Reader
import MarkupDiff.Node.Basic
import MarkupDiff.Options
import MarkupDiff.Text.Lines
import MarkupDiff.Text.Utf8

namespace MarkupDiff

-- What is found under the path of a file.
inductive Source
  | absent
  | directory
  | file (bytes : List UInt8)

namespace Source

-- The text of a file.
def text (path : String) : Source → Except Fault String
  | absent => .error (.noSuchFile path)
  | directory => .error (.isDirectory path)
  | file bytes => (Utf8.decode bytes).map fun cs => .ofList (Text.lineFeeds cs)

end Source

-- The fragment that a file holds.
def Fragment.load (path : String) (source : Source) : Except Fault Fragment := do
  Fragment.ofMarkup (← source.text path)

-- The options that a file holds: an object as it is accepted for options.
def Options.load (path : String) (source : Source) : Except Fault Options := do
  match ← Json.read (← source.text path) with
  | .record es => Options.ofEntries es
  | _ => .error (.optionsNotRecord path)

end MarkupDiff
