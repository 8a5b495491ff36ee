import MarkupDiff.Markup.Marker
import MarkupDiff.Markup.Printed

namespace MarkupDiff

-- The markup of a template.
def Template.markup : Template → Except Fault String
  | writes s => .ok s
  | fails problem => .error (.failedTemplate problem)

namespace Rendering

mutual

-- The values in a nesting of lists and tuples, in order and without null. Templates have already
-- written their markup.
def leaves : Value → Except Fault (List Value)
  | .null => .ok []
  | .list vs => leavesAll vs
  | .tuple vs => leavesAll vs
  | .template _ t => t.markup.map fun s => [.markup s]
  | v => .ok [v]

def leavesAll : List Value → Except Fault (List Value)
  | [] => .ok []
  | v :: vs => do return (← leaves v) ++ (← leavesAll vs)

end

-- A character of text that becomes markup.
def safeChar : Char → List Char
  | '&' => "&amp;".toList
  | '<' => "&lt;".toList
  | '>' => "&gt;".toList
  | '\'' => "&#39;".toList
  | '"' => "&#34;".toList
  | c => [c]

-- Text as markup that shows just this text.
def safe (s : String) : String :=
  .ofList (s.toList.flatMap safeChar)

-- The markup of a leaf: its own if it has any, otherwise that of its text.
def leafMarkup : Value → Except Fault String
  | .markup s => .ok s
  | .selfRendering _ s => .ok s
  | .failing _ problem => .error (.failedRendering problem)
  | v => .ok (safe v.plain)

-- The markup of all leaves, one after the other.
def joinedMarkup (v : Value) : Except Fault String := do
  let texts ← (← leaves v).mapM leafMarkup
  return String.join texts

-- A value as markup in its canonical spelling.
def rendered (v : Value) : Except Fault String := do
  return Markup.Item.printedAll false (← Markup.items (← joinedMarkup v))

-- A value as markup without markers. Text is taken for markup as it is.
def markupOf (v : Value) : Except Fault String :=
  match v.text? with
  | some s => .ok (Markup.sanitize s)
  | none => (rendered v).map Markup.sanitize

end Rendering

end MarkupDiff
