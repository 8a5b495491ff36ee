import MarkupDiff.Node.Basic
import MarkupDiff.Options

namespace MarkupDiff

-- Not after `b` in the order of code points.
def textLe (a b : String) : Bool :=
  !(b < a)

-- The words of a class value in ascending order, with one space between neighbours.
def classValue (value : String) : String :=
  " ".intercalate ((wordsOf value).mergeSort textLe)

namespace Attr

-- The attribute in its usual form: the order of class words does not matter.
def canonical (a : Attr) : Attr :=
  if a.name == "class" then { a with value := classValue a.value } else a

-- Attributes in the order of their names; those with one name keep their order.
def sorted (attrs : List Attr) : List Attr :=
  (attrs.mergeSort fun a b => textLe a.name b.name).map canonical

end Attr

namespace Node

-- The node does not count: a comment, or an element with an ignored tag.
def isPruned (o : Options) : Node → Bool
  | element tag _ _ => o.prunes tag
  | text _ => false
  | comment _ => true

-- Joins texts that stand next to each other.
def mergeTexts : List Node → List Node
  | [] => []
  | text s :: ns =>
    match mergeTexts ns with
    | text t :: rest => text (s ++ t) :: rest
    | rest => text s :: rest
  | n :: ns => n :: mergeTexts ns

-- The node is a text of nothing but markup blanks.
def isBlankText : Node → Bool
  | text s => s.toList.all Text.isMarkupBlank
  | _ => false

-- What counts among siblings: nothing ignored, texts joined, no blank text.
def settled (o : Options) (ns : List Node) : List Node :=
  (mergeTexts (ns.filter (!·.isPruned o))).filter (!·.isBlankText)

mutual

-- The normal form of a node: its attributes sorted, its children settled, each in normal form.
def normal (o : Options) : Node → Node
  | element tag attrs children =>
    element tag (Attr.sorted attrs) (settled o (normals o children))
  | text s => text s
  | comment s => comment s

def normals (o : Options) : List Node → List Node
  | [] => []
  | n :: ns => normal o n :: normals o ns

end

end Node

-- The normal form of a fragment.
def Fragment.normal (o : Options) (f : Fragment) : Fragment :=
  Node.settled o (Node.normals o f)

end MarkupDiff
