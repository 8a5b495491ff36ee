import MarkupDiff.Node.Normal
import MarkupDiff.Value.Order

namespace MarkupDiff.Tree

-- A change that may stop half way: the value as far as it has been changed, and the fault.
structure Attempt where
  value : Value
  fault : Option Fault := none

-- The changed value of a change that did not stop.
def Attempt.result (a : Attempt) : Except Fault Value :=
  match a.fault with
  | some f => .error f
  | none => .ok a.value

-- What a change that stops half way has done to a list, and its result where it does not stop.
structure Outcome (α : Type) where
  items : List Value
  result : Except Fault α

-- One attribute in its usual form; only a class value needs changing.
def canonicalAttr (a : Value) : Except Fault Value := do
  if (← a.named "name").isText "class" then
    let v ← a.named "value"
    match v.text? with
    | some s => return a.withField "value" (.text (classValue s))
    | none => .error (.noMember v.kind "split")
  else return a

-- Brings the attributes at the given positions into their usual form, one after the other. The
-- second list collects them.
def canonicalAt (items : List Value) : List Nat → Outcome (List Value)
  | [] => ⟨items, .ok []⟩
  | i :: is =>
    match canonicalAttr (items.getD i .null) with
    | .error fault => ⟨items, .error fault⟩
    | .ok a =>
      let more := canonicalAt (items.set i a) is
      ⟨more.items, more.result.map (a :: ·)⟩

-- The positions of attributes in the order of their names.
def orderByName (items : List Value) : Except Fault (List Nat) := do
  let names ← items.mapM (·.named "name")
  Value.sortByKey (names.zip (List.range items.length))

-- Attributes in the order of their names and in their usual form. The given list keeps its order
-- and takes over the usual form of its members.
def sortAttributes (items : List Value) : Outcome (List Value) :=
  match orderByName items with
  | .error fault => ⟨items, .error fault⟩
  | .ok order => canonicalAt items order

-- Replaces the items of a list; any other value stays as it is.
def withItems (v : Value) (items : List Value) : Value :=
  match v with
  | .list _ => .list items
  | v => v

-- The attributes of an element are sorted.
def normalizeAttrs (node : Value) : Attempt :=
  match (do let v ← node.named "attrs"; return (v, ← v.items) : Except Fault _) with
  | .error fault => ⟨node, some fault⟩
  | .ok (v, items) =>
    let sorted := sortAttributes items
    match sorted.result with
    | .ok as => ⟨node.withField "attrs" (.list as), none⟩
    | .error fault => ⟨node.withField "attrs" (withItems v sorted.items), some fault⟩

-- The child does not count.
def isPruned (o : Options) (child : Value) : Except Fault Bool := do
  let type ← child.named "type"
  if type.isText "comment" then return true
  else if type.isText "element" then
    let tag ← child.named "tag"
    match tag.text? with
    | some s => return o.prunes s
    | none => .error (.noMember tag.kind "lower")
  else return false

-- The positions of the children that count.
def keptAt (o : Options) (items : List Value) : Except Fault (List Nat) :=
  (List.range items.length).filterM fun i =>
    (isPruned o (items.getD i .null)).map (!·)

-- The child is a text.
def isTextNode (child : Value) : Bool :=
  (child.field? "type").any (·.isText "text")

-- The first of two texts with the content of both.
def joined (first second : Value) : Except Fault Value := do
  let a ← first.named "content"
  let b ← second.named "content"
  return first.withField "content" (← a.extendedBy b)

-- Joins every text at the given positions to the text before it, if that is the position kept
-- last. Positions that remain come out in order.
def mergeAt (items : List Value) (last : Option Nat) : List Nat → Outcome (List Nat)
  | [] => ⟨items, .ok last.toList⟩
  | i :: is =>
    match last with
    | none => mergeAt items (some i) is
    | some j =>
      let child := items.getD i .null
      let before := items.getD j .null
      if isTextNode child && isTextNode before then
        match joined before child with
        | .error fault => ⟨items, .error fault⟩
        | .ok text => mergeAt (items.set j text) (some j) is
      else
        let more := mergeAt items (some i) is
        ⟨more.items, more.result.map (j :: ·)⟩

-- The child is not a text of nothing but markup blanks.
def isVisible (child : Value) : Except Fault Bool := do
  if isTextNode child then
    let content ← child.named "content"
    match content.text? with
    | some s => return !s.toList.all Text.isMarkupBlank
    | none => .error (.textWanted content.kind)
  else return true

-- What counts among children: nothing ignored, texts joined, no blank text. The given list keeps
-- all its members, and takes over the joined texts.
def settle (o : Options) (items : List Value) : Outcome (List Value) :=
  match keptAt o items with
  | .error fault => ⟨items, .error fault⟩
  | .ok kept =>
    let merged := mergeAt items none kept
    match merged.result with
    | .error fault => ⟨merged.items, .error fault⟩
    | .ok positions =>
      ⟨merged.items, (positions.map fun i => merged.items.getD i .null).filterM isVisible⟩

-- Changes the members of a list in order, up to the first fault.
def eachChild (change : Value → Attempt) : List Value → List Value × Option Fault
  | [] => ([], none)
  | c :: cs =>
    match change c with
    | ⟨d, some fault⟩ => (d :: cs, some fault)
    | ⟨d, none⟩ =>
      let (ds, fault) := eachChild change cs
      (d :: ds, fault)

-- Brings the children of a node into order and then each of them into normal form by `change`,
-- after it has been linked to the node.
def normalizeChildren (o : Options) (change : Value → Attempt) (node : Value) : Attempt :=
  match node.field? "children" with
  | none => ⟨node, none⟩
  | some v =>
    match v.items with
    | .error fault => ⟨node, some fault⟩
    | .ok items =>
      let settled := settle o items
      match settled.result with
      | .error fault => ⟨node.withField "children" (withItems v settled.items), some fault⟩
      | .ok children =>
        let (done, fault) := eachChild (fun c => change (c.withField "parent" .owner)) children
        ⟨node.withField "children" (.list done), fault⟩

-- How deep a value is nested.
mutual

def depth : Value → Nat
  | .list vs => depths vs + 1
  | .tuple vs => depths vs + 1
  | .record es => entryDepths es + 1
  | _ => 1

def depths : List Value → Nat
  | [] => 0
  | v :: vs => max (depth v) (depths vs)

def entryDepths : List (Value × Value) → Nat
  | [] => 0
  | (_, v) :: es => max (depth v) (entryDepths es)

end

-- Normal form down to `fuel` levels below the node.
def normalizeWithin (o : Options) : Nat → Value → Attempt
  | 0, node => ⟨node, none⟩
  | fuel + 1, node =>
    match node.named "type" with
    | .error fault => ⟨node, some fault⟩
    | .ok type =>
      let sorted : Attempt := if type.isText "element" then normalizeAttrs node else ⟨node, none⟩
      match sorted.fault with
      | some _ => sorted
      | none => normalizeChildren o (normalizeWithin o fuel) sorted.value

-- The normal form of a tree, in place: what does not count is taken out, texts are joined, blank
-- texts are taken out, attributes are sorted, and children are linked to their owners. A tree
-- that lacks something is changed up to the place where it is missed.
def normalize (o : Options) (tree : Value) : Attempt :=
  normalizeWithin o (depth tree) tree

-- The normal form of a tree where the ignored tags are those that a value names. Tags that are
-- refused leave the tree as it is.
def normalizeIgnoring (tags tree : Value) : Attempt :=
  match Options.ofTags tags with
  | .error fault => ⟨tree, some fault⟩
  | .ok o => normalize o tree

mutual

-- Every child leads back to its owner. `isRoot` says that the value itself need not.
def isLinked (isRoot : Bool) : Value → Bool
  | .record es => (isRoot || leadsBack es) && areChildrenLinked es
  | _ => true

-- The children in these entries are linked.
def areChildrenLinked : List (Value × Value) → Bool
  | [] => true
  | (k, .list vs) :: es => (!k.isText "children" || areLinked vs) && areChildrenLinked es
  | _ :: es => areChildrenLinked es

def areLinked : List Value → Bool
  | [] => true
  | v :: vs => isLinked false v && areLinked vs

-- The entries lead back to an owner.
def leadsBack : List (Value × Value) → Bool
  | [] => false
  | (k, v) :: es => (k.isText "parent" && (match v with | .owner => true | _ => false)) || leadsBack es

end

end MarkupDiff.Tree
