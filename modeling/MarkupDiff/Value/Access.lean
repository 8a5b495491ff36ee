import MarkupDiff.Fault

namespace MarkupDiff.Value

-- The values that going through a value yields: the items of a sequence, the texts of a set, the
-- keys of a record, the characters of a text, the numbers of bytes.
def items : Value → Except Fault (List Value)
  | list xs => .ok xs
  | tuple xs => .ok xs
  | set ts => .ok (ts.map .text)
  | record es => .ok (es.map (·.1))
  | text s => .ok (s.toList.map fun c => .text (.singleton c))
  | markup s => .ok (s.toList.map fun c => .text (.singleton c))
  | bytes bs => .ok (bs.map fun b => .nat b.toNat)
  | v => .error (.notIterable v.kind)

-- The value under a name. Only records have one; the fault tells how another value misses it.
def named (key : String) : Value → Except Fault Value
  | record es =>
    match lookup (.text key) es with
    | some v => .ok v
    | none => .error (.missingKey (.text key))
  | list _ => .error (.badIndex .list .text)
  | tuple _ => .error (.badIndex .tuple .text)
  | text _ => .error (.badIndex .text .text)
  | markup _ => .error (.badIndex .text .text)
  | bytes _ => .error (.badIndex .bytes .text)
  | v => .error (.notSubscriptable v.kind)

-- The value under a name of a record, or a default; every other value refuses.
def namedOr (v : Value) (key : String) (default : Value) : Except Fault Value :=
  match v with
  | record es => .ok ((lookup (.text key) es).getD default)
  | v => .error (.noMember v.kind "get")

mutual

-- The part of a value that keeps it from being a key.
def unhashablePart? : Value → Option Kind
  | list _ => some .list
  | record _ => some .record
  | owner => some .record
  | tuple xs => unhashableItem? xs
  | _ => none

def unhashableItem? : List Value → Option Kind
  | [] => none
  | x :: xs => (unhashablePart? x).or (unhashableItem? xs)

end

-- Some part of the text reads `part`.
def containsText (part : List Char) : List Char → Bool
  | [] => part.isEmpty
  | c :: cs => part.isPrefixOf (c :: cs) || containsText part cs

-- The value holds the text `key`: as a key, as an item, or as a part.
def holdsText (key : String) : Value → Except Fault Bool
  | record es => .ok (lookup (.text key) es).isSome
  | list xs => .ok (xs.any (equal (.text key)))
  | tuple xs => .ok (xs.any (equal (.text key)))
  | set ts => .ok (ts.contains key)
  | text s => .ok (containsText key.toList s.toList)
  | markup s => .ok (containsText key.toList s.toList)
  | bytes _ => .error (.bytesWanted .text)
  | v => .error (.notSearchable v.kind)

-- The sum by which a value grows: texts are joined, numbers added, sequences extended.
def extendedBy (a b : Value) : Except Fault Value :=
  match a.text?, a with
  | some s, _ =>
    match b.text? with
    | some t => .ok (.text (s ++ t))
    | none => .error (.notAppendable b.kind)
  | none, .list xs => b.items.map fun ys => .list (xs ++ ys)
  | none, .tuple xs =>
    match b with
    | .tuple ys => .ok (.tuple (xs ++ ys))
    | _ => .error (.noSum a.kind b.kind)
  | none, _ =>
    match a.number?, b.number? with
    | some m, some n => .ok (.num (m.add n))
    | _, _ => .error (.noSum a.kind b.kind)

-- The texts one after the other with `separator` between neighbours; every item has to be text.
def joinTexts (separator : String) (items : List Value) : Except Fault String := do
  let texts ← (items.zipIdx).mapM fun (v, i) =>
    match v.text? with
    | some s => Except.ok s
    | none => .error (.notJoinable i v.kind)
  return separator.intercalate texts

end MarkupDiff.Value
