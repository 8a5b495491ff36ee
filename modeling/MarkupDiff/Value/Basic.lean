import MarkupDiff.Number.Basic

namespace MarkupDiff

-- What comes of filling in a template: markup, or the problem that keeps it from being written.
inductive Template
  | writes (markup : String)
  | fails (problem : String)
  deriving DecidableEq

-- Nested data: scalars, sequences, sets of texts and records. A record keeps its entries in the
-- order in which they were put in, and no two of its keys are equal. The texts of a set stand in
-- ascending order, each once. `owner` stands for the record in whose list of children the record
-- that holds it is found. Objects with no visible content are told apart by where they occur.
inductive Value
  | null
  | bool (b : Bool)
  | num (n : Number)
  | text (s : String)
  | markup (s : String)
  | bytes (bs : List UInt8)
  | tuple (items : List Value)
  | list (items : List Value)
  | set (texts : List String)
  | record (entries : List (Value × Value))
  | owner
  | selfRendering (occurrence : Nat) (source : String)
  | failing (occurrence : Nat) (problem : String)
  | template (occurrence : Nat) (outcome : Template)
  | options (ignoredTags : List String)
  deriving Inhabited

-- What sort of value a value is.
inductive Kind
  | null | bool | int | binary | text | markup | bytes | tuple | list | set | record
  | selfRendering | failing | template | options
  deriving DecidableEq

namespace Value

def int (n : Int) : Value := .num (.int n)

def nat (n : Nat) : Value := .int n

instance : Coe String Value := ⟨.text⟩

def kind : Value → Kind
  | null => .null
  | bool _ => .bool
  | num (.int _) => .int
  | num (.binary _) => .binary
  | text _ => .text
  | markup _ => .markup
  | bytes _ => .bytes
  | tuple _ => .tuple
  | list _ => .list
  | set _ => .set
  | record _ => .record
  | owner => .record
  | selfRendering _ _ => .selfRendering
  | failing _ _ => .failing
  | template _ _ => .template
  | options _ => .options

-- The text of a value that is text.
def text? : Value → Option String
  | text s => some s
  | markup s => some s
  | _ => none

-- The number that a value counts as. The truth values count as 0 and 1.
def number? : Value → Option Number
  | bool b => some (.int (if b then 1 else 0))
  | num n => some n
  | _ => none

-- The integer that a value counts as.
def int? : Value → Option Int
  | bool b => some (if b then 1 else 0)
  | num (.int n) => some n
  | _ => none

mutual

-- Equality by content. Numbers are equal when they are the same size, texts when they have the
-- same characters, and records when they give equal values to equal keys, in whatever order.
def equal : Value → Value → Bool
  | null, null => true
  | bool b, w => w.number?.any (·.magnitude == .rational (if b then 1 else 0))
  | num m, w => w.number?.any (·.magnitude == m.magnitude)
  | text s, w => w.text? == some s
  | markup s, w => w.text? == some s
  | bytes bs, bytes cs => bs == cs
  | tuple xs, tuple ys => equalItems xs ys
  | list xs, list ys => equalItems xs ys
  | set ss, set ts => ss == ts
  | record es, record fs => es.length == fs.length && equalEntries es fs
  | owner, owner => true
  | selfRendering i s, selfRendering j t => i == j && s == t
  | failing i s, failing j t => i == j && s == t
  | template i s, template j t => i == j && s == t
  | options ts, options us => ts == us
  | _, _ => false

-- Equal item by item.
def equalItems : List Value → List Value → Bool
  | [], [] => true
  | x :: xs, y :: ys => equal x y && equalItems xs ys
  | _, _ => false

-- Every entry on the left has an equal entry on the right.
def equalEntries : List (Value × Value) → List (Value × Value) → Bool
  | [], _ => true
  | (k, v) :: es, fs =>
    (match fs.find? fun f => equal k f.1 with
      | some f => equal v f.2
      | none => false) && equalEntries es fs

end

instance : BEq Value := ⟨equal⟩

-- The value is the text `s`.
def isText (v : Value) (s : String) : Bool :=
  v.text? == some s

-- The value under a key.
def lookup (key : Value) (entries : List (Value × Value)) : Option Value :=
  (entries.find? fun e => key.equal e.1).map (·.2)

-- A new value under a key: an old key keeps its place, a new one goes to the end.
def put (key value : Value) : List (Value × Value) → List (Value × Value)
  | [] => [(key, value)]
  | e :: es => if key.equal e.1 then (e.1, value) :: es else e :: put key value es

-- The entries without the one under a key.
def drop (key : Value) (entries : List (Value × Value)) : List (Value × Value) :=
  entries.filter fun e => !key.equal e.1

-- Entries one after the other; a later one takes the place of an earlier one with an equal key.
def ofEntries (entries : List (Value × Value)) : Value :=
  .record (entries.foldl (fun es e => put e.1 e.2 es) [])

-- The value under the name `key` of a record.
def field? (v : Value) (key : String) : Option Value :=
  match v with
  | record es => lookup (.text key) es
  | _ => none

-- The record with a new value under the name `key`.
def withField (v : Value) (key : String) (value : Value) : Value :=
  match v with
  | record es => .record (put (.text key) value es)
  | v => v

-- A value that counts as yes: not null, zero or empty.
def isTruthy : Value → Bool
  | null => false
  | bool b => b
  | num n => n.magnitude != .rational 0
  | text s => s != ""
  | markup s => s != ""
  | bytes bs => !bs.isEmpty
  | tuple xs => !xs.isEmpty
  | list xs => !xs.isEmpty
  | set ts => !ts.isEmpty
  | record es => !es.isEmpty
  | _ => true

end Value

end MarkupDiff
