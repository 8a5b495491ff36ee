import MarkupDiff.Difference.Change

namespace MarkupDiff

-- A difference as it is exchanged with others: a kind by its name, a path, what stood and what
-- stands there, and for a difference between lists an index with the difference of the item.
structure Entry where
  kind : Option String
  path : Path
  left : Value := .null
  right : Value := .null
  index : Value := .null
  item : Option Entry := none
  deriving Inhabited

namespace Entry

def added : String := "added"
def deleted : String := "deleted"
def edited : String := "edited"
def array : String := "array"

-- The path with the index of a difference between lists.
def fullPath (e : Entry) : Path :=
  if e.kind == some array then e.path ++ [e.index] else e.path

-- The kind of what happened to an item, for a difference between lists that has one.
def changeKind (e : Entry) : Option String :=
  match e.item with
  | some item => if e.kind == some array then item.kind else e.kind
  | none => e.kind

end Entry

-- The written form of a change.
def Change.toEntry : Change → Entry
  | edited p l r => { kind := Entry.edited, path := p, left := l, right := r }
  | removedKey p k l => { kind := Entry.deleted, path := p ++ [k], left := l }
  | addedKey p k r => { kind := Entry.added, path := p ++ [k], right := r }
  | removedItem p i l =>
    { kind := Entry.array, path := p, index := .nat i,
      item := some { kind := Entry.deleted, path := p, left := l } }
  | addedItem p i r =>
    { kind := Entry.array, path := p, index := .nat i,
      item := some { kind := Entry.added, path := p, right := r } }

-- Writing a change as an entry keeps the path to what has changed.
theorem Change.fullPath_toEntry (c : Change) : c.toEntry.fullPath = c.fullPath := by
  cases c <;> rfl

end MarkupDiff
