import MarkupDiff.Node.Normal
import MarkupDiff.Place.Description
import MarkupDiff.Rendering.Value

namespace MarkupDiff

-- The fragment that a value stands for, in normal form.
def Fragment.ofValue (o : Options) (v : Value) : Except Fault Fragment := do
  return (← Fragment.ofMarkup (← Rendering.markupOf v)).normal o

-- The fragment that a value stands for, in normal form for options as they are given. Options are
-- looked at first.
def Fragment.ofConfigured (v config : Value) : Except Fault Fragment := do
  Fragment.ofValue (← Options.resolve config) v

-- The changes between two fragments that are in normal form.
def Fragment.changes (left right : Fragment) : List Change :=
  structuralDiff left.toValue right.toValue ignoringParent

-- The report of the first difference between two fragments, none if they mean the same.
def Fragment.firstDifference (o : Options) (left right : Fragment) :
    Except Fault (Option Report) :=
  let l := left.normal o
  let r := right.normal o
  match l.changes r with
  | [] => .ok none
  | c :: _ => (Report.ofChange l.toValue r.toValue c).map some

-- The report of the first difference between two values as markup, none if they mean the same.
-- Faults are met in the order of options, left value, right value.
def markupDiff (left right : Value) (config : Value := .null) : Except Fault (Option Report) := do
  let o ← Options.resolve config
  let l ← Fragment.ofValue o left
  let r ← Fragment.ofValue o right
  Fragment.firstDifference o l r

-- Why two values do not pass as the same.
inductive Mismatch
  | fault (f : Fault)
  | different (r : Report)

-- Passes if two values mean the same as markup.
def expectSame (left right : Value) (config : Value := .null) : Except Mismatch Unit :=
  match markupDiff left right config with
  | .error f => .error (.fault f)
  | .ok none => .ok ()
  | .ok (some r) => .error (.different r)

end MarkupDiff
