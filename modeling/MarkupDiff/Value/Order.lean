import MarkupDiff.Value.Access

namespace MarkupDiff.Value

mutual

-- The first value comes before the second one: in the order of code points, of size, of the first
-- items that differ, or as a part of a larger set. Values of other kinds have no order.
def precedes : Value → Value → Except Fault Bool
  | list xs, list ys => precedesItems xs ys
  | tuple xs, tuple ys => precedesItems xs ys
  | set ss, set ts => .ok (ss.all ts.contains && ss.length < ts.length)
  | v, w =>
    match v.text?, w.text? with
    | some s, some t => .ok (s < t)
    | _, _ =>
      match v.number?, w.number? with
      | some m, some n => .ok (m.precedes n)
      | _, _ => .error (.notOrdered v.kind w.kind)

def precedesItems : List Value → List Value → Except Fault Bool
  | [], ys => .ok !ys.isEmpty
  | _ :: _, [] => .ok false
  | x :: xs, y :: ys => if equal x y then precedesItems xs ys else precedes x y

end

-- Puts a value with its companion in front of the first one that it comes before.
def insertByKey {α : Type} (p : Value × α) : List (Value × α) → Except Fault (List (Value × α))
  | [] => .ok [p]
  | q :: qs => do
    if ← precedes p.1 q.1 then return p :: q :: qs
    else return q :: (← insertByKey p qs)

-- The companions of values in the order of the values. Equal values keep their order.
def sortByKey {α : Type} (ps : List (Value × α)) : Except Fault (List α) :=
  (ps.foldlM (fun sorted p => insertByKey p sorted) []).map fun sorted => sorted.map (·.2)

end MarkupDiff.Value
