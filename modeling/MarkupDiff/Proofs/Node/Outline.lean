import MarkupDiff.Node.Basic
import Mathlib.Data.List.TakeWhile

namespace MarkupDiff

open Markup (Item)

namespace Markup.Item

mutual

-- The parts of an item in the order in which they begin, each without what stands in it and with
-- its depth.
def outline (depth : Nat) : Item → List (Nat × Item)
  | element tag attrs children => (depth, element tag attrs []) :: outlineAll (depth + 1) children
  | text s => [(depth, text s)]
  | aside kind s => [(depth, aside kind s)]

def outlineAll (depth : Nat) : List Item → List (Nat × Item)
  | [] => []
  | i :: is => outline depth i ++ outlineAll depth is

end

end Markup.Item

namespace Node

mutual

-- A node and the nodes in it in the order in which they begin, each by itself and with its depth.
def outline (depth : Nat) : Node → List (Nat × Node)
  | element tag attrs children => (depth, element tag attrs []) :: outlineAll (depth + 1) children
  | text s => [(depth, text s)]
  | comment s => [(depth, comment s)]

def outlineAll (depth : Nat) : List Node → List (Nat × Node)
  | [] => []
  | n :: ns => outline depth n ++ outlineAll depth ns

end

-- The node that a part of a document is by itself. A document type, a declaration, an instruction
-- and character data are none.
def ofPart? : Item → Option Node
  | .element tag attrs _ => some (element tag (attrs.map Attr.ofPair) [])
  | .text s => some (text s)
  | .aside .comment s => some (comment s)
  | .aside _ _ => none

-- The parts of a document that are nodes, in their order and at their depths.
def parts (outline : List (Nat × Item)) : List (Nat × Node) :=
  outline.filterMap fun p => (ofPart? p.2).map (p.1, ·)

theorem outlineAll_append (depth : Nat) (ns ms : List Node) :
    outlineAll depth (ns ++ ms) = outlineAll depth ns ++ outlineAll depth ms := by
  induction ns with
  | nil => rfl
  | cons n ns ih => rw [List.cons_append, outlineAll, ih, outlineAll, List.append_assoc]

theorem parts_append (ps qs : List (Nat × Item)) : parts (ps ++ qs) = parts ps ++ parts qs :=
  List.filterMap_append

mutual

theorem outlineAll_ofItem (depth : Nat) (i : Item) :
    outlineAll depth (ofItem i) = parts (i.outline depth) := by
  cases i with
  | element tag attrs children =>
    have hchildren := outlineAll_ofItems (depth + 1) children
    rw [ofItem, outlineAll, outlineAll, List.append_nil, outline, hchildren]
    rfl
  | text s => rfl
  | aside kind s => cases kind <;> rfl

-- Every tag, text and comment of a document is one node, in the same order and at the same depth,
-- and there are no other nodes.
theorem outlineAll_ofItems (depth : Nat) (is : List Item) :
    outlineAll depth (ofItems is) = parts (Item.outlineAll depth is) := by
  cases is with
  | nil => rfl
  | cons i is =>
    rw [ofItems, outlineAll_append, outlineAll_ofItem depth i, outlineAll_ofItems depth is,
      Item.outlineAll, parts_append]

end

mutual

theorem depth_le_of_mem_outline {depth : Nat} (n : Node) {p : Nat × Node}
    (h : p ∈ outline depth n) : depth ≤ p.1 := by
  cases n with
  | element tag attrs children =>
    rcases List.mem_cons.mp h with rfl | h
    · exact Nat.le_refl _
    · exact Nat.le_of_succ_le (depth_le_of_mem_outlineAll children h)
  | text s => exact List.mem_singleton.mp h ▸ Nat.le_refl _
  | comment s => exact List.mem_singleton.mp h ▸ Nat.le_refl _

theorem depth_le_of_mem_outlineAll {depth : Nat} (ns : List Node) {p : Nat × Node}
    (h : p ∈ outlineAll depth ns) : depth ≤ p.1 := by
  cases ns with
  | nil => exact absurd h List.not_mem_nil
  | cons n ns =>
    rcases List.mem_append.mp h with h | h
    · exact depth_le_of_mem_outline n h
    · exact depth_le_of_mem_outlineAll ns h

end

-- The outline of a node goes on as long as it is deeper than the node itself.
theorem exists_outline (depth : Nat) (n : Node) : ∃ m inside,
    outline depth n = (depth, m) :: inside ∧ ∀ p ∈ inside, depth < p.1 := by
  cases n with
  | element tag attrs children =>
    exact ⟨_, _, rfl, fun p hp => depth_le_of_mem_outlineAll children hp⟩
  | text s => exact ⟨_, _, rfl, fun p hp => absurd hp List.not_mem_nil⟩
  | comment s => exact ⟨_, _, rfl, fun p hp => absurd hp List.not_mem_nil⟩

theorem takeWhile_outlineAll (depth : Nat) (ns : List Node) :
    (outlineAll depth ns).takeWhile (fun p => depth < p.1) = [] := by
  cases ns with
  | nil => rfl
  | cons n ns =>
    obtain ⟨m, inside, houtline, -⟩ := exists_outline depth n
    simp [outlineAll, houtline]

-- So an outline of several nodes falls apart into that of the first one and that of the others.
theorem outline_append_inj {depth : Nat} {n m : Node} {ns ms : List Node}
    (h : outlineAll depth (n :: ns) = outlineAll depth (m :: ms)) :
    outline depth n = outline depth m ∧ outlineAll depth ns = outlineAll depth ms := by
  obtain ⟨a, inside, hn, hinside⟩ := exists_outline depth n
  obtain ⟨b, inside', hm, hinside'⟩ := exists_outline depth m
  have hcut : ∀ {ps : List (Nat × Node)} (ks : List Node), (∀ p ∈ ps, depth < p.1) →
      (ps ++ outlineAll depth ks).takeWhile (fun p => depth < p.1) = ps := by
    intro ps ks hps
    rw [List.takeWhile_append_of_pos (by simpa using hps), takeWhile_outlineAll, List.append_nil]
  rw [outlineAll, outlineAll, hn, hm, List.cons_append, List.cons_append] at h
  obtain ⟨hhead, htail⟩ := List.cons.inj h
  have hfirst := congrArg (List.takeWhile fun p => depth < p.1) htail
  rw [hcut ns hinside, hcut ms hinside'] at hfirst
  subst hfirst
  exact ⟨by rw [hn, hm, hhead], List.append_cancel_left htail⟩

mutual

theorem outline_injective {depth : Nat} (n m : Node) (h : outline depth n = outline depth m) :
    n = m := by
  match n, m with
  | element t as cs, element u bs ds =>
    obtain ⟨hhead, hinside⟩ := List.cons.inj h
    obtain ⟨rfl, rfl, -⟩ := Node.element.inj (Prod.mk.inj hhead).2
    rw [outlineAll_injective cs ds hinside]
  | text s, text t => exact (Prod.mk.inj (List.cons.inj h).1).2
  | comment s, comment t => exact (Prod.mk.inj (List.cons.inj h).1).2
  | element _ _ _, text _ => exact Node.noConfusion (Prod.mk.inj (List.cons.inj h).1).2
  | element _ _ _, comment _ => exact Node.noConfusion (Prod.mk.inj (List.cons.inj h).1).2
  | text _, element _ _ _ => exact Node.noConfusion (Prod.mk.inj (List.cons.inj h).1).2
  | text _, comment _ => exact Node.noConfusion (Prod.mk.inj (List.cons.inj h).1).2
  | comment _, element _ _ _ => exact Node.noConfusion (Prod.mk.inj (List.cons.inj h).1).2
  | comment _, text _ => exact Node.noConfusion (Prod.mk.inj (List.cons.inj h).1).2

-- Nodes are determined by their outline.
theorem outlineAll_injective {depth : Nat} (ns ms : List Node)
    (h : outlineAll depth ns = outlineAll depth ms) : ns = ms := by
  match ns, ms with
  | [], [] => rfl
  | [], m :: ms =>
    obtain ⟨b, inside, hm, -⟩ := exists_outline depth m
    simp [outlineAll, hm] at h
  | n :: ns, [] =>
    obtain ⟨a, inside, hn, -⟩ := exists_outline depth n
    simp [outlineAll, hn] at h
  | n :: ns, m :: ms =>
    obtain ⟨hfirst, hrest⟩ := outline_append_inj h
    rw [outline_injective n m hfirst, outlineAll_injective ns ms hrest]

end

end Node

end MarkupDiff
