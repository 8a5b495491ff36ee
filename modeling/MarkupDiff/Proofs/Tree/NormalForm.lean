import MarkupDiff.Proofs.Tree.Attributes
import MarkupDiff.Proofs.Tree.Siblings

namespace MarkupDiff

namespace Node

variable {o : Options}

mutual

def height : Node → Nat
  | element _ _ children => heights children + 1
  | _ => 0

def heights : List Node → Nat
  | [] => 0
  | n :: ns => max (height n) (heights ns)

end

theorem height_le_heights {n : Node} {ns : List Node} (h : n ∈ ns) : n.height ≤ heights ns := by
  induction ns with
  | nil => exact absurd h List.not_mem_nil
  | cons m ns ih =>
    rw [heights]
    rcases List.mem_cons.mp h with rfl | hmem
    · exact Nat.le_max_left _ _
    · exact Nat.le_trans (ih hmem) (Nat.le_max_right _ _)

theorem height_le_of_mem_settled {n : Node} {ns : List Node} (h : n ∈ settled o ns) :
    n.height ≤ heights ns := by
  rcases (mem_settled h).2 with ht | ⟨hmem, _⟩
  · obtain ⟨s, rfl⟩ := isText_iff.mp ht
    exact Nat.zero_le _
  · exact height_le_heights hmem

-- A node as a record with this link at its end, and with the records below it linked to their
-- owners.
def recordWith (link : List (Value × Value)) : Node → Value
  | element tag attrs children =>
    .record ([(.text "type", .text "element"), (.text "tag", .text tag),
      (.text "attrs", .list (attrs.map Attr.toValue)),
      (.text "children", .list (toValues children))] ++ link)
  | text content =>
    .record ([(.text "type", .text "text"), (.text "content", .text content)] ++ link)
  | comment content =>
    .record ([(.text "type", .text "comment"), (.text "content", .text content)] ++ link)

theorem recordWith_owner (n : Node) : n.recordWith [(.text "parent", .owner)] = n.toValue := by
  cases n <;> rfl

end Node

namespace Tree

-- A whole tree: a fragment, or a node by itself.
inductive Root
  | fragment (f : Fragment)
  | node (n : Node)

namespace Root

def recordWith (link : List (Value × Value)) : Root → Value
  | fragment f =>
    .record ([(.text "type", .text "fragment"), (.text "children", .list (Node.toValues f))] ++
      link)
  | node n => n.recordWith link

-- The value is a record of the tree with this link at its end.
def Recorded (link : List (Value × Value)) (v : Value) : Root → Prop
  | fragment f =>
    ∃ vs, AllRecord vs f ∧
      v = .record ([(.text "type", .text "fragment"), (.text "children", .list vs)] ++ link)
  | node n => Records link v n

def normal (o : Options) : Root → Root
  | fragment f => fragment (f.normal o)
  | node n => node (n.normal o)

-- Siblings at every depth and the attributes of every element are in order.
def IsNormal (tags : List String) : Root → Prop
  | fragment f => f.IsNormal tags
  | node n => ∀ tag attrs children, Node.Below (.element tag attrs children) [n] →
      Attr.InOrder attrs ∧ Node.InOrder tags children

variable {o : Options} {t : Root}

theorem isNormal_normal (o : Options) (t : Root) : (t.normal o).IsNormal o.prunedTags := by
  cases t with
  | fragment f => exact Fragment.isNormal_normal o f
  | node n => exact fun _ _ _ hbelow => Node.below_normal_inOrder hbelow

theorem normal_eq_self_iff : t.normal o = t ↔ t.IsNormal o.prunedTags := by
  constructor
  · intro h
    exact h ▸ isNormal_normal o t
  · intro h
    cases t with
    | fragment f => exact congrArg fragment (Fragment.normal_eq_self_iff.mpr h)
    | node n => exact congrArg node (Node.normal_of_inOrder n h)

theorem IsNormal.mono {tags tags' : List String} (h : t.IsNormal tags) (hsub : tags' ⊆ tags) :
    t.IsNormal tags' := by
  cases t with
  | fragment f => exact Fragment.IsNormal.mono h hsub
  | node n =>
    intro tag attrs children hbelow
    obtain ⟨hattrs, hchildren⟩ := h tag attrs children hbelow
    exact ⟨hattrs, hchildren.mono hsub⟩

end Root

section Depth

mutual

theorem height_le_depth {link : List (Value × Value)} {v : Value} (n : Node)
    (h : Records link v n) : n.height ≤ depth v := by
  cases n with
  | element tag attrs children =>
    obtain ⟨vs, hvs, rfl⟩ := h
    have hchildren := heights_le_depths children hvs
    simp only [Node.height, List.cons_append, depth, entryDepths]
    omega
  | text s => exact Nat.zero_le _
  | comment s => exact Nat.zero_le _

theorem heights_le_depths {vs : List Value} (ns : List Node) (h : AllRecord vs ns) :
    Node.heights ns ≤ depths vs := by
  cases ns with
  | nil => exact Nat.zero_le _
  | cons n ns =>
    obtain ⟨v, rest, link, rfl, _, hv, hrest⟩ := h
    have hhead := height_le_depth n hv
    have htail := heights_le_depths ns hrest
    rw [Node.heights, depths]
    omega

end

end Depth

section Normalize

variable {o : Options} {change : Value → Attempt}

theorem eachChild_eq {vs : List Value} {ns : List Node} (h : List.Forall₂ Shows vs ns)
    (hchange : ∀ n ∈ ns, ∀ c, Records [(.text "parent", .owner)] c n →
      change c = ⟨(n.normal o).toValue, none⟩) :
    eachChild (fun c => change (c.withField "parent" .owner)) vs =
      (Node.toValues (Node.normals o ns), none) := by
  induction h with
  | nil => rfl
  | cons hv _ ih =>
    obtain ⟨hhead, htail⟩ := List.forall_mem_cons.mp hchange
    rw [eachChild, hhead _ hv.linked, ih htail]
    rfl

-- The children of a record are settled and then changed one by one.
theorem normalizeChildren_eq {v : Value} (vs : List Value) {ns : List Node}
    (hfield : v.field? "children" = some (.list vs)) (hvs : AllRecord vs ns)
    (hchange : ∀ n ∈ Node.settled o ns, ∀ c, Records [(.text "parent", .owner)] c n →
      change c = ⟨(n.normal o).toValue, none⟩) :
    normalizeChildren o change v =
      ⟨v.withField "children" (.list (Node.toValues (Node.settled o (Node.normals o ns)))),
        none⟩ := by
  obtain ⟨ws, hsettle, hws⟩ := settle_eq (o := o) (allRecord_iff.mp hvs)
  have hitems : (Value.list vs).items = .ok vs := rfl
  rw [normalizeChildren, hfield]
  simp only [hitems, hsettle, eachChild_eq hws hchange, Node.settled_normals]

theorem normalizeAttrs_eq {v : Value} (attrs : List Attr)
    (h : v.named "attrs" = .ok (.list (attrs.map Attr.toValue))) :
    normalizeAttrs v =
      ⟨v.withField "attrs" (.list ((Attr.sorted attrs).map Attr.toValue)), none⟩ := by
  have hitems : (Value.list (attrs.map Attr.toValue)).items = .ok (attrs.map Attr.toValue) := rfl
  rw [normalizeAttrs, h]
  simp only [bind, Except.bind, pure, Except.pure, hitems, sortAttributes_map]

-- A node as high as the fuel is brought into normal form without a fault.
theorem normalizeWithin_eq (fuel : Nat) {link : List (Value × Value)} {v : Value} {n : Node}
    (hlink : IsLink link) (hv : Records link v n) (hheight : n.height ≤ fuel) :
    normalizeWithin o fuel v = ⟨(n.normal o).recordWith link, none⟩ := by
  induction fuel generalizing link v n with
  | zero =>
    cases n with
    | element tag attrs children => simp [Node.height] at hheight
    | text s =>
      obtain rfl := hv
      rfl
    | comment s =>
      obtain rfl := hv
      rfl
  | succ fuel ih =>
    have htype := named_type_of_records hv
    cases n with
    | element tag attrs children =>
      obtain ⟨vs, hvs, rfl⟩ := hv
      have hinside : ∀ m ∈ Node.settled o children, ∀ c,
          Records [(.text "parent", .owner)] c m →
          normalizeWithin o fuel c = ⟨(m.normal o).toValue, none⟩ := by
        intro m hm c hc
        have hlow := Node.height_le_of_mem_settled hm
        rw [Node.height] at hheight
        rw [ih (.inr ⟨.owner, rfl⟩) hc (by omega), Node.recordWith_owner]
      rw [normalizeWithin, htype]
      simp only [Node.typeName, Value.isText, Value.text?, beq_self_eq_true, if_true]
      rw [normalizeAttrs_eq attrs rfl]
      simp only
      rw [normalizeChildren_eq vs rfl hvs hinside]
      rfl
    | text s =>
      obtain rfl := hv
      obtain rfl | ⟨p, rfl⟩ := hlink <;> rfl
    | comment s =>
      obtain rfl := hv
      obtain rfl | ⟨p, rfl⟩ := hlink <;> rfl

mutual

theorem records_recordWith (link : List (Value × Value)) (n : Node) :
    Records link (n.recordWith link) n := by
  cases n with
  | element tag attrs children => exact ⟨_, allRecord_toValues children, rfl⟩
  | text s => rfl
  | comment s => rfl

theorem allRecord_toValues (ns : List Node) : AllRecord (Node.toValues ns) ns := by
  cases ns with
  | nil => rfl
  | cons n ns =>
    refine ⟨_, _, [(.text "parent", .owner)], rfl, .inr ⟨_, rfl⟩, ?_, allRecord_toValues ns⟩
    exact n.recordWith_owner ▸ records_recordWith _ n

end

theorem Root.recorded_recordWith (link : List (Value × Value)) (t : Root) :
    t.Recorded link (t.recordWith link) := by
  cases t with
  | fragment f => exact ⟨_, allRecord_toValues f, rfl⟩
  | node n => exact records_recordWith link n

-- Normalizing the record of a tree meets no fault and gives the record of its normal form.
theorem normalize_eq {link : List (Value × Value)} {v : Value} {t : Root} (hlink : IsLink link)
    (hv : t.Recorded link v) : normalize o v = ⟨(t.normal o).recordWith link, none⟩ := by
  cases t with
  | node n => exact normalizeWithin_eq (depth v) hlink hv (height_le_depth n hv)
  | fragment f =>
    obtain ⟨vs, hvs, rfl⟩ := hv
    have hheights := heights_le_depths f hvs
    have hinside : ∀ fuel, depths vs ≤ fuel → ∀ m ∈ Node.settled o f, ∀ c,
        Records [(.text "parent", .owner)] c m →
        normalizeWithin o fuel c = ⟨(m.normal o).toValue, none⟩ := by
      intro fuel hfuel m hm c hc
      have hlow := Node.height_le_of_mem_settled hm
      rw [normalizeWithin_eq fuel (.inr ⟨.owner, rfl⟩) hc (by omega), Node.recordWith_owner]
    obtain ⟨fuel, hfuel, hdepths⟩ : ∃ fuel, depth (.record ([(.text "type", .text "fragment"),
        (.text "children", .list vs)] ++ link)) = fuel + 1 ∧ depths vs ≤ fuel := by
      refine ⟨_, by rw [depth], ?_⟩
      simp only [List.cons_append, depth, entryDepths]
      omega
    rw [normalize, hfuel, normalizeWithin]
    exact normalizeChildren_eq vs rfl hvs (hinside fuel hdepths)

theorem normalizeIgnoring_eq {tags : Value} {o : Options}
    (htags : Options.ofTags tags = .ok o) {link : List (Value × Value)} {v : Value} {t : Root}
    (hlink : IsLink link) (hv : t.Recorded link v) :
    normalizeIgnoring tags v = ⟨(t.normal o).recordWith link, none⟩ := by
  rw [normalizeIgnoring, htags]
  exact normalize_eq hlink hv

end Normalize

end Tree

end MarkupDiff
