import MarkupDiff.Proofs.Markup.Building
import MarkupDiff.Proofs.Node.Settled

namespace MarkupDiff

-- No element of the fragment has an empty tag, at any depth.
def Fragment.Tagged (f : Fragment) : Prop :=
  ∀ tag attrs children, Node.Below (.element tag attrs children) f → tag ≠ ""

namespace Node

theorem mem_ofItems {n : Node} {is : List Markup.Item} :
    n ∈ ofItems is ↔ ∃ i ∈ is, n ∈ ofItem i := by
  induction is with
  | nil => simp [ofItems]
  | cons i is ih => simp [ofItems, ih]

theorem element_mem_ofItems {is : List Markup.Item} {tag : String} {attrs : List Attr}
    {children : List Node} (h : element tag attrs children ∈ ofItems is) :
    ∃ as cs, .element tag as cs ∈ is ∧ attrs = as.map Attr.ofPair ∧ children = ofItems cs := by
  obtain ⟨i, hi, hn⟩ := mem_ofItems.mp h
  cases i with
  | element t as cs =>
    obtain ⟨rfl, rfl, rfl⟩ := Node.element.inj (List.mem_singleton.mp hn)
    exact ⟨as, cs, hi, rfl, rfl⟩
  | text s => exact Node.noConfusion (List.mem_singleton.mp hn)
  | aside kind s =>
    cases kind
    case comment => exact Node.noConfusion (List.mem_singleton.mp hn)
    all_goals exact absurd hn List.not_mem_nil

-- The elements of a fragment are those of the document that it is made of.
theorem within_of_below_ofItems {is : List Markup.Item} {tag : String} {attrs : List Attr}
    {children : List Node} (h : Below (element tag attrs children) (ofItems is)) :
    ∃ as cs, Markup.Item.Within (.element tag as cs) is ∧ attrs = as.map Attr.ofPair := by
  generalize hns : ofItems is = ns at h
  induction h generalizing is with
  | here hm =>
    subst hns
    obtain ⟨as, cs, hmem, hattrs, _⟩ := element_mem_ofItems hm
    exact ⟨as, cs, .here hmem, hattrs⟩
  | inside hn _ ih =>
    subst hns
    obtain ⟨as, cs, hmem, _, hcs⟩ := element_mem_ofItems hn
    obtain ⟨as', cs', hwithin, hattrs⟩ := ih hcs.symm
    exact ⟨as', cs', .inside hmem hwithin, hattrs⟩

end Node

-- The elements of a fragment that is read from markup are as they can be read.
theorem Fragment.isProper_of_ofMarkup {markup : String} {f : Fragment}
    (h : Fragment.ofMarkup markup = .ok f) {tag : String} {attrs : List Attr}
    {children : List Node} (hbelow : Node.Below (.element tag attrs children) f) :
    ∃ as, Markup.Tag.IsProper tag as ∧ attrs = as.map Attr.ofPair := by
  unfold Fragment.ofMarkup at h
  cases his : Markup.items markup with
  | error fault => simp [his, Except.map] at h
  | ok is =>
    simp only [his, Except.map, Except.ok.injEq] at h
    subst h
    obtain ⟨as, cs, hwithin, hattrs⟩ := Node.within_of_below_ofItems hbelow
    exact ⟨as, Markup.Item.isProper_of_within (Markup.allProper_of_items his) hwithin, hattrs⟩

theorem Fragment.tagged_of_ofMarkup {markup : String} {f : Fragment}
    (h : Fragment.ofMarkup markup = .ok f) : f.Tagged := by
  intro tag attrs children hbelow
  obtain ⟨as, hproper, -⟩ := isProper_of_ofMarkup h hbelow
  rintro rfl
  exact hproper.name.ne_nil rfl

end MarkupDiff
