import MarkupDiff.Proofs.Text.LowerCase
import MarkupDiff.Proofs.Text.Strip

namespace MarkupDiff.Text

theorem exists_blanks_around (cs : List Char) :
    ∃ us vs, (∀ c ∈ us, isBlank c = true) ∧ (∀ c ∈ vs, isBlank c = true) ∧
      cs = us ++ strip cs ++ vs := by
  have hback : ∀ ds : List Char,
      (ds.reverse.dropWhile isBlank).reverse ++ (ds.reverse.takeWhile isBlank).reverse = ds := by
    intro ds
    rw [← List.reverse_append, List.takeWhile_append_dropWhile, List.reverse_reverse]
  refine ⟨cs.takeWhile isBlank, ((cs.dropWhile isBlank).reverse.takeWhile isBlank).reverse,
    fun c hc => List.mem_takeWhile_imp hc,
    fun c hc => List.mem_takeWhile_imp (List.mem_reverse.mp hc), ?_⟩
  rw [List.append_assoc, strip, hback, List.takeWhile_append_dropWhile]

namespace Case

def blankCodes : List Nat :=
  [9, 10, 11, 12, 13, 28, 29, 30, 31, 32, 0x85, 0xA0, 0x1680, 0x2000, 0x2001, 0x2002, 0x2003,
    0x2004, 0x2005, 0x2006, 0x2007, 0x2008, 0x2009, 0x200A, 0x2028, 0x2029, 0x202F, 0x205F, 0x3000]

theorem mem_blankCodes {c : Char} (h : isBlank c = true) : c.toNat ∈ blankCodes := by
  simp only [isBlank, Bool.or_eq_true, Bool.and_eq_true, decide_eq_true_eq, beq_iff_eq] at h
  simp only [blankCodes, List.mem_cons, List.not_mem_nil, or_false]
  omega

theorem blankCodes_uncased : (blankCodes.all fun n =>
    let c := Char.ofNat n
    lowerChar c == c && c != 'Σ' && c != 'İ' && !isTransparent c && !isCased c) = true := by
  decide +kernel

-- A blank stays as it is in lower case, and it ends a word.
structure Uncased (c : Char) : Prop where
  lower : lowerChar c = c
  not_sigma : c ≠ 'Σ'
  not_dotted : c ≠ 'İ'
  not_transparent : isTransparent c = false
  not_cased : isCased c = false

theorem uncased_of_isBlank {c : Char} (h : isBlank c = true) : Uncased c := by
  have hc := List.all_eq_true.mp blankCodes_uncased _ (mem_blankCodes h)
  simp only [Char.ofNat_toNat, Bool.and_eq_true, beq_iff_eq, bne_iff_ne,
    Bool.not_eq_true'] at hc
  obtain ⟨⟨⟨⟨hlower, hsigma⟩, hdotted⟩, htransparent⟩, hcased⟩ := hc
  exact ⟨hlower, hsigma, hdotted, htransparent, hcased⟩

theorem meetsCased_eq (cs : List Char) :
    meetsCased cs = (cs.dropWhile isTransparent).head?.any isCased := by
  unfold meetsCased
  cases cs.dropWhile isTransparent <;> rfl

-- What stands beyond blanks does not count for the case of what stands before them.
theorem meetsCased_append_blanks {us : List Char} (hus : ∀ c ∈ us, isBlank c = true)
    (cs : List Char) : meetsCased (cs ++ us) = meetsCased cs := by
  rw [meetsCased_eq, meetsCased_eq, List.dropWhile_append]
  split
  · rename_i hempty
    rw [List.isEmpty_iff.mp hempty]
    cases us with
    | nil => rfl
    | cons u us =>
      have hu := uncased_of_isBlank (hus u List.mem_cons_self)
      rw [List.dropWhile_cons_of_neg (by simp [hu.not_transparent])]
      simp [hu.not_cased]
  · rename_i hne
    rw [List.head?_append_of_ne_nil _ (by simpa using hne)]

theorem lowerFrom_blanks_append {us : List Char} (hus : ∀ c ∈ us, isBlank c = true)
    (before cs : List Char) :
    lowerFrom before (us ++ cs) = us ++ lowerFrom (us.reverse ++ before) cs := by
  induction us generalizing before with
  | nil => rfl
  | cons u us ih =>
    obtain ⟨hu, hrest⟩ := List.forall_mem_cons.mp hus
    have hblank := uncased_of_isBlank hu
    rw [List.cons_append, lowerFrom, ih hrest]
    simp [hblank.lower, hblank.not_sigma, hblank.not_dotted]

theorem lowerFrom_append_blanks {us vs : List Char} (hus : ∀ c ∈ us, isBlank c = true)
    (hvs : ∀ c ∈ vs, isBlank c = true) (before cs : List Char) :
    lowerFrom (before ++ us) (cs ++ vs) = lowerFrom before cs ++ vs := by
  induction cs generalizing before with
  | nil =>
    rw [List.nil_append, ← List.append_nil vs, lowerFrom_blanks_append hvs]
    simp [lowerFrom]
  | cons c cs ih =>
    have hrest := ih (c :: before)
    rw [List.cons_append] at hrest
    rw [List.cons_append, lowerFrom, lowerFrom, hrest, meetsCased_append_blanks hus,
      meetsCased_append_blanks hvs, List.append_assoc]

-- Blanks around a text stay around its lower-case form.
theorem lower_blanks_around {us vs : List Char} (hus : ∀ c ∈ us, isBlank c = true)
    (hvs : ∀ c ∈ vs, isBlank c = true) (cs : List Char) :
    lower (us ++ cs ++ vs) = us ++ lower cs ++ vs := by
  have hback : ∀ c ∈ us.reverse, isBlank c = true := fun c hc => hus c (List.mem_reverse.mp hc)
  rw [lower, List.append_assoc, lowerFrom_blanks_append hus, List.append_nil,
    ← List.nil_append us.reverse, lowerFrom_append_blanks hback hvs, lower, List.append_assoc]

theorem lowerFrom_append (before xs ys : List Char) :
    ∃ front, lowerFrom before (xs ++ ys) = front ++ lowerFrom (xs.reverse ++ before) ys := by
  induction xs generalizing before with
  | nil => exact ⟨[], rfl⟩
  | cons x xs ih =>
    obtain ⟨front, hfront⟩ := ih (x :: before)
    rw [List.cons_append, lowerFrom, hfront, List.reverse_cons, List.append_assoc,
      List.singleton_append, ← List.append_assoc]
    exact ⟨_, rfl⟩

theorem lowerFrom_ne_nil (before : List Char) (c : Char) (cs : List Char) :
    lowerFrom before (c :: cs) ≠ [] := by
  rw [lowerFrom]
  split
  · split <;> simp
  · split <;> simp

theorem not_isBlank_of_not_isReserved {c : Char} (h : isReserved c = false) :
    isBlank c = false := by
  simp only [isReserved, Bool.or_eq_false_iff] at h
  exact h.1.1.1.1.1

-- Lower case brings no blanks to the ends of a text.
theorem endsWithout_lower {cs : List Char} (h : EndsWithout isBlank cs) :
    EndsWithout isBlank (lower cs) := by
  have hmember : ∀ {before c d}, d ∈ lowerFrom before [c] → isBlank c = false →
      isBlank d = false := by
    intro before c d hd hc
    rcases (lowerFrom_cases hd).2 with heq | hreserved
    · rwa [List.mem_singleton.mp heq]
    · exact not_isBlank_of_not_isReserved hreserved
  constructor
  · cases cs with
    | nil => exact h.1
    | cons c cs =>
      obtain ⟨d, ds, hlower, -, hd, -⟩ := lower_cons c cs
      rw [hlower]
      rintro _ ⟨⟩
      rcases hd with rfl | hreserved
      · exact h.1 _ rfl
      · exact not_isBlank_of_not_isReserved hreserved
  · cases cs using List.reverseRecOn with
    | nil => exact h.2
    | append_singleton cs c _ =>
      obtain ⟨front, hfront⟩ := lowerFrom_append [] cs [c]
      intro d hd
      rw [lower, hfront, List.getLast?_append_of_ne_nil _ (lowerFrom_ne_nil _ _ _)] at hd
      exact hmember (List.mem_of_getLast? hd) (h.2 c (by simp))

-- Lower case and taking off the blanks at the ends can be exchanged.
theorem strip_lower (cs : List Char) : strip (lower cs) = lower (strip cs) := by
  obtain ⟨us, vs, hus, hvs, hcs⟩ := exists_blanks_around cs
  conv_lhs => rw [hcs]
  rw [lower_blanks_around hus hvs, strip_append_blanks hus hvs]
  exact strip_eq_self_iff.mpr (endsWithout_lower (endsWithout_strip cs))

theorem lower_eq_nil_iff {cs : List Char} : lower cs = [] ↔ cs = [] := by
  cases cs with
  | nil => exact iff_of_true rfl rfl
  | cons c cs => exact iff_of_false (lowerFrom_ne_nil _ _ _) (by simp)

end Case

end MarkupDiff.Text
