import MarkupDiff.Text.Blank
import MarkupDiff.Text.Case

namespace MarkupDiff.Text.Case

namespace Row

def image (r : Row) (n : Nat) : Nat :=
  Int.toNat (n + r.shift)

def codes (r : Row) : List Nat :=
  (List.range ((r.last - r.first) / r.step + 1)).map fun i => r.first + i * r.step

-- The row gives characters, in the order of the code points that it covers.
def isSound (r : Row) : Bool :=
  0 < r.step && 0 ≤ r.first + r.shift &&
    (r.image r.last < 0xD800 || (0xDFFF < r.image r.first && r.image r.last < 0x110000))

-- No lower-case form in this row is covered by the other one.
def avoids (low high : Nat) (r q : Row) : Bool :=
  Nat.blt high q.first || Nat.blt q.last low || r.codes.all fun n => !q.covers (r.image n)

variable {r q : Row} {n : Nat}

theorem bounds_of_covers (h : r.covers n = true) :
    r.first ≤ n ∧ n ≤ r.last ∧ (n - r.first) % r.step = 0 := by
  simpa [covers, and_assoc] using h

theorem mem_codes (h : r.covers n = true) : n ∈ r.codes := by
  obtain ⟨hfirst, hlast, hstep⟩ := bounds_of_covers h
  refine List.mem_map.mpr ⟨(n - r.first) / r.step, ?_, ?_⟩
  · have := Nat.div_le_div_right (c := r.step) (show n - r.first ≤ r.last - r.first by omega)
    exact List.mem_range.mpr (by omega)
  · have := Nat.div_mul_cancel (Nat.dvd_of_mod_eq_zero hstep)
    omega

theorem image_le_image {m : Nat} (h : m ≤ n) : r.image m ≤ r.image n := by
  unfold image
  omega

theorem not_covers_image (havoids : avoids (r.image r.first) (r.image r.last) r q = true)
    (h : r.covers n = true) : q.covers (r.image n) = false := by
  obtain ⟨hfirst, hlast, _⟩ := bounds_of_covers h
  have hlow := image_le_image (r := r) hfirst
  have hhigh := image_le_image (r := r) hlast
  simp only [avoids, Bool.or_eq_true, Nat.blt_eq, List.all_eq_true, Bool.not_eq_true'] at havoids
  rcases havoids with (hbefore | hafter) | hnone
  · simp only [covers, Bool.and_eq_false_iff, decide_eq_false_iff_not]
    exact .inl (.inl (by omega))
  · simp only [covers, Bool.and_eq_false_iff, decide_eq_false_iff_not]
    exact .inl (.inr (by omega))
  · exact hnone n (mem_codes h)

end Row

-- A blank, a character that has a meaning in tags, or one that is not lowered by the table.
def isReserved (c : Char) : Bool :=
  isBlank c || c == '/' || c == '=' || c == '>' || c == '\x00' || c == 'İ'

def reservedRows : List Row :=
  [⟨0, 0, 1, 0⟩, ⟨9, 13, 1, 0⟩, ⟨28, 32, 1, 0⟩, ⟨47, 47, 1, 0⟩, ⟨61, 62, 1, 0⟩,
   ⟨0x85, 0x85, 1, 0⟩, ⟨0xA0, 0xA0, 1, 0⟩, ⟨304, 304, 1, 0⟩, ⟨0x1680, 0x1680, 1, 0⟩,
   ⟨0x2000, 0x200A, 1, 0⟩, ⟨0x2028, 0x2029, 1, 0⟩, ⟨0x202F, 0x202F, 1, 0⟩,
   ⟨0x205F, 0x205F, 1, 0⟩, ⟨0x3000, 0x3000, 1, 0⟩]

-- No lower-case form has another one, and none is reserved.
theorem rows_avoid : (rows.all fun r => r.isSound && (reservedRows ++ rows).all fun q =>
    Row.avoids (r.image r.first) (r.image r.last) r q) = true := by
  decide +kernel

theorem ascii_toLower : ((List.range 128).all fun n =>
    let d := (Char.ofNat n).toLower
    d.toNat < 128 && d.toLower == d && (d == Char.ofNat n || (65 ≤ n && n ≤ 90 && !isReserved d)))
      = true := by
  decide +kernel

theorem not_isReserved_of_not_covers {c : Char}
    (h : ∀ q ∈ reservedRows, q.covers c.toNat = false) : isReserved c = false := by
  simp only [reservedRows, List.forall_mem_cons, List.not_mem_nil, false_implies, implies_true,
    and_true, Row.covers, Nat.mod_one, beq_self_eq_true, Bool.and_true] at h
  simp only [Bool.and_eq_false_iff, decide_eq_false_iff_not] at h
  have hne : ∀ d : Char, d.toNat ≠ c.toNat → c ≠ d := fun d hd hcd => hd (hcd ▸ rfl)
  have hslash := hne '/' (by simp; omega)
  have hequals := hne '=' (by simp; omega)
  have hbracket := hne '>' (by simp; omega)
  have hnull := hne '\x00' (by simp; omega)
  have hdotted := hne 'İ' (by simp; omega)
  have hblank : isBlank c = false := by
    simp only [isBlank, Bool.or_eq_false_iff, Bool.and_eq_false_iff, decide_eq_false_iff_not,
      beq_eq_false_iff_ne]
    omega
  simp [isReserved, hblank, hslash, hequals, hbracket, hnull, hdotted]

-- What a row makes of a character is in no row, and is not reserved.
theorem not_covers_lowerChar {c : Char} {r : Row} (hascii : ¬c.toNat < 128)
    (hrow : rows.find? (·.covers c.toNat) = some r) :
    ∀ q ∈ reservedRows ++ rows, q.covers (lowerChar c).toNat = false := by
  have hcovers : r.covers c.toNat = true := by simpa using List.find?_some hrow
  have hr := List.all_eq_true.mp rows_avoid r (List.mem_of_find?_eq_some hrow)
  obtain ⟨hsound, havoids⟩ := (Bool.and_eq_true _ _).mp hr
  have havoids := List.all_eq_true.mp havoids
  have hc : lowerChar c = Char.ofNat (r.image c.toNat) := by
    simp [lowerChar, hascii, hrow, Row.image]
  obtain ⟨hfirst, hlast, _⟩ := Row.bounds_of_covers hcovers
  have hlow := Row.image_le_image (r := r) hfirst
  have hhigh := Row.image_le_image (r := r) hlast
  have hvalid : (r.image c.toNat).isValidChar := by
    simp only [Row.isSound, Bool.and_eq_true, Bool.or_eq_true, decide_eq_true_eq] at hsound
    unfold Nat.isValidChar
    omega
  have htoNat : (lowerChar c).toNat = r.image c.toNat := by
    rw [hc, Char.ofNat, dif_pos hvalid]
    rfl
  intro q hq
  rw [htoNat]
  exact Row.not_covers_image (havoids q hq) hcovers

theorem lowerChar_eq_self {c : Char} (h : ∀ q ∈ rows, q.covers c.toNat = false) :
    lowerChar c = c := by
  by_cases hascii : c.toNat < 128
  · have hupper := h ⟨65, 90, 1, 32⟩ (.head _)
    have hlower := List.all_eq_true.mp ascii_toLower _ (List.mem_range.mpr hascii)
    simp only [Char.ofNat_toNat, Bool.and_eq_true, Bool.or_eq_true, beq_iff_eq,
      decide_eq_true_eq] at hlower
    rw [lowerChar, if_pos hascii]
    refine hlower.2.resolve_right ?_
    simp [Row.covers, Nat.mod_one] at hupper
    omega
  · have hfind : rows.find? (·.covers c.toNat) = none := by
      rw [List.find?_eq_none]
      intro q hq
      simp [h q hq]
    rw [lowerChar, if_neg hascii, hfind]

-- What lower case makes of a character has no other lower-case form, and is reserved only if it
-- is the character itself.
theorem lowerChar_cases (c : Char) : lowerChar (lowerChar c) = lowerChar c ∧
    (lowerChar c = c ∨ isReserved (lowerChar c) = false) := by
  by_cases hascii : c.toNat < 128
  · have h := List.all_eq_true.mp ascii_toLower c.toNat (List.mem_range.mpr hascii)
    simp only [Char.ofNat_toNat, Bool.and_eq_true, decide_eq_true_eq, beq_iff_eq,
      Bool.or_eq_true, Bool.not_eq_true'] at h
    obtain ⟨⟨hlt, hlower⟩, hreserved⟩ := h
    have hc : lowerChar c = c.toLower := by simp [lowerChar, hascii]
    refine ⟨?_, hc ▸ hreserved.imp_right (·.2)⟩
    rw [hc, lowerChar, if_pos hlt, hlower]
  · cases hrow : rows.find? (·.covers c.toNat) with
    | none =>
      have hc : lowerChar c = c := by simp [lowerChar, hascii, hrow]
      exact ⟨by rw [hc, hc], .inl hc⟩
    | some r =>
      have hnone := not_covers_lowerChar hascii hrow
      exact ⟨lowerChar_eq_self fun q hq => hnone q (List.mem_append_right _ hq),
        .inr (not_isReserved_of_not_covers fun q hq => hnone q (List.mem_append_left _ hq))⟩

-- The lower case of a text consists of characters that have no other lower-case form. Each is
-- reserved only if it was in the text.
theorem lowerFrom_cases {before cs : List Char} {d : Char} (h : d ∈ lowerFrom before cs) :
    (lowerChar d = d ∧ d ≠ 'Σ' ∧ d ≠ 'İ') ∧ (d ∈ cs ∨ isReserved d = false) := by
  induction cs generalizing before with
  | nil => exact absurd h List.not_mem_nil
  | cons c cs ih =>
    rcases List.mem_append.mp h with hhere | hrest
    · split at hhere
      · have hd : d = 'ς' ∨ d = 'σ' := by
          split at hhere
          · exact .inl (List.mem_singleton.mp hhere)
          · exact .inr (List.mem_singleton.mp hhere)
        rcases hd with rfl | rfl
        · exact ⟨by decide +kernel, .inr (by decide +kernel)⟩
        · exact ⟨by decide +kernel, .inr (by decide +kernel)⟩
      · split at hhere
        · have hd : d = 'i' ∨ d = '\u0307' := by simpa using hhere
          rcases hd with rfl | rfl
          · exact ⟨by decide +kernel, .inr (by decide +kernel)⟩
          · exact ⟨by decide +kernel, .inr (by decide +kernel)⟩
        · rename_i hsigma hdotted
          obtain rfl := List.mem_singleton.mp hhere
          obtain ⟨hstable, hcases⟩ := lowerChar_cases c
          refine ⟨⟨hstable, ?_, ?_⟩, ?_⟩
          · intro hd
            rw [hd] at hstable
            exact absurd hstable (by decide +kernel)
          · intro hd
            rcases hcases with hc | hc
            · exact hdotted (by rw [← hc, hd]; rfl)
            · rw [hd] at hc
              exact absurd hc (by decide +kernel)
          · rcases hcases with hc | hc
            · exact .inl (hc.symm ▸ List.mem_cons_self)
            · exact .inr hc
    · obtain ⟨hstable, hreserved⟩ := ih hrest
      exact ⟨hstable, hreserved.imp_left (List.mem_cons_of_mem _)⟩

theorem lowerFrom_eq_self {before cs : List Char}
    (h : ∀ c ∈ cs, lowerChar c = c ∧ c ≠ 'Σ' ∧ c ≠ 'İ') : lowerFrom before cs = cs := by
  induction cs generalizing before with
  | nil => rfl
  | cons c cs ih =>
    obtain ⟨hstable, hsigma, hdotted⟩ := h c List.mem_cons_self
    rw [lowerFrom, ih fun d hd => h d (List.mem_cons_of_mem _ hd)]
    simp [hstable, hsigma, hdotted]

theorem lower_lower (cs : List Char) : lower (lower cs) = lower cs :=
  lowerFrom_eq_self fun _ hc => (lowerFrom_cases hc).1

-- Lower case brings in nothing that is reserved, neither at the beginning nor after it.
theorem lower_cons (c : Char) (cs : List Char) : ∃ d ds, lower (c :: cs) = d :: ds ∧
    (d = c.toLower ∨ 128 ≤ c.toNat) ∧ (d = c ∨ isReserved d = false) ∧
    ∀ e ∈ ds, e ∈ cs ∨ isReserved e = false := by
  have htail : ∀ {before : List Char}, ∀ e ∈ lowerFrom before cs, e ∈ cs ∨ isReserved e = false :=
    fun _ he => (lowerFrom_cases he).2
  rw [lower, lowerFrom]
  split
  · rename_i hsigma
    obtain rfl := beq_iff_eq.mp hsigma
    split
    · exact ⟨'ς', _, rfl, .inr (by decide), .inr (by decide +kernel), htail⟩
    · exact ⟨'σ', _, rfl, .inr (by decide), .inr (by decide +kernel), htail⟩
  · split
    · rename_i hdotted
      obtain rfl := beq_iff_eq.mp hdotted
      refine ⟨'i', _, rfl, .inr (by decide), .inr (by decide +kernel), ?_⟩
      intro e he
      rcases List.mem_cons.mp he with rfl | he
      · exact .inr (by decide +kernel)
      · exact htail e he
    · refine ⟨lowerChar c, _, rfl, ?_, (lowerChar_cases c).2, htail⟩
      by_cases hascii : c.toNat < 128
      · exact .inl (by simp [lowerChar, hascii])
      · exact .inr (by omega)

end MarkupDiff.Text.Case
