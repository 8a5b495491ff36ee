import MarkupDiff.Text.Blank

namespace MarkupDiff.Text

-- Splits a text before the first place from which `after` can read something. `after` gives what
-- follows there.
def splitAt? (after : List Char → Option (List Char)) : List Char → Option (List Char × List Char)
  | [] => (after []).map fun rest => ([], rest)
  | c :: cs =>
    match after (c :: cs) with
    | some rest => some ([], rest)
    | none => (splitAt? after cs).map fun (before, rest) => (c :: before, rest)

-- What follows a character.
def afterChar (x : Char) : List Char → Option (List Char)
  | c :: cs => if c == x then some cs else none
  | [] => none

-- What comes before and after the first occurrence of a character.
def splitAtChar? (x : Char) (cs : List Char) : Option (List Char × List Char) :=
  splitAt? (afterChar x) cs

-- What follows a character with any number of blanks in front of it.
def afterBlanksAndChar (x : Char) (cs : List Char) : Option (List Char) :=
  afterChar x (cs.dropWhile isBlank)

-- What a text has lost from its beginning when `rest` is left of it.
def consumed (cs rest : List Char) : List Char :=
  cs.take (cs.length - rest.length)

theorem length_dropWhile_le (p : Char → Bool) (cs : List Char) :
    (cs.dropWhile p).length ≤ cs.length :=
  (List.dropWhile_suffix p).length_le

theorem length_afterChar {x : Char} {cs rest : List Char} (h : afterChar x cs = some rest) :
    rest.length < cs.length := by
  cases cs with
  | nil => simp [afterChar] at h
  | cons c cs =>
    simp only [afterChar, Option.ite_none_right_eq_some, Option.some.injEq] at h
    obtain ⟨_, rfl⟩ := h
    simp

theorem length_afterBlanksAndChar {x : Char} {cs rest : List Char}
    (h : afterBlanksAndChar x cs = some rest) : rest.length < cs.length :=
  Nat.lt_of_lt_of_le (length_afterChar h) (length_dropWhile_le _ cs)

-- If `after` always leaves less than it was given, so does the search for it.
theorem length_splitAt? {after : List Char → Option (List Char)}
    (hafter : ∀ cs rest, after cs = some rest → rest.length < cs.length)
    {cs before rest : List Char} (h : splitAt? after cs = some (before, rest)) :
    rest.length < cs.length := by
  induction cs generalizing before with
  | nil =>
    simp only [splitAt?, Option.map_eq_some_iff, Prod.mk.injEq] at h
    obtain ⟨r, hr, _, rfl⟩ := h
    exact hafter _ _ hr
  | cons c cs ih =>
    simp only [splitAt?] at h
    split at h
    · rename_i r hr
      simp only [Option.some.injEq, Prod.mk.injEq] at h
      obtain ⟨_, rfl⟩ := h
      exact hafter _ _ hr
    · simp only [Option.map_eq_some_iff, Prod.mk.injEq, Prod.exists] at h
      obtain ⟨b, r, hr, _, rfl⟩ := h
      have := ih hr
      simp only [List.length_cons]
      omega

theorem length_splitAtChar? {x : Char} {cs before rest : List Char}
    (h : splitAtChar? x cs = some (before, rest)) : rest.length < cs.length :=
  length_splitAt? (fun _ _ => length_afterChar) h

end MarkupDiff.Text
