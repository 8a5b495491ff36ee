import MarkupDiff.Markup.Item

namespace MarkupDiff.Markup

namespace Scan

@[simp] theorem run_nil (last : Bool) (mode : Mode) : run last mode [] = .ok ⟨[], mode, []⟩ := by
  rw [run]

theorem run_cons (last : Bool) (mode : Mode) (c : Char) (cs : List Char) :
    run last mode (c :: cs) =
      match step last mode c cs with
      | .refused problem => .error problem
      | .stop ts rest => .ok ⟨ts, mode, rest⟩
      | .next ts m rest => (run last m rest).map fun r => ⟨ts ++ r.tokens, r.mode, r.rest⟩ := by
  rw [run]
  split <;> rename_i h <;> simp only [h]
  cases run last _ _ <;> rfl

-- What is left after the last reading is text, if there is any.
theorem leftOver_cases (last : Result) :
    leftOver last = [] ∨ ∃ text, text ≠ [] ∧ leftOver last = [.data text] := by
  unfold leftOver
  split
  · exact .inr ⟨_, List.cons_ne_nil _ _, rfl⟩
  · exact .inl rfl

end Scan

theorem tokens_eq_ok {cs : List Char} {ts : List Token} (h : tokens cs = .ok ts) :
    ∃ first last, Scan.run false .markup cs = .ok first ∧
      Scan.run true first.mode first.rest = .ok last ∧
      ts = first.tokens ++ last.tokens ++ Scan.leftOver last := by
  unfold tokens at h
  cases hfirst : Scan.run false .markup cs with
  | error problem => simp [hfirst, bind, Except.bind] at h
  | ok first =>
    cases hlast : Scan.run true first.mode first.rest with
    | error problem => simp [hfirst, hlast, bind, Except.bind] at h
    | ok last =>
      simp only [hfirst, hlast, bind, Except.bind, pure, Except.pure, Except.ok.injEq] at h
      exact ⟨first, last, rfl, hlast, h.symm⟩

theorem items_eq_ok {markup : String} {is : List Item} (h : items markup = .ok is) :
    ∃ ts, tokens markup.toList = .ok ts ∧ is = Item.ofTokens ts := by
  unfold items at h
  cases hts : tokens markup.toList with
  | error problem => simp [hts] at h
  | ok ts =>
    simp only [hts, Except.ok.injEq] at h
    exact ⟨ts, rfl, h.symm⟩

-- A text that the first reading takes as a whole is left nothing to the last one.
theorem tokens_eq_of_run {cs : List Char} {ts : List Token} {mode : Scan.Mode}
    (h : Scan.run false .markup cs = .ok ⟨ts, mode, []⟩) : tokens cs = .ok ts := by
  cases mode <;> simp [tokens, h, bind, Except.bind, pure, Except.pure, Scan.leftOver]

end MarkupDiff.Markup
