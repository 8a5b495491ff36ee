import MarkupDiff.Text.Blank

namespace MarkupDiff.Markup

-- The empty comment, by which template engines mark the parts of their output.
def marker : List Char := ['<', '!', '-', '-', '-', '-', '>']

-- The text without its markers, each taken out where it stands.
def eraseMarkers : List Char → List Char
  | [] => []
  | '<' :: '!' :: '-' :: '-' :: '-' :: '-' :: '>' :: cs => eraseMarkers cs
  | c :: cs => c :: eraseMarkers cs

-- Taking out markers leaves no more than there was.
theorem length_eraseMarkers_le (cs : List Char) : (eraseMarkers cs).length ≤ cs.length := by
  fun_induction eraseMarkers cs with
  | case1 => simp
  | case2 cs ih => simp only [List.length_cons]; omega
  | case3 c cs _ ih => simp only [List.length_cons]; omega

-- The text without markers, also those that come about when others are taken out.
def withoutMarkers (cs : List Char) : List Char :=
  if (eraseMarkers cs).length < cs.length then withoutMarkers (eraseMarkers cs) else cs
termination_by cs.length

-- Markup without markers and without blanks around it.
def sanitize (markup : String) : String :=
  .ofList (Text.strip (withoutMarkers markup.toList))

end MarkupDiff.Markup
