import MarkupDiff.Fault

namespace MarkupDiff.Json

-- What is wrong, and the text from there on.
structure Stop where
  problem : Problem
  rest : List Char

-- What is left of a text after something has been read from it.
abbrev Rest (s : List Char) := { r : List Char // r.length < s.length }

-- The rest of a shorter text is a rest of a longer one.
def Rest.within {s t : List Char} (r : Rest s) (h : s.length ≤ t.length) : Rest t :=
  ⟨r.1, Nat.lt_of_lt_of_le r.2 h⟩

def isBlank (c : Char) : Bool :=
  c == ' ' || c == '\t' || c == '\n' || c == '\r'

def skipBlanks (s : List Char) : List Char :=
  s.dropWhile isBlank

theorem length_dropWhile_le (p : Char → Bool) (s : List Char) :
    (s.dropWhile p).length ≤ s.length :=
  (List.dropWhile_suffix p).length_le

theorem length_skipBlanks_le (s : List Char) : (skipBlanks s).length ≤ s.length :=
  length_dropWhile_le _ s

-- The value of a hexadecimal digit.
def hexValue? (c : Char) : Option Nat :=
  if '0' ≤ c && c ≤ '9' then some (c.toNat - 48)
  else if 'a' ≤ c && c ≤ 'f' then some (c.toNat - 87)
  else if 'A' ≤ c && c ≤ 'F' then some (c.toNat - 55)
  else none

-- The value of four hexadecimal digits.
def hexValue4? (a b c d : Char) : Option Nat := do
  let w ← hexValue? a
  let x ← hexValue? b
  let y ← hexValue? c
  let z ← hexValue? d
  return ((w * 16 + x) * 16 + y) * 16 + z

-- The character that a letter stands for after a backslash.
def escaped? : Char → Option Char
  | '"' => some '"'
  | '\\' => some '\\'
  | '/' => some '/'
  | 'b' => some '\x08'
  | 'f' => some '\x0c'
  | 'n' => some '\n'
  | 'r' => some '\r'
  | 't' => some '\t'
  | _ => none

-- The code units of a text up to its closing quote; `opening` is the text from the opening quote.
-- Four digits have to be followed by something.
def textUnits (opening : List Char) : (s : List Char) → Except Stop (List Nat × Rest s)
  | [] => .error ⟨.unterminatedText, opening⟩
  | '"' :: r => .ok ([], ⟨r, by simp⟩)
  | ['\\'] => .error ⟨.unterminatedText, opening⟩
  | '\\' :: 'u' :: a :: b :: c :: d :: e :: r =>
    match hexValue4? a b c d with
    | none => .error ⟨.unicodeEscape, 'u' :: a :: b :: c :: d :: e :: r⟩
    | some n =>
      match textUnits opening (e :: r) with
      | .error stop => .error stop
      | .ok (ns, rest) => .ok (n :: ns, rest.within (by simp only [List.length_cons]; omega))
  | '\\' :: 'u' :: r => .error ⟨.unicodeEscape, 'u' :: r⟩
  | '\\' :: c :: r =>
    match escaped? c with
    | none => .error ⟨.escape, '\\' :: c :: r⟩
    | some d =>
      match textUnits opening r with
      | .error stop => .error stop
      | .ok (ns, rest) => .ok (d.toNat :: ns, rest.within (by simp only [List.length_cons]; omega))
  | c :: r =>
    if c.toNat < 32 then .error ⟨.controlCharacter, c :: r⟩
    else
      match textUnits opening r with
      | .error stop => .error stop
      | .ok (ns, rest) => .ok (c.toNat :: ns, rest.within (by simp only [List.length_cons]; omega))

-- The characters that code units stand for. Two halves of a pair make one character, and a half
-- by itself is no character.
def ofUnits : List Nat → List Char
  | [] => []
  | [n] => [if n < 0xD800 || 0xDFFF < n then Char.ofNat n else '\uFFFD']
  | m :: n :: ns =>
    if 0xD800 ≤ m && m < 0xDC00 then
      if 0xDC00 ≤ n && n < 0xE000 then
        Char.ofNat (0x10000 + (m - 0xD800) * 0x400 + (n - 0xDC00)) :: ofUnits ns
      else '\uFFFD' :: ofUnits (n :: ns)
    else (if 0xDC00 ≤ m && m < 0xE000 then '\uFFFD' else Char.ofNat m) :: ofUnits (n :: ns)

-- A text, from its opening quote on.
def text (s : List Char) : Except Stop (String × Rest s) :=
  match s with
  | '"' :: r =>
    match textUnits ('"' :: r) r with
    | .error stop => .error stop
    | .ok (ns, rest) => .ok (.ofList (ofUnits ns), rest.within (by simp))
  | s => .error ⟨.propertyName, s⟩

-- The fraction of a number, if digits follow the point.
def fraction (s : List Char) : List Char × List Char :=
  match s with
  | '.' :: c :: r =>
    if c.isDigit then (c :: r.takeWhile Char.isDigit, r.dropWhile Char.isDigit) else ([], s)
  | s => ([], s)

-- The exponent of a number, if digits follow its mark.
def exponent? (s : List Char) : Option (Int × List Char) :=
  match s with
  | [] => none
  | c :: r =>
    if c == 'e' || c == 'E' then
      let (negative, ds) := Binary.takeSign r
      let digits := ds.takeWhile Char.isDigit
      let n : Int := Binary.digitsValue digits
      if digits.isEmpty then none else some (if negative then -n else n, ds.dropWhile Char.isDigit)
    else none

-- The digits before the point: a zero, or digits that start with another one.
def whole? (s : List Char) : Option (List Char × List Char) :=
  match s with
  | [] => none
  | c :: r =>
    if c == '0' then some ([c], r)
    else if c.isDigit then some (c :: r.takeWhile Char.isDigit, r.dropWhile Char.isDigit)
    else none

-- A number; one with a fraction or an exponent is a floating-point number.
def number? (s : List Char) : Option (Value × List Char) := do
  let negative := s.head? == some '-'
  let (digits, afterDigits) ← whole? (if negative then s.drop 1 else s)
  let (decimals, afterFraction) := fraction afterDigits
  match exponent? afterFraction with
  | some (e, rest) =>
    return (.num (.binary (Binary.ofDecimal negative (Binary.digitsValue (digits ++ decimals))
      (e - decimals.length))), rest)
  | none =>
    if decimals.isEmpty then
      let n : Int := Binary.digitsValue digits
      return (.int (if negative then -n else n), afterFraction)
    else
      return (.num (.binary (Binary.ofDecimal negative (Binary.digitsValue (digits ++ decimals))
        (-decimals.length))), afterFraction)

-- The rest after a leading word.
def word? (word s : List Char) : Option (List Char) :=
  if word.isPrefixOf s then some (s.drop word.length) else none

-- A value that is one word or a number. What is not a number has its place in the text.
def scalar? (s : List Char) : Option (Value × List Char) :=
  let words : List (String × Value) :=
    [("null", .null), ("true", .bool true), ("false", .bool false),
     ("NaN", .num (.binary (.undefined s.length))),
     ("Infinity", .num (.binary (.infinite false))),
     ("-Infinity", .num (.binary (.infinite true)))]
  match words.findSome? fun (w, v) => (word? w.toList s).map fun r => (v, r) with
  | some hit => some hit
  | none => number? s

mutual

-- A value at the very start of the text.
def value (s : List Char) : Except Stop (Value × Rest s) :=
  match s with
  | [] => .error ⟨.value, s⟩
  | '"' :: r =>
    match text ('"' :: r) with
    | .error stop => .error stop
    | .ok (t, rest) => .ok (.text t, rest)
  | '[' :: r =>
    have hr : (skipBlanks r).length ≤ r.length := length_skipBlanks_le r
    match h : skipBlanks r with
    | ']' :: rest => .ok (.list [], ⟨rest, by simp only [h, List.length_cons] at hr ⊢; omega⟩)
    | _ =>
      match elements (skipBlanks r) with
      | .error stop => .error stop
      | .ok (vs, rest) => .ok (.list vs, rest.within (by simp only [List.length_cons]; omega))
  | '\x7b' :: r =>
    have hr : (skipBlanks r).length ≤ r.length := length_skipBlanks_le r
    match h : skipBlanks r with
    | '\x7d' :: rest => .ok (.record [], ⟨rest, by simp only [h, List.length_cons] at hr ⊢; omega⟩)
    | _ =>
      match members (skipBlanks r) with
      | .error stop => .error stop
      | .ok (es, rest) => .ok (.ofEntries es, rest.within (by simp only [List.length_cons]; omega))
  | s =>
    match scalar? s with
    | some (v, rest) => if h : rest.length < s.length then .ok (v, ⟨rest, h⟩) else .error ⟨.value, s⟩
    | none => .error ⟨.value, s⟩
termination_by (s.length, 0)

-- The items of a list from a value on, with the closing bracket.
def elements (s : List Char) : Except Stop (List Value × Rest s) :=
  match value s with
  | .error stop => .error stop
  | .ok (v, r) =>
    have hr := r.2
    have hb := length_skipBlanks_le r.1
    match h : skipBlanks r.1 with
    | ']' :: rest => .ok ([v], ⟨rest, by simp only [h, List.length_cons] at hb; omega⟩)
    | ',' :: rest =>
      have hs := length_skipBlanks_le rest
      have : (skipBlanks rest).length < s.length := by
        simp only [h, List.length_cons] at hb
        omega
      match elements (skipBlanks rest) with
      | .error stop => .error stop
      | .ok (vs, more) => .ok (v :: vs, more.within (by omega))
    | other => .error ⟨.comma, other⟩
termination_by (s.length, 1)

-- The members of an object from a name on, with the closing brace.
def members (s : List Char) : Except Stop (List (Value × Value) × Rest s) :=
  match text s with
  | .error stop => .error stop
  | .ok (key, r) =>
    have hr := r.2
    have hb := length_skipBlanks_le r.1
    match h : skipBlanks r.1 with
    | ':' :: colonRest =>
      have hc := length_skipBlanks_le colonRest
      have hv : (skipBlanks colonRest).length < s.length := by
        simp only [h, List.length_cons] at hb
        omega
      match value (skipBlanks colonRest) with
      | .error stop => .error stop
      | .ok (v, valueRest) =>
        have hw := valueRest.2
        have he := length_skipBlanks_le valueRest.1
        match h' : skipBlanks valueRest.1 with
        | '\x7d' :: rest =>
          .ok ([(.text key, v)], ⟨rest, by simp only [h', List.length_cons] at he; omega⟩)
        | ',' :: rest =>
          have hs := length_skipBlanks_le rest
          have : (skipBlanks rest).length < s.length := by
            simp only [h', List.length_cons] at he
            omega
          match members (skipBlanks rest) with
          | .error stop => .error stop
          | .ok (es, more) => .ok ((.text key, v) :: es, more.within (by omega))
        | other => .error ⟨.comma, other⟩
    | other => .error ⟨.colon, other⟩
termination_by (s.length, 1)

end

-- One value with nothing but blanks around it.
def document (s : List Char) : Except Stop Value :=
  if s.head? == some '\uFEFF' then .error ⟨.byteOrderMark, s⟩
  else
    match value (skipBlanks s) with
    | .error stop => .error stop
    | .ok (v, rest) =>
      match skipBlanks rest.1 with
      | [] => .ok v
      | other => .error ⟨.extraData, other⟩

-- Line and column, both counted from 1, of what comes after `before`.
def position (before : List Char) : Nat × Nat :=
  ((before.filter (· == '\n')).length + 1, (before.reverse.takeWhile (· != '\n')).length + 1)

-- Reads a document. A fault names the place where the reading stopped.
def read (s : String) : Except Fault Value :=
  let cs := s.toList
  match document cs with
  | .ok v => .ok v
  | .error stop =>
    let offset := cs.length - stop.rest.length
    let (line, column) := position (cs.take offset)
    .error (.badJson stop.problem line column offset)

end MarkupDiff.Json
