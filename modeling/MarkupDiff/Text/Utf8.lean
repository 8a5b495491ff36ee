import MarkupDiff.Fault

namespace MarkupDiff.Utf8

-- What a first byte announces: how many bytes follow, the range of the first of them, and the
-- part of the code point that it holds itself.
structure Lead where
  count : Nat
  low : UInt8
  high : UInt8
  bits : Nat

-- First bytes that announce no sequence, or one that another sequence writes shorter, are none.
def lead? (b : UInt8) : Option Lead :=
  if b < 0x80 then some ⟨0, 0, 0, b.toNat⟩
  else if b < 0xC2 then none
  else if b < 0xE0 then some ⟨1, 0x80, 0xBF, b.toNat - 0xC0⟩
  else if b == 0xE0 then some ⟨2, 0xA0, 0xBF, 0⟩
  else if b == 0xED then some ⟨2, 0x80, 0x9F, 0xD⟩
  else if b < 0xF0 then some ⟨2, 0x80, 0xBF, b.toNat - 0xE0⟩
  else if b == 0xF0 then some ⟨3, 0x90, 0xBF, 0⟩
  else if b < 0xF4 then some ⟨3, 0x80, 0xBF, b.toNat - 0xF0⟩
  else if b == 0xF4 then some ⟨3, 0x80, 0x8F, 4⟩
  else none

-- The bytes that go on a sequence, at most `count` of them.
def tail (low high : UInt8) : Nat → List UInt8 → List UInt8
  | 0, _ => []
  | _, [] => []
  | count + 1, b :: bs => if low ≤ b && b ≤ high then b :: tail 0x80 0xBF count bs else []

-- The code point of a sequence.
def codePoint (bits : Nat) (bs : List UInt8) : Nat :=
  bs.foldl (fun n b => n * 64 + (b.toNat - 0x80)) bits

-- Decodes bytes of which the first one stands at `position`.
def decodeFrom (position : Nat) (bytes : List UInt8) : Except Fault (List Char) :=
  match bytes with
  | [] => .ok []
  | b :: bs =>
    match lead? b with
    | none => .error (.badUtf8 .start b position (position + 1))
    | some l =>
      let more := tail l.low l.high l.count bs
      if more.length == l.count then
        match decodeFrom (position + 1 + l.count) (bs.drop l.count) with
        | .ok cs => .ok (Char.ofNat (codePoint l.bits more) :: cs)
        | .error fault => .error fault
      else
        let problem := if more.length == bs.length then Problem.cutOff else .continuation
        .error (.badUtf8 problem b position (position + 1 + more.length))
termination_by bytes.length
decreasing_by simp only [List.length_drop, List.length_cons]; omega

def decode (bytes : List UInt8) : Except Fault (List Char) :=
  decodeFrom 0 bytes

end MarkupDiff.Utf8
