import Blueprint.Text.CodePoint

/-!
# UTF-8

Strict decoding: only the shortest form of a character is read, and no surrogates. A fault names the
bytes that cannot start or go on with a character, and where they stand.
-/

namespace Blueprint.Text.Utf8

/-- Why bytes are no UTF-8 text. -/
inductive Reason where
  /-- The byte cannot stand at the start of a character. -/
  | invalidStart
  /-- The byte after the ones read does not continue the character. -/
  | invalidContinuation
  /-- The text ends inside a character. -/
  | unexpectedEnd
  deriving DecidableEq, Repr

/-- Bytes that cannot be decoded: where they start, their first byte, and how many they are. -/
structure Fault where
  /-- The number of bytes before the faulty ones. -/
  position : Nat
  /-- The first of the faulty bytes. -/
  byte : UInt8
  /-- The count of the faulty bytes. -/
  count : Nat
  /-- What is wrong with them. -/
  reason : Reason
  deriving DecidableEq, Repr

/-- The wording of a reason. -/
def Reason.message : Reason → String
  | .invalidStart => "invalid start byte"
  | .invalidContinuation => "invalid continuation byte"
  | .unexpectedEnd => "unexpected end of data"

/-- The message for a fault: a single byte is shown, several are given by their range. -/
def Fault.message (fault : Fault) : String :=
  if fault.count = 1 then
    "'utf-8' codec can't decode byte 0x" ++
      String.ofList (CodePoint.hexDigits 2 fault.byte.toNat) ++
      " in position " ++ toString fault.position ++ ": " ++ fault.reason.message
  else
    "'utf-8' codec can't decode bytes in position " ++ toString fault.position ++ "-" ++
      toString (fault.position + fault.count - 1) ++ ": " ++ fault.reason.message

/-- A byte of the form 10xxxxxx. -/
def isContinuation (byte : UInt8) : Bool :=
  decide (0x80 ≤ byte.toNat) && decide (byte.toNat < 0xC0)

/-- Whether the second byte fits the first one: no character in more bytes than it needs, no
surrogate, nothing beyond the last character. -/
def secondFits (first second : UInt8) : Bool :=
  isContinuation second &&
    !(first == 0xE0 && decide (second.toNat < 0xA0)) &&
    !(first == 0xED && decide (0xA0 ≤ second.toNat)) &&
    !(first == 0xF0 && decide (second.toNat < 0x90)) &&
    !(first == 0xF4 && decide (0x90 ≤ second.toNat))

/-- The count of bytes of a character by its first byte, or none if no character starts so. -/
def width? (first : UInt8) : Option Nat :=
  let n := first.toNat
  if n < 0x80 then some 1
  else if n < 0xC2 then none
  else if n < 0xE0 then some 2
  else if n < 0xF0 then some 3
  else if n < 0xF5 then some 4
  else none

/-- The first bytes that can start a character and go on with it, out of at most the given count;
the second byte has to fit the first. -/
def goodBytes (first : UInt8) (width : Nat) (rest : List UInt8) : List UInt8 :=
  match rest with
  | second :: more =>
    if secondFits first second then
      first :: second :: (more.take (width - 2)).takeWhile isContinuation
    else [first]
  | [] => [first]

/-- The number that the bytes of one character write. -/
def codeOf : List UInt8 → Nat
  | [a] => a.toNat
  | [a, b] => (a.toNat - 0xC0) * 64 + (b.toNat - 0x80)
  | [a, b, c] => ((a.toNat - 0xE0) * 64 + (b.toNat - 0x80)) * 64 + (c.toNat - 0x80)
  | [a, b, c, d] =>
    (((a.toNat - 0xF0) * 64 + (b.toNat - 0x80)) * 64 + (c.toNat - 0x80)) * 64 + (d.toNat - 0x80)
  | _ => 0

/-- Reads one character per step, skipping the bytes that belong to the character just read. -/
def decodeFrom (position skip : Nat) : List UInt8 → Except Fault (List Char)
  | [] => .ok []
  | first :: rest =>
    match skip with
    | skip + 1 => decodeFrom (position + 1) skip rest
    | 0 =>
      match width? first with
      | none => .error ⟨position, first, 1, .invalidStart⟩
      | some 1 => do
        let more ← decodeFrom (position + 1) 0 rest
        return Char.ofNat first.toNat :: more
      | some width =>
        let good := goodBytes first width rest
        if good.length = width then do
          let more ← decodeFrom (position + 1) (width - 1) rest
          return Char.ofNat (codeOf good) :: more
        else
          let reason := if rest.length + 1 = good.length then Reason.unexpectedEnd
            else .invalidContinuation
          .error ⟨position, first, good.length, reason⟩

/-- The text that the bytes write, or the first fault. -/
def decode (bytes : ByteArray) : Except Fault (List Char) :=
  decodeFrom 0 0 bytes.toList

/-- Text in which every way to end a line is written as a line feed: a carriage return with the
line feed after it, if there is one, becomes a line feed. -/
def unifyLineEnds : List Char → List Char
  | [] => []
  | '\r' :: '\n' :: rest => '\n' :: unifyLineEnds rest
  | c :: rest => (if c = '\r' then '\n' else c) :: unifyLineEnds rest

end Blueprint.Text.Utf8
