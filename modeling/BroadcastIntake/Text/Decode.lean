/-!
# Decoding bytes

Reads bytes as UTF-8.  Bytes that are not part of a well-formed character do not stop the reading:
each longest start of a character that breaks off is read as one replacement character.
-/

namespace BroadcastIntake

namespace Text

/-- The character that stands for bytes that form none. -/
def replacement : Char := '\uFFFD'

/-- What the first byte of a character of several bytes says: its own bits, how many bytes follow,
and the range of the next byte. -/
structure Lead where
  bits : Nat
  following : Nat
  low : Nat
  high : Nat
  deriving DecidableEq, Repr

/-- The first byte of a character of several bytes.  The range of the second byte keeps out
characters that fewer bytes can write, surrogates, and codes that are too large. -/
def lead? (b : Nat) : Option Lead :=
  if 0xC2 ≤ b && b ≤ 0xDF then some ⟨b - 0xC0, 1, 0x80, 0xBF⟩
  else if b = 0xE0 then some ⟨0, 2, 0xA0, 0xBF⟩
  else if b = 0xED then some ⟨0xD, 2, 0x80, 0x9F⟩
  else if 0xE1 ≤ b && b ≤ 0xEF then some ⟨b - 0xE0, 2, 0x80, 0xBF⟩
  else if b = 0xF0 then some ⟨0, 3, 0x90, 0xBF⟩
  else if 0xF1 ≤ b && b ≤ 0xF3 then some ⟨b - 0xF0, 3, 0x80, 0xBF⟩
  else if b = 0xF4 then some ⟨4, 3, 0x80, 0x8F⟩
  else none

/-- How far the reading of a character is: nothing has been read, or some of its bytes have. -/
inductive Reading where
  | between
  | within (code left low high : Nat)
  deriving DecidableEq, Repr

/-- One more byte after a complete character: the characters that it gives, and how far the reading
is then. -/
def startByte (b : Nat) : List Char × Reading :=
  if b < 0x80 then ([Char.ofNat b], .between)
  else
    match lead? b with
    | some l => ([], .within l.bits l.following l.low l.high)
    | none => ([replacement], .between)

def nextByte (reading : Reading) (b : Nat) : List Char × Reading :=
  match reading with
  | .between => startByte b
  | .within code left low high =>
    if low ≤ b && b ≤ high then
      let code := code * 64 + (b - 0x80)
      if left ≤ 1 then ([Char.ofNat code], .between)
      else ([], .within code (left - 1) 0x80 0xBF)
    else
      let (characters, reading) := startByte b
      (replacement :: characters, reading)

/-- What is left to say at the end of the bytes. -/
def atEnd : Reading → List Char
  | .between => []
  | .within _ _ _ _ => [replacement]

/-- Reads bytes; the characters before them stand backwards. -/
def decodeFrom (reading : Reading) (before : List Char) : List UInt8 → List Char
  | [] => before.reverse ++ atEnd reading
  | b :: rest =>
    let (characters, reading) := nextByte reading b.toNat
    decodeFrom reading (characters.reverse ++ before) rest

def decode (content : ByteArray) : String :=
  String.ofList (decodeFrom .between [] content.toList)

end Text

end BroadcastIntake
