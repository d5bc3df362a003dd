/-!
# Texts of bytes

Bytes need not be the UTF-8 encoding of a text.  Read as one all the same, they have a
replacement character for each byte that belongs to none, but only one where several
bytes begin a character that the next byte breaks off.
-/

namespace ArtifactAtlas.Text

/-- The character whose encoding the bytes begin with. -/
def firstChar? (bytes : List UInt8) : Option Char :=
  bytes.toByteArray.utf8DecodeChar? 0

def replacement : Char := '\uFFFD'

def isContinuation (byte : UInt8) : Bool :=
  0x80 ≤ byte && byte ≤ 0xBF

/-- Whether a byte can come second after the first of three or four. -/
def comesSecond (first second : UInt8) : Bool :=
  if first = 0xE0 then 0xA0 ≤ second && second ≤ 0xBF
  else if first = 0xED then 0x80 ≤ second && second ≤ 0x9F
  else if first = 0xF0 then 0x90 ≤ second && second ≤ 0xBF
  else if first = 0xF4 then 0x80 ≤ second && second ≤ 0x8F
  else 0xE1 ≤ first && first ≤ 0xF3 && isContinuation second

/-- How many bytes at the front have one replacement character, where no character begins. -/
def brokenLength : List UInt8 → Nat
  | first :: second :: rest =>
      if comesSecond first second then
        -- of three bytes two can be there without the last, of four also three
        if 0xF0 ≤ first && rest.head?.any isContinuation then 3 else 2
      else 1
  | _ => 1

/-- The characters of bytes, of which the first few belong to a character read before. -/
def decodeFrom : Nat → List UInt8 → List Char
  | _, [] => []
  | read + 1, _ :: rest => decodeFrom read rest
  | 0, byte :: rest =>
      match firstChar? (byte :: rest) with
      | some c => c :: decodeFrom (c.utf8Size - 1) rest
      | none => replacement :: decodeFrom (brokenLength (byte :: rest) - 1) rest

/-- The text of bytes, with replacements where they are none. -/
def lossy (bytes : List UInt8) : List Char :=
  decodeFrom 0 bytes

end ArtifactAtlas.Text
