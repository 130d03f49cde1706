import Wireform.Config
import Wireform.Error

/-!
# Buffers

A buffer is filled in write mode or drained in read mode and never changes from
one to the other. A writer only grows at its end. A reader only loses bytes at its
front, and an operation that fails leaves it where it stopped: bytes that were
consumed before the failure stay consumed.

What has been written is kept newest first, so that one more write costs only its
own length; `bytes` shows it in order.
-/

namespace Wireform

/-- What a buffer holds: what has been written, newest octet first, or what is
    still to be read. -/
inductive Buffer.Contents
  | written (reversed : Bytes)
  | unread (bytes : Bytes)

/-- A buffer with the limits that its reads respect. -/
structure Buffer where
  contents : Buffer.Contents
  config : Config := {}

namespace Buffer

/-- An operation on a buffer. The buffer is left behind on failure as well. -/
abbrev Op (α : Type) := Step Buffer α

/-- An empty buffer to write to. -/
def writer (config : Config := {}) : Buffer := ⟨.written [], config⟩

/-- A buffer to read the given bytes from. -/
def reader (bytes : Bytes) (config : Config := {}) : Buffer := ⟨.unread bytes, config⟩

/-- What the buffer can be used for. -/
def mode (buffer : Buffer) : Mode :=
  match buffer.contents with
  | .written _ => .write
  | .unread _ => .read

/-- What has been written so far, or what is still to be read. -/
def bytes (buffer : Buffer) : Bytes :=
  match buffer.contents with
  | .written reversed => reversed.reverse
  | .unread bytes => bytes

/-- How many bytes that is. -/
def length (buffer : Buffer) : Nat :=
  match buffer.contents with
  | .written reversed => reversed.length
  | .unread bytes => bytes.length

/-- Everything that was written. A reader has nothing to hand over. -/
def finish (buffer : Buffer) : Except Error Bytes :=
  match buffer.contents with
  | .written reversed => .ok reversed.reverse
  | .unread _ => .error (.mode Mode.read.name)

/-- Succeeds on a reader that has been read to its end. -/
def ensureConsumed (buffer : Buffer) : Except Error Unit :=
  match buffer.contents with
  | .written _ => .error (.mode Mode.write.name)
  | .unread [] => .ok ()
  | .unread rest => .error (.extraData rest.length)

/-- Fails with the given cause and leaves the buffer as it is. -/
def fail {α : Type} (error : Error) : Op α := Step.fail error

/-- Appends bytes. -/
def append (bytes : Bytes) : Op Unit := fun buffer =>
  match buffer.contents with
  | .written reversed => .ok () { buffer with contents := .written (bytes.reverseAux reversed) }
  | .unread _ => .error (.mode Mode.read.name) buffer

/-- Takes exactly `count` bytes off the front, or nothing if there are fewer. -/
def take (count : Nat) : Op Bytes := fun buffer =>
  match buffer.contents with
  | .written _ => .error (.mode Mode.write.name) buffer
  | .unread bytes =>
      let (front, rest) := bytes.splitAt count
      if front.length = count then .ok front { buffer with contents := .unread rest }
      else .error .endOfBuffer buffer

/-- Exactly as many bytes are taken as there are in front. -/
theorem take_append (front rest : Bytes) (config : Config) :
    take front.length (reader (front ++ rest) config) = .ok front (reader rest config) := by
  simp [take, reader, List.splitAt_eq]

/-- A number in `width` octets. -/
def writeNumber (width number : Nat) : Op Unit :=
  append (Bytes.bigEndian width number)

/-- The number in the next `width` octets. -/
def readNumber (width : Nat) : Op Nat := do
  return Bytes.ofBigEndian (← take width)

/-- A flag is one octet, 1 or 0. -/
def writeBool (flag : Bool) : Op Unit :=
  writeNumber 1 flag.toNat

/-- Every octet but 0 and 1 is refused. -/
def readBool : Op Bool := do
  match ← readNumber 1 with
  | 0 => return false
  | 1 => return true
  | _ => fail .invalidBool

/-- A length in four octets, of which the first bit is never set. The length is
    checked before the mode of the buffer. -/
def writeLength (length : Nat) : Op Unit :=
  if length < 0x80000000 then writeNumber 4 length else fail (.lengthOverflow length)

/-- A length in eight octets, of which the first bit is never set. -/
def writeLongLength (length : Nat) : Op Unit :=
  if length < 0x8000000000000000 then writeNumber 8 length else fail (.lengthOverflow length)

/-- Accepts a length that was read as a two's complement number of `width` octets
    if it is not negative and lies in the range. -/
def checkLength (width : Nat) (range : Range) (number : Nat) : Op Nat :=
  if 2 * number < Bytes.capacity width then
    if range.contains number then return number else fail (.lengthExceeded number)
  else fail (.invalidLength (number - Bytes.capacity width))

/-- Reads a length of four octets that must lie in the range. -/
def readLength (range : Range) : Op Nat := do
  checkLength 4 range (← readNumber 4)

/-- Reads a length of eight octets that must lie in the range. -/
def readLongLength (range : Range) : Op Nat := do
  checkLength 8 range (← readNumber 8)

/-- The limits that the buffer was made with. -/
def limits : Op Config := fun buffer => .ok buffer.config buffer

/-- Text whose octets these are. They count as consumed even if they are no text. -/
def asText (bytes : Bytes) : Op String :=
  match Text.Utf8.decode bytes with
  | .ok text => return text
  | .error fault => fail (.invalidUtf8 fault)

/-- Text after its length in four octets. -/
def writeString (text : String) : Op Unit := do
  let octets := Text.Utf8.encode text
  writeLength octets.length
  append octets

/-- Text after its length in four octets. -/
def readString : Op String := do
  let length ← readLength (← limits).stringLengths
  asText (← take length)

/-- Text after its length in two octets. The length is checked before the mode of
    the buffer. -/
def writeShortString (text : String) : Op Unit := do
  let octets := Text.Utf8.encode text
  if octets.length < 0x10000 then
    writeNumber 2 octets.length
    append octets
  else fail (.lengthOverflow octets.length)

/-- Text after its length in two octets, which obeys the limit of all text. -/
def readShortString : Op String := do
  let length ← readNumber 2
  if (← limits).stringLengths.contains length then asText (← take length)
  else fail (.lengthExceeded length)

/-- Octets after their number in four octets. -/
def writeBytes (octets : Bytes) : Op Unit := do
  writeLength octets.length
  append octets

/-- Octets after their number in four octets. -/
def readBytes : Op Bytes := do
  let length ← readLength (← limits).byteLengths
  take length

/-- A character is one UTF-16 unit, so only those up to U+FFFF can be written. The
    character is checked before the mode of the buffer. -/
def writeChar (char : Char) : Op Unit :=
  if char.toNat < 0x10000 then writeNumber 2 char.toNat else fail (.invalidChar char.toNat)

/-- Surrogate units are no characters. -/
def readChar : Op Char := do
  let unit ← readNumber 2
  if unit.isValidChar then return Char.ofNat unit else fail (.invalidChar unit)

/-- Repeats an operation and collects its results in order. -/
def repeated {α : Type} (operation : Op α) : (count : Nat) → (collected : List α) → Op (List α)
  | 0, collected => return collected.reverse
  | count + 1, collected => do
      let result ← operation
      repeated operation count (result :: collected)

end Buffer

end Wireform
