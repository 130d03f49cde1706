import Wireform.Bytes

/-!
# UTF-8 text

Text travels as UTF-8. Reading it back either yields the text or says where the
first ill-formed sequence starts and how it fails: a sequence that the following
octets contradict is reported with the number of octets that were acceptable up
to there, and one that the input merely ends inside is reported as truncated.
-/

namespace Wireform.Text.Utf8

/-- The first place where a byte string stops being UTF-8. -/
inductive Fault
  /-- `length` octets from `index` on cannot be continued by what follows them. -/
  | malformed (length index : Nat)
  /-- The input ends inside a sequence that was acceptable so far. -/
  | truncated (index : Nat)
deriving DecidableEq, Repr

/-- What is reported to a user for a fault. -/
def Fault.message : Fault → String
  | .malformed length index =>
      "invalid utf-8 sequence of " ++ toString length ++ " bytes from index " ++ toString index
  | .truncated index => "incomplete utf-8 byte sequence from index " ++ toString index

/-- An octet that may stand after the first two of a sequence. -/
def continues (octet : UInt8) : Bool :=
  0x80 ≤ octet && octet ≤ 0xBF

/-- The second octets that a leading octet admits. The narrowed ranges exclude
    overlong forms, surrogates and numbers above U+10FFFF. -/
def admits (leading octet : UInt8) : Bool :=
  if leading == 0xE0 then 0xA0 ≤ octet && octet ≤ 0xBF
  else if leading == 0xED then 0x80 ≤ octet && octet ≤ 0x9F
  else if leading == 0xF0 then 0x90 ≤ octet && octet ≤ 0xBF
  else if leading == 0xF4 then 0x80 ≤ octet && octet ≤ 0x8F
  else continues octet

/-- How many octets follow a leading octet, if it can lead a sequence. -/
def followers (leading : UInt8) : Option Nat :=
  if leading < 0x80 then some 0
  else if 0xC2 ≤ leading && leading ≤ 0xDF then some 1
  else if 0xE0 ≤ leading && leading ≤ 0xEF then some 2
  else if 0xF0 ≤ leading && leading ≤ 0xF4 then some 3
  else none

/-- The first fault at or after `index`, where `bytes` starts. -/
def faultFrom (index : Nat) : Bytes → Option Fault
  | [] => none
  | leading :: rest =>
      match followers leading, rest with
      | none, _ => some (.malformed 1 index)
      | some 0, rest => faultFrom (index + 1) rest
      | some _, [] => some (.truncated index)
      | some (more + 1), second :: rest =>
          if !admits leading second then some (.malformed 1 index)
          else match more, rest with
            | 0, rest => faultFrom (index + 2) rest
            | _ + 1, [] => some (.truncated index)
            | more + 1, third :: rest =>
                if !continues third then some (.malformed 2 index)
                else match more, rest with
                  | 0, rest => faultFrom (index + 3) rest
                  | _ + 1, [] => some (.truncated index)
                  | _ + 1, fourth :: rest =>
                      if !continues fourth then some (.malformed 3 index)
                      else faultFrom (index + 4) rest

/-- The octets of a text. -/
def encode (text : String) : Bytes :=
  text.toByteArray.data.toList

/-- The text with these octets. The decision is the library's own notion of valid
    UTF-8; the scan for the fault runs only after it has said no. -/
def decode (bytes : Bytes) : Except Fault String :=
  let octets := ByteArray.mk bytes.toArray
  if valid : octets.validateUTF8 = true then
    .ok (String.ofByteArray octets (ByteArray.validateUTF8_eq_true_iff.mp valid))
  else .error ((faultFrom 0 bytes).getD (.truncated 0))

/-- Text is read back from its octets. -/
theorem decode_encode (text : String) : decode (encode text) = .ok text := by
  have octets : ByteArray.mk (encode text).toArray = text.toByteArray := by
    simp [encode]
  have valid : text.toByteArray.validateUTF8 = true :=
    ByteArray.validateUTF8_eq_true_iff.mpr text.isValidUTF8
  simp only [decode, octets, valid, dite_true]

/-- Octets that are read as text are those of the text. -/
theorem encode_of_decode {bytes : Bytes} {text : String} (read : decode bytes = .ok text) :
    encode text = bytes := by
  simp only [decode] at read
  split at read
  · cases read
    simp [encode]
  · cases read

end Wireform.Text.Utf8
