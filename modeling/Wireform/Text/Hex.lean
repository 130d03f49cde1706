import Wireform.Bytes

/-!
# Octets as hexadecimal digits

Two digits stand for an octet, the more significant one first. Digits are written
in lower case and read in either; nothing else may stand between them.
-/

namespace Wireform.Text.Hex

/-- A digit of base sixteen. -/
def digit (number : Nat) : Char :=
  if number < 10 then Char.ofNat (48 + number) else Char.ofNat (87 + number)

/-- The value of a digit of either case. -/
def value? (char : Char) : Option Nat :=
  if '0' ≤ char && char ≤ '9' then some (char.toNat - 48)
  else if 'a' ≤ char && char ≤ 'f' then some (char.toNat - 87)
  else if 'A' ≤ char && char ≤ 'F' then some (char.toNat - 55)
  else none

/-- An octet as two digits. -/
def pair (octet : UInt8) : List Char :=
  [digit (octet.toNat / 16), digit (octet.toNat % 16)]

/-- The octet of two digits. -/
def octet? (high low : Char) : Option UInt8 := do
  return UInt8.ofNat (16 * (← value? high) + (← value? low))

/-- Octets as a text of digits. -/
def encode (octets : Bytes) : String := String.ofList (octets.flatMap pair)

/-- The octets of a list of digits, after those collected so far in reverse. -/
def collect? : List Char → Bytes → Option Bytes
  | [], collected => some collected.reverse
  | high :: low :: rest, collected => do collect? rest ((← octet? high low) :: collected)
  | [_], _ => none

/-- The octets of a text of digits. -/
def decode? (text : String) : Option Bytes := collect? text.toList []

end Wireform.Text.Hex
