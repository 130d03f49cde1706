import Wireform.Derive.Fault
import Wireform.Derive.Token.Spelling

/-!
# Numbers as positions

A field without a name goes by its position, a whole number without a suffix. Two
positions with a point between them are spelled like a fraction, so a fraction is
read as the positions in it.
-/

namespace Wireform.Derive.Numeral

/-- The number that digits stand for, after those read so far, and the suffix behind
    them. A fraction is no such number. -/
def digits? (base : Nat) : (value : Nat) → List Char → Option (Nat × List Char)
  | value, [] => some (value, [])
  | value, char :: rest =>
      if char.isDigit then
        let digit := char.toNat - 48
        if digit < base then digits? base (base * value + digit) rest else none
      else
        match if base = 16 then Text.Hex.value? char else none with
        | some digit => digits? base (base * value + digit) rest
        | none =>
            if char = '_' then digits? base value rest
            else if base = 10 && (char = '.' || char = 'e' || char = 'E') then none
            else some (value, char :: rest)

/-- The number that a spelling stands for, and its suffix. -/
def whole? (spelling : String) : Option (Nat × List Char) :=
  match spelling.toList with
  | '0' :: 'x' :: rest => digits? 16 0 rest
  | '0' :: 'o' :: rest => digits? 8 0 rest
  | '0' :: 'b' :: rest => digits? 2 0 rest
  | first :: rest => if first.isDigit then digits? 10 0 (first :: rest) else none
  | [] => none

/-- Whether a spelling is that of a number. -/
def isNumber (spelling : String) : Bool := spelling.toList.head?.any Char.isDigit

/-- Whether a spelling is that of a whole number. -/
def isWhole (spelling : String) : Bool := (whole? spelling).isSome

/-- Whether a spelling is that of a fraction. -/
def isFraction (spelling : String) : Bool := isNumber spelling && !isWhole spelling

/-- The position that a spelling stands for. -/
def position (spelling : String) : Reading Nat :=
  match whole? spelling with
  | none => .error (.unreadable "expected integer literal")
  | some (value, suffix) =>
      if !suffix.isEmpty then .error (.unreadable "expected unsuffixed integer")
      else if value < 0x100000000 then .ok value
      else .error (.unreadable "number too large to fit in target type")

/-- The position that a part of a fraction stands for. It has to be a number by
    itself. -/
def part (digits : List Char) : Reading Nat :=
  match Spelling.literal? digits with
  | none => .error (.unreadable "lex error")
  | some _ => position (String.ofList digits)

/-- The parts of a text between points. -/
def split : List Char → (current : List Char) → List (List Char)
  | [], current => [current.reverse]
  | char :: rest, current =>
      if char = '.' then current.reverse :: split rest [] else split rest (char :: current)

/-- The positions in a fraction, and whether a point comes last. -/
def positions (spelling : String) : Reading (List Nat × Bool) := do
  let parts := split spelling.toList []
  let isOpen := parts.getLast? = some []
  let found ← (if isOpen then parts.dropLast else parts).mapM part
  return (found, isOpen)

end Wireform.Derive.Numeral
