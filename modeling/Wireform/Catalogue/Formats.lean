import Wireform.Buffer.Scalar
import Wireform.Schema
import Wireform.Text.Hex

/-!
# Custom formats of the catalogue

Four types that write and read themselves: a colour as a text of hexadecimal
digits, a version whose major number may not be 255, a linked list that follows
its own links, and a type that is only the length of a list.
-/

namespace Wireform.Catalogue

/-- The module path of the catalogue's types. -/
def home : String := "oracle_driver::types::"

/-- A type of the catalogue. -/
def type (name : String) : Ty := .named (home ++ name)

/-- The type of colours: a red, a green and a blue part. -/
def rgb : Ty := type "Rgb"

/-- A colour is a short text: a number sign and two digits for each part. -/
def rgbFormat : Custom where
  write
    | .record _ [.scalar (.u8 red), .scalar (.u8 green), .scalar (.u8 blue)] =>
        Buffer.writeShortString
          (String.ofList
            ('#' :: (Text.Hex.pair red ++ Text.Hex.pair green ++ Text.Hex.pair blue)))
    | _ => Buffer.fail (.typeMismatch rgb.name)
  read := do
    let text ← Buffer.readShortString
    let color := match text.toList with
      | ['#', r, s, g, h, b, c] => do
          let red ← Text.Hex.octet? r s
          let green ← Text.Hex.octet? g h
          let blue ← Text.Hex.octet? b c
          return Value.record rgb [.u8 red, .u8 green, .u8 blue]
      | _ => none
    match color with
    | some color => return color
    | none => Buffer.fail (.custom ("bad color: " ++ text))

/-- The type of versions: a major and a minor number. -/
def version : Ty := type "Version"

/-- Refuses the major number that is reserved. -/
def checkMajor (major : UInt8) : Buffer.Op Unit :=
  if major = 255 then Buffer.fail (.custom "reserved major") else return ()

/-- A version is its two numbers. The major one is checked after it is written. -/
def versionFormat : Custom where
  write
    | .record _ [.scalar (.u8 major), .scalar (.u8 minor)] => do
        (Scalar.u8 major).write
        checkMajor major
        (Scalar.u8 minor).write
    | _ => Buffer.fail (.typeMismatch version.name)
  read := do
    let major := UInt8.ofNat (← Buffer.readNumber 1)
    checkMajor major
    let minor := UInt8.ofNat (← Buffer.readNumber 1)
    return .record version [.u8 major, .u8 minor]

/-- The type of the nodes of a linked list: a number and the next node, if any. -/
def linked : Ty := type "Linked"

/-- A node with its number and what follows it. -/
def linkedNode (number : Int32) (next : Option Value) : Value :=
  .record linked [.i32 number,
    match next with
    | some node => .present (.boxed node)
    | none => .absent (.boxed linked)]

/-- The numbers of a linked list from its first node on. -/
def linkedNumbers : Value → Option (List Int32)
  | .record _ [.scalar (.i32 number), .absent _] => some [number]
  | .record _ [.scalar (.i32 number), .present (.boxed next)] =>
      (number :: ·) <$> linkedNumbers next
  | _ => none

/-- The linked list of at least one number. -/
def linkedOf (first : Int32) : List Int32 → Value
  | [] => linkedNode first none
  | second :: rest => linkedNode first (some (linkedOf second rest))

/-- Writes each number with a flag that says whether another one follows. -/
def writeLinked : List Int32 → Buffer.Op Unit
  | [] => return ()
  | number :: rest => do
      (Scalar.i32 number).write
      Buffer.writeBool !rest.isEmpty
      writeLinked rest

/-- Reads numbers until a flag says that no other follows. Every round uses up
    bytes, so that as many rounds as there are bytes are enough. -/
def readLinked : (rounds : Nat) → (collected : List Int32) → Buffer.Op (List Int32)
  | 0, _ => Buffer.fail .endOfBuffer
  | rounds + 1, collected => do
      let number := (UInt32.ofNat (← Buffer.readNumber 4)).toInt32
      if ← Buffer.readBool then readLinked rounds (number :: collected)
      else return (number :: collected).reverse

/-- A linked list is its nodes in order. -/
def linkedFormat : Custom where
  write value :=
    match linkedNumbers value with
    | some numbers => writeLinked numbers
    | none => Buffer.fail (.typeMismatch linked.name)
  read := do
    let available ← fun buffer => .ok buffer.length buffer
    match ← readLinked (available + 1) [] with
    | first :: rest => return linkedOf first rest
    | [] => Buffer.fail .endOfBuffer

/-- The type of depths of hidden cycles. -/
def hiddenCycle : Ty := type "HiddenCycle"

/-- A depth is the list of the numbers below it. Only its length is read back. -/
def hiddenCycleFormat : Custom where
  write
    | .record _ [.scalar (.u8 depth)] => do
        Buffer.writeLength depth.toNat
        (List.range depth.toNat).forM fun number =>
          (Scalar.i32 (Int32.ofNat number)).write
    | _ => Buffer.fail (.typeMismatch hiddenCycle.name)
  read := do
    let count ← Buffer.readLength (← Buffer.limits).collectionLengths
    let _ ← Buffer.repeated (Buffer.readNumber 4) count []
    if count < 256 then return .record hiddenCycle [.u8 (UInt8.ofNat count)]
    else Buffer.fail (.custom "too deep")

end Wireform.Catalogue
