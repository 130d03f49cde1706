import Wireform.Buffer
import Wireform.Value

/-!
# Scalars in a buffer

Every leaf type has one wire form: numbers in two's complement or IEEE bits at
their natural width, flags in one octet, characters in one UTF-16 unit, text and
byte strings after their length, and identifiers in sixteen octets.
-/

namespace Wireform

/-- Writes a scalar in the wire form of its type. -/
def Scalar.write : Scalar → Buffer.Op Unit
  | .i8 number => Buffer.writeNumber 1 number.toUInt8.toNat
  | .u8 number => Buffer.writeNumber 1 number.toNat
  | .i16 number => Buffer.writeNumber 2 number.toUInt16.toNat
  | .u16 number => Buffer.writeNumber 2 number.toNat
  | .i32 number => Buffer.writeNumber 4 number.toUInt32.toNat
  | .i64 number => Buffer.writeNumber 8 number.toUInt64.toNat
  | .u64 number => Buffer.writeNumber 8 number.toNat
  | .f32 bits => Buffer.writeNumber 4 bits.toNat
  | .f64 bits => Buffer.writeNumber 8 bits.toNat
  | .bool truth => Buffer.writeBool truth
  | .char character => Buffer.writeChar character
  | .string text => Buffer.writeString text
  | .uuid bits => Buffer.writeNumber 16 bits.toNat
  | .bytes octets => Buffer.writeBytes octets

/-- Reads a scalar of a type from its wire form. -/
def Leaf.read : Leaf → Buffer.Op Scalar
  | .i8 => return .i8 (UInt8.ofNat (← Buffer.readNumber 1)).toInt8
  | .u8 => return .u8 (UInt8.ofNat (← Buffer.readNumber 1))
  | .i16 => return .i16 (UInt16.ofNat (← Buffer.readNumber 2)).toInt16
  | .u16 => return .u16 (UInt16.ofNat (← Buffer.readNumber 2))
  | .i32 => return .i32 (UInt32.ofNat (← Buffer.readNumber 4)).toInt32
  | .i64 => return .i64 (UInt64.ofNat (← Buffer.readNumber 8)).toInt64
  | .u64 => return .u64 (UInt64.ofNat (← Buffer.readNumber 8))
  | .f32 => return .f32 (UInt32.ofNat (← Buffer.readNumber 4))
  | .f64 => return .f64 (UInt64.ofNat (← Buffer.readNumber 8))
  | .bool => return .bool (← Buffer.readBool)
  | .char => return .char (← Buffer.readChar)
  | .string => return .string (← Buffer.readString)
  | .uuid => return .uuid (BitVec.ofNat 128 (← Buffer.readNumber 16))
  | .bytes => return .bytes (← Buffer.readBytes)

/-- Writes a value of a leaf type; a value of any other type is refused. -/
def Leaf.writeValue (leaf : Leaf) : Value → Buffer.Op Unit
  | .scalar scalar =>
      if scalar.leaf = leaf then scalar.write else Buffer.fail (.typeMismatch leaf.name)
  | _ => Buffer.fail (.typeMismatch leaf.name)

/-- Reads a value of a leaf type. -/
def Leaf.readValue (leaf : Leaf) : Buffer.Op Value :=
  return .scalar (← leaf.read)

end Wireform
