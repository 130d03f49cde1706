import Wireform.Buffer.Scalar
import Wireform.Custom
import Wireform.Enumeration
import Wireform.Value.Collection

/-!
# Formats assembled by hand

A format says how a value is written by combining buffer operations directly,
without descriptions or resolution. Collections of every kind are a count in four
octets and their elements; an optional value is a flag and, if it is present, the
value. Writing takes the elements as they come, duplicates included, while reading
a set or a map drops them. The order in which a hashed collection lists what it holds
is nobody's business. What is read lists it in ascending order, so that two sets or maps
that hold the same are the same, also as elements or keys of another one.
-/

namespace Wireform

/-- How a value is laid out in a buffer. -/
inductive Format
  | leaf (leaf : Leaf)
  /-- Text after a length of two octets. -/
  | shortString
  | enumeration (type : Ty) (names : List String)
  | custom (type : Ty) (custom : Custom)
  | list (element : Format)
  | set (element : Format)
  | queue (element : Format)
  | map (key value : Format)
  /-- A value that may be absent, or a reference to one, which is laid out alike. -/
  | optional (inner : Format)

namespace Format

/-- The type of the values that a format lays out. -/
def type : Format → Ty
  | .leaf kind => .leaf kind
  | .shortString => .string
  | .enumeration type _ => type
  | .custom type _ => type
  | .list element => .sequence .vector element.type
  | .set element => .sequence .hashedSet element.type
  | .queue element => .sequence .deque element.type
  | .map key value => .map .hashed key.type value.type
  | .optional inner => .option inner.type

/-- Writes a count and then each element. -/
def writeAll (write : Value → Buffer.Op Unit) (items : List Value) : Buffer.Op Unit := do
  Buffer.writeLength items.length
  items.forM write

/-- Reads a count that obeys the limit of all collections, and that many results. -/
def readAll {α : Type} (read : Buffer.Op α) : Buffer.Op (List α) := do
  let count ← Buffer.readLength (← Buffer.limits).collectionLengths
  Buffer.repeated read count []

/-- Writes a value in a format. A value of another type is refused. -/
def write : Format → Value → Buffer.Op Unit
  | .leaf kind, value => kind.writeValue value
  | .shortString, .scalar (.string text) => Buffer.writeShortString text
  | .enumeration type names, value => Enumeration.write type names value
  | .custom type layout, value => layout.writeValue type value
  | .list element, .sequence _ items => writeAll element.write items
  | .set element, .sequence _ items => writeAll element.write items
  | .queue element, .sequence _ items => writeAll element.write items
  | .map key value, .map _ entries => do
      Buffer.writeLength entries.length
      entries.forM fun entry => do
        key.write entry.1
        value.write entry.2
  | .optional _, .absent _ => Buffer.writeBool false
  | .optional inner, .present value => do
      Buffer.writeBool true
      inner.write value
  | format, _ => Buffer.fail (.typeMismatch format.type.name)

/-- Reads a value in a format. -/
def read : Format → Buffer.Op Value
  | .leaf kind => kind.readValue
  | .shortString => return .string (← Buffer.readShortString)
  | .enumeration type names => Enumeration.read type names
  | .custom _ layout => layout.read
  | .list element =>
      return .sequence (.sequence .vector element.type) (← readAll element.read)
  | .set element =>
      return .sequence (.sequence .hashedSet element.type)
        (Value.ascending (← readAll element.read))
  | .queue element =>
      return .sequence (.sequence .deque element.type) (← readAll element.read)
  | .map key value => do
      let entries ← readAll do
        let key ← key.read
        let value ← value.read
        return (key, value)
      return .map (.map .hashed key.type value.type) (MapKind.ordered.collect entries)
  | .optional inner => do
      if ← Buffer.readBool then return .present (← inner.read)
      else return .absent inner.type

end Format

end Wireform
