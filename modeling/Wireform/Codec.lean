import Wireform.Buffer.Scalar
import Wireform.Program

/-!
# Codecs

A codec encodes a value that may be absent and decodes one that may be absent. A
plain codec refuses an absent value; only a wrapper such as `nullable` gives it a
meaning. The codecs here are the ones that a serializer uses on its own: for
leaves, enumerations, sequences, maps, nested options, aggregates and custom
formats.
-/

namespace Wireform

/-- How the values at some place are encoded and decoded. -/
structure Codec where
  encode : Option Value → Program Unit
  decode : Program (Option Value)

namespace Codec

/-- Refuses an absent value in the name of a type. -/
def presentOnly (name : String) (encode : Value → Program Unit) : Option Value → Program Unit
  | none => .fail (.unexpectedNull name)
  | some value => encode value

/-- A codec for the values of one type that needs nothing but the buffer. -/
def typed (type : Ty) (write : Value → Buffer.Op Unit) (read : Buffer.Op Value) : Codec where
  encode := presentOnly type.name fun value => do
    let value ← Program.lift (value.expect type)
    Program.buffer (write value)
  decode := some <$> Program.buffer read

/-- A leaf in its wire form. -/
def leaf (leaf : Leaf) : Codec := typed (.leaf leaf) leaf.writeValue leaf.readValue

/-- The octet that a value is, if it is one. -/
def octet? : Value → Option UInt8
  | .scalar (.u8 octet) => some octet
  | _ => none

/-- The octets that a list of values consists of, if it does. -/
def octets? (items : List Value) : Option Bytes := items.mapM octet?

/-- A vector of octets in the wire form of byte strings. -/
def octetVector : Codec :=
  let type := Ty.vector .u8
  typed type
    (fun value =>
      match (value.items type).toOption.bind octets? with
      | some octets => Buffer.writeBytes octets
      | none => Buffer.fail (.typeMismatch type.name))
    (do
      let octets ← Buffer.readBytes
      return .sequence type (octets.map Value.u8))

/-- An enumeration by the names of its members. -/
def enumeration (type : Ty) (names : List String) : Codec where
  encode := presentOnly type.name fun value => Program.buffer (Enumeration.write type names value)
  decode := some <$> Program.buffer (Enumeration.read type names)

/-- A sequence as its number of elements in eight octets and the elements, each at
    the site of its type. -/
def stream (type element : Ty) (collect : List Value → Except Error Value) : Codec :=
  let context := (Context.of element).placedAt (.element element)
  { encode := presentOnly type.name fun value => do
      let items ← Program.lift (value.items type)
      Program.buffer (Buffer.writeLongLength items.length)
      Program.encodeEach context items
    decode := do
      let count ← Program.buffer do
        Buffer.readLongLength (← Buffer.limits).collectionLengths
      let items ← Program.decodeEach context count []
      some <$> Program.lift (collect items) }

/-- A map as its number of entries in four octets and the entries, each key before
    its value. -/
def map (type key value : Ty) : Codec :=
  let keyContext := (Context.of key).placedAt (.key key)
  let valueContext := (Context.of value).placedAt (.value value)
  { encode := presentOnly type.name fun whole => do
      let entries ← Program.lift (whole.entries type)
      Program.buffer (Buffer.writeLength entries.length)
      Program.encodeEntries keyContext valueContext entries
    decode := do
      let count ← Program.buffer do
        Buffer.readLength (← Buffer.limits).collectionLengths
      let entries ← Program.decodeEntries keyContext valueContext count []
      some <$> Program.lift (Schema.collectEntries type entries) }

/-- An option below the one that the site has stripped, walked at a site of its own
    so that it gets a flag of its own. -/
def innerOption (type : Ty) : Codec :=
  let context := (Context.of type).placedAt (.inner type)
  { encode := presentOnly type.name fun value => Program.encode (context.withValue value)
    decode := some <$> Program.decode context }

/-- An aggregate by its fields. -/
def aggregate (type : Ty) (description : Aggregate) : Codec where
  encode := presentOnly type.name fun value =>
    Program.perform (.encodeFields type description value)
  decode := some <$> Program.perform (.decodeFields type description)

/-- A type that writes and reads itself. -/
def custom (type : Ty) (format : Custom) : Codec where
  encode := presentOnly type.name fun value => Program.buffer (format.writeValue type value)
  decode := some <$> Program.buffer format.read

/-- A flag and, if the value is present, what the inner codec writes. -/
def nullable (inner : Codec) : Codec where
  encode value := do
    Program.buffer (Buffer.writeBool value.isSome)
    match value with
    | some value => inner.encode (some value)
    | none => return ()
  decode := do
    if ← Program.buffer Buffer.readBool then inner.decode else return none

end Codec

end Wireform
