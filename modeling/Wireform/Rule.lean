import Wireform.Buffer.Format
import Wireform.Catalogue
import Wireform.Resolver
import Wireform.Transform

/-!
# Ready-made rules

Conditions on contexts, codecs and wrappers that can be named in a configuration.
A condition with a recipe is a resolver, and a condition with a wrapping is a
transform. The recipes show what codecs may do beyond the built-in ones: store a
number in another width, refuse to be made, use another codec by resolving a
context, and go through the walker for their parts.
-/

namespace Wireform

/-- A condition on a context. -/
inductive Condition
  | always
  | nullable
  | hasValue
  | streamable
  /-- The unwrapped type is the given one. -/
  | isType (type : Ty)
  | declaredIs (type : Ty)
  | tagged (label : String)
  /-- The kind of the unwrapped type has the given label. -/
  | kind (label : String)
  /-- There is a value and it is of the given type. -/
  | valueIs (type : Ty)
  /-- The unwrapped value is a 32-bit number below the given one. -/
  | valueBelow (limit : Int)
  | negation (condition : Condition)
  | both (first second : Condition)

namespace Condition

/-- Whether a context meets a condition. -/
def holds (schema : Schema) : Condition → Context → Bool
  | .always, _ => true
  | .nullable, context => context.isNullable
  | .hasValue, context => context.value.isSome
  | .streamable, context => context.streamableElement.isSome
  | .isType type, context => context.unwrapped = type
  | .declaredIs type, context => context.declared = type
  | .tagged label, context => context.hasTag label
  | .kind label, context => (schema.kind context.unwrapped).label = label
  | .valueIs type, context => context.value.any fun value => value.type = type
  | .valueBelow limit, context =>
      match context.unwrappedValue with
      | .ok (some (.scalar (.i32 number))) => number.toInt < limit
      | _ => false
  | .negation condition, context => !condition.holds schema context
  | .both first second, context => first.holds schema context && second.holds schema context

/-- The condition that all of a list hold. -/
def all (conditions : List Condition) : Condition :=
  conditions.foldr .both .always

end Condition

/-- A codec that can be named. -/
inductive Recipe
  /-- Writes one number whatever the value is. -/
  | constantByte (number : Int8)
  /-- Cannot be made, for a reason of its own. -/
  | failing (reason : String)
  /-- Cannot be made, as if no codec had been found. -/
  | unavailable
  | i32AsI64
  | i64AsI16
  /-- Writes the least number in place of one that is out of range. -/
  | i32AsI8
  | shortString
  | i32List
  | swappedPair
  /-- Writes the path in front of the text and compares it on reading. -/
  | stringWithPath
  /-- Leaves a number to the codec that an optional number resolves to. -/
  | i32ViaResolve
  | pairViaWalker
  /-- Encodes a context without a value. -/
  | valueless
  | alwaysAbsent

namespace Recipe

/-- A codec for 32-bit numbers by way of other numbers. -/
def numeric (write : Int32 → Buffer.Op Unit) (read : Buffer.Op Int32) : Codec :=
  .typed .i32
    (fun value =>
      match value with
      | .scalar (.i32 number) => write number
      | _ => Buffer.fail (.typeMismatch Ty.i32.name))
    (return .i32 (← read))

/-- Reads a number of eight bits. -/
def readByte : Buffer.Op Int8 := return (UInt8.ofNat (← Buffer.readNumber 1)).toInt8

/-- A codec for 64-bit numbers in two octets. -/
def i64Narrowed : Codec :=
  .typed .i64
    (fun value =>
      match value with
      | .scalar (.i64 number) =>
          if -32768 ≤ number.toInt && number.toInt < 32768 then
            (Scalar.i16 number.toInt16).write
          else Buffer.fail (.custom "out of range")
      | _ => Buffer.fail (.typeMismatch Ty.i64.name))
    (do
      let number := (UInt16.ofNat (← Buffer.readNumber 2)).toInt16
      return .i64 number.toInt64)

/-- A codec for 32-bit numbers in eight octets. -/
def i32Widened : Codec :=
  numeric (fun number => (Scalar.i64 number.toInt64).write) do
    let number := (UInt64.ofNat (← Buffer.readNumber 8)).toInt64
    if -2147483648 ≤ number.toInt && number.toInt < 2147483648 then return number.toInt32
    else Buffer.fail (.custom "out of range")

/-- A codec for 32-bit numbers in one octet. -/
def i32Clamped : Codec :=
  numeric
    (fun number =>
      let narrow := if -128 ≤ number.toInt && number.toInt < 128 then number.toInt8 else -128
      (Scalar.i8 narrow).write)
    (return (← readByte).toInt32)

/-- A pair with its text before its number. -/
def pairBackwards : Codec :=
  .typed Catalogue.pair
    (fun value =>
      match value with
      | .record _ [.scalar number, .scalar text] => do
          text.write
          number.write
      | _ => Buffer.fail (.typeMismatch Catalogue.pair.name))
    (do
      let text ← Buffer.readString
      let number ← Leaf.i32.readValue
      return .record Catalogue.pair [number, .string text])

/-- A text after the path of the aggregates that enclose it. -/
def textAfterPath : Codec where
  encode := Codec.presentOnly "path" fun value => do
    let value ← Program.lift (value.expect .string)
    let path ← Program.path
    Program.buffer do
      Buffer.writeShortString ("/".intercalate path)
      Leaf.string.writeValue value
  decode := do
    let path ← Program.path
    let text ← Program.buffer do
      let actual ← Buffer.readShortString
      let text ← Buffer.readString
      return text ++ "@" ++ toString (actual == "/".intercalate path)
    return some (.string text)

/-- The context of an optional number at no site. -/
def optionalNumber : Context := Context.of (.option .i32)

/-- What a codec that must be there was answered with. -/
def resolved {α : Type} : Option α → Program α
  | some answer => .done answer
  | none => .fail (.custom "unresolved")

/-- The codec that an optional number resolves to. -/
def delegated : Codec where
  encode value := do resolved (← Program.perform (.encodeResolved optionalNumber value))
  decode := do resolved (← Program.perform (.decodeResolved optionalNumber))

/-- A pair whose parts are walked at no site, the text before the number. -/
def pairThroughWalker : Codec where
  encode := Codec.presentOnly "pair" fun value => do
    match value with
    | .record type [number, text] =>
        if type = Catalogue.pair then
          Program.encode ((Context.of .string).withValue text)
          Program.encode ((Context.of .i32).withValue number)
        else Program.fail (.typeMismatch Catalogue.pair.name)
    | _ => Program.fail (.typeMismatch Catalogue.pair.name)
  decode := do
    let text ← Program.decode (Context.of .string)
    let text ← Program.lift (text.expect .string)
    let number ← Program.decode (Context.of .i32)
    let number ← Program.lift (number.expect .i32)
    return some (.record Catalogue.pair [number, text])

/-- The codec of a recipe, or why it cannot be made. -/
def make : Recipe → Context → Except Error Codec
  | .constantByte number, _ =>
      .ok (numeric (fun _ => (Scalar.i8 number).write) (return (← readByte).toInt32))
  | .failing reason, _ => .error (.custom reason)
  | .unavailable, context => .error (.noCodecFound context.unwrapped.name)
  | .i32AsI64, _ => .ok i32Widened
  | .i64AsI16, _ => .ok i64Narrowed
  | .i32AsI8, _ => .ok i32Clamped
  | .shortString, _ => .ok (.typed .string Format.shortString.write Format.shortString.read)
  | .i32List, _ =>
      let format := Format.list (.leaf .i32)
      .ok (.typed (.vector .i32) format.write format.read)
  | .swappedPair, _ => .ok pairBackwards
  | .stringWithPath, _ => .ok textAfterPath
  | .i32ViaResolve, _ => .ok delegated
  | .pairViaWalker, _ => .ok pairThroughWalker
  | .valueless, _ =>
      .ok { encode := fun _ => Program.encode optionalNumber
            decode := some <$> Program.decode optionalNumber }
  | .alwaysAbsent, _ => .ok { encode := fun _ => .done (), decode := .done none }

end Recipe

/-- A wrapper that can be named. -/
inductive Wrapping
  | nullable
  /-- An octet after what the inner codec writes, checked on reading. -/
  | trailing (octet : UInt8)
  /-- An octet before what the inner codec writes, checked on reading. -/
  | leading (octet : UInt8)
  /-- Writes everything twice and keeps the first on reading. -/
  | twice
  /-- Gives the inner codec an absent value to encode. -/
  | dropping
  /-- Reports an absent value whatever was read. -/
  | forgetting
  /-- The number of enclosing aggregates in one octet, checked on reading. -/
  | depth

namespace Wrapping

/-- Reads one octet and refuses any but the given one. -/
def expectOctet (octet : UInt8) (complaint : String) : Program Unit := do
  let actual ← Program.buffer (Buffer.readNumber 1)
  if UInt8.ofNat actual = octet then return () else .fail (.custom complaint)

/-- Writes one octet. -/
def writeOctet (octet : UInt8) : Program Unit :=
  Program.buffer (Scalar.u8 octet).write

/-- The number of enclosing aggregates, modulo 256. -/
def pathLength : Program UInt8 := return UInt8.ofNat (← Program.path).length

/-- The codec with the wrapper around it. -/
def wrap : Wrapping → Codec → Codec
  | .nullable, inner => Codec.nullable inner
  | .trailing octet, inner =>
      { encode := fun value => do
          inner.encode value
          writeOctet octet
        decode := do
          let value ← inner.decode
          expectOctet octet "bad suffix"
          return value }
  | .leading octet, inner =>
      { encode := fun value => do
          writeOctet octet
          inner.encode value
        decode := do
          expectOctet octet "bad prefix"
          inner.decode }
  | .twice, inner =>
      { encode := fun value => do
          inner.encode value
          inner.encode value
        decode := do
          let value ← inner.decode
          let _ ← inner.decode
          return value }
  | .dropping, inner => { encode := fun _ => inner.encode none, decode := inner.decode }
  | .forgetting, inner =>
      { encode := inner.encode
        decode := do
          let _ ← inner.decode
          return none }
  | .depth, inner =>
      { encode := fun value => do
          writeOctet (← pathLength)
          inner.encode value
        decode := do
          expectOctet (← pathLength) "bad depth"
          inner.decode }

end Wrapping

/-- The resolver that makes a recipe where a condition holds. -/
def Recipe.resolver (schema : Schema) (priority : Int) (condition : Condition) (recipe : Recipe) :
    Resolver where
  priority := priority
  claims := condition.holds schema
  make := recipe.make

/-- The transform that wraps where a condition holds. -/
def Wrapping.transform (schema : Schema) (condition : Condition) (wrapping : Wrapping) :
    Transform where
  applies := condition.holds schema
  wrap := wrapping.wrap

end Wireform
