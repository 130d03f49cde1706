import Wireform.Codec

/-!
# Resolvers

A resolver claims contexts by a condition and makes the codec for those it claims.
Resolvers are consulted in the order of descending priority, and among equals in
the order of registration. The first one that claims a context decides: what it
makes is the answer, a failure included.

The built-in resolvers cover the leaves, enumerations, maps and sequences. They
count as registered before all others.
-/

namespace Wireform

/-- A rule that supplies the codecs of the contexts it claims. -/
structure Resolver where
  priority : Int
  claims : Context → Bool
  make : Context → Except Error Codec

namespace Resolver

/-- The priorities of the built-in resolvers. -/
def primitivePriority : Int := 400
def blobPriority : Int := 300
def enumerationPriority : Int := 200
def mapPriority : Int := 150
def streamPriority : Int := 100

/-- A chain with one more resolver, which goes behind all of at least its priority. -/
def insert (resolver : Resolver) : List Resolver → List Resolver
  | [] => [resolver]
  | head :: rest =>
      if head.priority < resolver.priority then resolver :: head :: rest
      else head :: insert resolver rest

/-- The registered resolvers in the order in which they are consulted. -/
def chain (registered : List Resolver) : List Resolver :=
  registered.foldl (fun chain resolver => insert resolver chain) []

/-- The answer of the first resolver of a chain that claims the context. -/
def resolve (chain : List Resolver) (context : Context) : Except Error (Option Codec) :=
  match chain.find? (fun resolver => resolver.claims context) with
  | some resolver => some <$> resolver.make context
  | none => .ok none

/-- A resolver for exactly one unwrapped type. -/
def exact (priority : Int) (type : Ty) (codec : Codec) : Resolver where
  priority := priority
  claims context := context.unwrapped = type
  make _ := .ok codec

/-- The codec of an enumeration. -/
def enumeration (schema : Schema) : Resolver where
  priority := enumerationPriority
  claims context :=
    match schema.kind context.unwrapped with
    | .enumeration _ => true
    | _ => false
  make context :=
    match schema.kind context.unwrapped with
    | .enumeration names => .ok (Codec.enumeration context.unwrapped names)
    | _ => .error (.noCodecFound context.unwrapped.name)

/-- The codec of a map. -/
def map (schema : Schema) : Resolver where
  priority := mapPriority
  claims context :=
    match schema.kind context.unwrapped with
    | .map _ _ => true
    | _ => false
  make context :=
    match schema.kind context.unwrapped with
    | .map key value => .ok (Codec.map context.unwrapped key value)
    | _ => .error (.noCodecFound context.unwrapped.name)

/-- The codec of a sequence. A streamable marker at the place takes precedence over
    the element type that the sequence declares; one of the two is needed. -/
def stream (schema : Schema) : Resolver where
  priority := streamPriority
  claims context :=
    match schema.kind context.unwrapped with
    | .sequence _ => true
    | _ => false
  make context :=
    match schema.kind context.unwrapped with
    | .sequence declared =>
        match context.streamableElement.or declared with
        | some element =>
            .ok (Codec.stream context.unwrapped element (schema.collect context.unwrapped))
        | none => .error (.missingElementType context.unwrapped.name)
    | _ => .error (.noCodecFound context.unwrapped.name)

/-- The leaves that have a resolver among the primitives. -/
def primitives : List Leaf :=
  [.i8, .u8, .i16, .i32, .i64, .f32, .f64, .bool, .char, .string]

/-- The leaves that have a resolver among the byte blobs. -/
def blobs : List Leaf := [.uuid, .bytes]

/-- The resolvers that every serializer starts with. -/
def builtin (schema : Schema) : List Resolver :=
  primitives.map (fun leaf => exact primitivePriority (.leaf leaf) (Codec.leaf leaf))
    ++ blobs.map (fun leaf => exact blobPriority (.leaf leaf) (Codec.leaf leaf))
    ++ [exact blobPriority (Ty.vector .u8) Codec.octetVector,
        enumeration schema, map schema, stream schema]

end Resolver

end Wireform
