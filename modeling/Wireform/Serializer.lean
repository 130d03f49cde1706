import Wireform.Event
import Wireform.Resolver
import Wireform.Transform

/-!
# Serializers

A serializer has a schema, limits, a chain of resolvers and a list of transforms,
none of which change. What changes while it works is its memory: the codecs that
it has resolved, kept by site, and the events that it has reported.

A walk encodes or decodes one value. It goes through a buffer, and it keeps the
stack of the aggregate types that it is inside of, so that a type that is met
again below itself is refused. `serve` answers the requests of codec programs; its
first argument bounds how deep requests may nest. A serializer says how deep that is for
a walk that starts at a given context; unless told otherwise it takes the depth
that walks over described types with built-in codecs stay within: each aggregate
type is entered at most once on the way down, and between two of them there are
only the layers of one type expression.
-/

namespace Wireform

/-- Codecs remembered by site. -/
abbrev Cache := List (Site × Codec)

/-- The codec remembered for a site. -/
def Cache.find? (cache : Cache) (site : Site) : Option Codec :=
  (List.find? (fun entry => entry.1 = site) cache).map Prod.snd

/-- What a serializer has learnt and reported, the newest event first. -/
structure Memory where
  cache : Cache := []
  events : List Event := []

/-- What a walk works on. -/
structure Walk.State where
  buffer : Buffer
  /-- The aggregate types being walked, innermost first. -/
  visited : List Ty := []
  memory : Memory := {}

/-- A step of a walk. -/
abbrev Walk (α : Type) := Step Walk.State α

namespace Walk

variable {α : Type}

/-- Runs a step inside an aggregate type. A type that is being walked already is
    refused; otherwise the stack is put back however the step ends. -/
def descend (type : Ty) (step : Walk α) : Walk α := fun state =>
  if state.visited.contains type then .error (.circularReference type.name) state
  else
    let event := Event.descending type.name state.visited.length
    let memory := { state.memory with events := event :: state.memory.events }
    match step { state with visited := type :: state.visited, memory := memory } with
    | .ok result after => .ok result { after with visited := after.visited.tail }
    | .error error after => .error error { after with visited := after.visited.tail }

end Walk

/-- Runs a program by answering its requests. -/
def Program.run {σ α : Type} (serve : (request : Request) → Step σ request.Answer) :
    Program α → Step σ α
  | .done result => fun state => .ok result state
  | .fail error => fun state => .error error state
  | .ask request next => fun state =>
      match serve request state with
      | .ok answer after => run serve (next (.ok answer)) after
      | .error error after => run serve (next (.error error)) after

/-- The size of the type expressions in markers. -/
def Marker.weight (markers : List Marker) : Nat :=
  markers.foldl
    (fun total marker =>
      match marker with
      | .streamable element => total + element.size
      | _ => total)
    0

/-- Sizes added up. -/
def totalSize (sizes : List Nat) : Nat := sizes.foldr (fun size total => size + total) 0

/-- A size that is added up is no larger than the total. -/
theorem le_totalSize {size : Nat} {sizes : List Nat} (listed : size ∈ sizes) :
    size ≤ totalSize sizes := by
  induction listed with
  | head rest => exact Nat.le_add_right _ _
  | tail other _ inductionHypothesis => exact Nat.le_trans inductionHypothesis (Nat.le_add_left _ _)

/-- The size of the type expressions in a description. -/
def Definition.weight : Definition → Nat
  | .leaf => 0
  | .enumeration _ => 0
  | .sequence item => item.size
  | .aggregate description =>
      totalSize (description.fields.map fun field => field.type.size + Marker.weight field.markers)
        + totalSize (description.constructors.map fun constructor =>
            totalSize (constructor.parameters.map fun parameter =>
              parameter.type.size + Marker.weight parameter.markers))
  | .custom _ => 0

/-- The size of all type expressions in a schema. -/
def Schema.weight (schema : Schema) : Nat :=
  totalSize (schema.entries.map fun entry => entry.definition.weight)

/-- How deep the requests of a walk that starts at a context may nest. -/
def Schema.depth (schema : Schema) (context : Context) : Nat :=
  (schema.entries.length + 1)
    * (schema.weight + context.declared.size + Marker.weight context.markers + 3)

/-- A chain of resolvers and a list of transforms over a schema. -/
structure Serializer where
  schema : Schema
  config : Config
  resolvers : List Resolver
  transforms : List Transform
  /-- How deep the requests of a walk that starts at a context may nest. -/
  nesting : Context → Nat

namespace Serializer

/-- The serializer with the built-in rules and the given ones on top. -/
def build (schema : Schema) (config : Config := {}) (resolvers : List Resolver := [])
    (transforms : List Transform := []) (nesting : Context → Nat := schema.depth) :
    Serializer where
  schema := schema
  config := config
  resolvers := Resolver.chain (Resolver.builtin schema ++ resolvers)
  transforms := Transform.nullable :: transforms
  nesting := nesting

/-- What a serializer remembers when it has just been built. -/
def start (serializer : Serializer) : Memory where
  events := [.builtSerializer serializer.resolvers.length serializer.transforms.length
    serializer.config.cacheCodecs]

/-- An empty buffer with the serializer's limits. -/
def writer (serializer : Serializer) : Buffer := Buffer.writer serializer.config

/-- A buffer over the given bytes with the serializer's limits. -/
def reader (serializer : Serializer) (bytes : Bytes) : Buffer :=
  Buffer.reader bytes serializer.config

/-- The codec for a context by the resolvers and transforms alone. -/
def resolve (serializer : Serializer) (context : Context) : Except Error (Option Codec) := do
  let found ← Resolver.resolve serializer.resolvers context
  return found.map (Transform.applyAll serializer.transforms context)

/-- The codec for a context before transforms. Custom types go their own way; what
    no resolver claims is taken apart if it is an aggregate or an option. -/
def baseCodec (serializer : Serializer) (context : Context) : Except Error Codec :=
  let type := context.unwrapped
  match serializer.schema.kind type with
  | .custom format => .ok (Codec.custom type format)
  | kind => do
      match ← Resolver.resolve serializer.resolvers context with
      | some codec => return codec
      | none =>
          match kind with
          | .aggregate description => return Codec.aggregate type description
          | .nullable _ => return Codec.innerOption type
          | _ => throw (.noCodecFound type.name)

/-- The codec for a context, resolved afresh. -/
def freshCodec (serializer : Serializer) (context : Context) : Except Error Codec :=
  Transform.applyAll serializer.transforms context <$> serializer.baseCodec context

/-- The codec for a context, remembered or resolved afresh. Only what was resolved
    successfully is remembered. -/
def codecFor (serializer : Serializer) (context : Context) : Walk Codec := fun state =>
  let site := if serializer.config.cacheCodecs then context.site else none
  match site.bind state.memory.cache.find? with
  | some codec => .ok codec state
  | none =>
      match serializer.freshCodec context with
      | .error error => .error error state
      | .ok codec =>
          let event := Event.resolvedCodec context.unwrapped.name site
          let cache := match site with
            | some site => (site, codec) :: state.memory.cache
            | none => state.memory.cache
          .ok codec { state with memory := ⟨cache, event :: state.memory.events⟩ }

section Aggregates

variable {σ : Type}

/-- Encodes the fields of an aggregate in order, each at its site. -/
def encodeFields (encode : Context → Step σ Unit) (owner : Ty) (value : Value) :
    (index : Nat) → List Field → Step σ Unit
  | _, [] => return ()
  | index, field :: rest => do
      Step.inField owner.name field.name do
        let child ← Step.lift (field.get owner value)
        encode (((Context.make field.type field.markers).withValue child).placedAt
          (.field owner index))
      encodeFields encode owner value (index + 1) rest

/-- Decodes the arguments of a constructor in order, each at its site. -/
def decodeArguments (decode : Context → Step σ Value) (owner : Ty) (constructor : Nat) :
    (position : Nat) → List Parameter → Step σ (List Value)
  | _, [] => return []
  | position, parameter :: rest => do
      let argument ← Step.inField owner.name parameter.name
        (decode ((Context.make parameter.type parameter.markers).placedAt
          (.parameter owner constructor position)))
      let others ← decodeArguments decode owner constructor (position + 1) rest
      return argument :: others

/-- Decodes the fields of an aggregate in order, each at its site, and assigns them
    one by one to the fields of a value. -/
def assignFields (decode : Context → Step σ Value) (owner : Ty) :
    (index : Nat) → List Field → Value → Step σ Value
  | _, [], value => return value
  | index, field :: rest, value => do
      let value ← Step.inField owner.name field.name do
        let decoded ← decode ((Context.make field.type field.markers).placedAt
          (.field owner index))
        Step.lift (field.set owner decoded value)
      assignFields decode owner (index + 1) rest value

/-- Rebuilds an aggregate by its strategy. -/
def rebuild (decode : Context → Step σ Value) (owner : Ty) (aggregate : Aggregate) :
    Step σ Value :=
  match aggregate.strategy with
  | .construct index constructor => do
      let arguments ← decodeArguments decode owner index 0 constructor.parameters
      Step.lift (constructor.build arguments)
  | .assign initial => assignFields decode owner 0 aggregate.fields initial
  | .unavailable => Step.fail (.noConstructorAvailable owner.name)

end Aggregates

/-- Answers a request, with requests nested at most `depth` deep below it. -/
def serve (serializer : Serializer) :
    (depth : Nat) → (request : Request) → Walk request.Answer
  | _, .look => fun state => .ok state.buffer state
  | _, .replace buffer => fun state => .ok () { state with buffer := buffer }
  | _, .path => fun state => .ok (state.visited.reverse.map Ty.name) state
  | 0, .encode _ => Step.fail .depthExceeded
  | 0, .decode _ => Step.fail .depthExceeded
  | 0, .encodeFields _ _ _ => Step.fail .depthExceeded
  | 0, .decodeFields _ _ => Step.fail .depthExceeded
  | 0, .encodeResolved _ _ => Step.fail .depthExceeded
  | 0, .decodeResolved _ => Step.fail .depthExceeded
  | depth + 1, .encode context =>
      match context.value with
      | none => Step.fail (.unexpectedNull context.declared.name)
      | some value => do
          let codec ← serializer.codecFor context
          let inner ← Step.lift (context.project value)
          (codec.encode inner).run (serializer.serve depth)
  | depth + 1, .decode context => do
      let codec ← serializer.codecFor context
      let inner ← codec.decode.run (serializer.serve depth)
      Step.lift (context.rewrap inner)
  | depth + 1, .encodeFields type aggregate value =>
      Walk.descend type
        (encodeFields (fun context => serializer.serve depth (.encode context)) type value 0
          aggregate.fields)
  | depth + 1, .decodeFields type aggregate =>
      Walk.descend type
        (rebuild (fun context => serializer.serve depth (.decode context)) type aggregate)
  | depth + 1, .encodeResolved context value => do
      match ← Step.lift (serializer.resolve context) with
      | none => return none
      | some codec => some <$> (codec.encode value).run (serializer.serve depth)
  | depth + 1, .decodeResolved context => do
      match ← Step.lift (serializer.resolve context) with
      | none => return none
      | some codec => some <$> codec.decode.run (serializer.serve depth)

/-- Answers a request in a walk of its own. -/
def walk (serializer : Serializer) (context : Context) (request : Request) (buffer : Buffer)
    (memory : Memory) : EStateM.Result Error Walk.State request.Answer :=
  serializer.serve (serializer.nesting context) request { buffer := buffer, memory := memory }

/-- Appends a value to a buffer. -/
def encodeInto (serializer : Serializer) (value : Value) (buffer : Buffer) (memory : Memory) :
    EStateM.Result Error Walk.State Unit :=
  let context := ((Context.of value.type).withValue value).placedAt (.root value.type)
  serializer.walk context (.encode context) buffer memory

/-- Decodes a value of a described type from a buffer. -/
def decodeType (serializer : Serializer) (type : Ty) (buffer : Buffer) (memory : Memory) :
    EStateM.Result Error Walk.State Value :=
  let context := (Context.of type).placedAt (.root type)
  serializer.walk context (.decode context) buffer memory

/-- Decodes a value of a type from a buffer and leaves what follows it. -/
def decodeFrom (serializer : Serializer) (type : Ty) (buffer : Buffer) (memory : Memory) :
    EStateM.Result Error Walk.State Value :=
  match serializer.decodeType type buffer memory with
  | .ok value state => Step.lift (value.expect type) state
  | .error error state => .error error state

/-- A serializer's work that uses no buffer of the caller's. -/
abbrev Op (α : Type) := EStateM Error Memory α

/-- Encodes the value of a context. -/
def encodeContext (serializer : Serializer) (context : Context) : Op Bytes := fun memory =>
  match serializer.walk context (.encode context) serializer.writer memory with
  | .error error state => .error error state.memory
  | .ok _ state =>
      match state.buffer.finish with
      | .ok bytes => .ok bytes state.memory
      | .error error => .error error state.memory

/-- Encodes a value. -/
def encode (serializer : Serializer) (value : Value) : Op Bytes :=
  serializer.encodeContext
    (((Context.of value.type).withValue value).placedAt (.root value.type))

/-- Decodes a value of a type from bytes, all of which must be used. -/
def decode (serializer : Serializer) (type : Ty) (bytes : Bytes) : Op Value := fun memory =>
  match serializer.decodeFrom type (serializer.reader bytes) memory with
  | .error error state => .error error state.memory
  | .ok value state =>
      match state.buffer.ensureConsumed with
      | .ok _ => .ok value state.memory
      | .error error => .error error state.memory

/-- Forgets every remembered codec. -/
def reset (memory : Memory) : Memory :=
  ⟨[], .resetCache :: memory.events⟩

/-- How many codecs are remembered. -/
def cached (memory : Memory) : Nat := memory.cache.length

end Serializer

end Wireform
