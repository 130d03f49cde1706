import Wireform.Packet.Compression
import Wireform.Packet.Error
import Wireform.Packet.Name
import Wireform.Serializer
import Wireform.Text.Quoted

/-!
# Registries

A registry gives each packet type one identifier and each identifier one type. A
frame is the identifier as a short text followed by the encoded packet; reading
one finds the type by the identifier, decodes it and insists that nothing is left
over. Compressed frames are limited in size both before and after decompression.

Two tables are kept, one for each direction. Registering looks at both before it adds to
either, and it refuses an identifier that is taken before it looks at the type.
-/

namespace Wireform.Packet

/-- The limits on compressed frames. -/
structure Limits where
  compressionLevel : Int := 3
  maxCompressed : Nat := 1048576
  maxDecompressed : Nat := 16777216
deriving DecidableEq, Repr

/-- Packet types by identifier, with what is needed to encode and compress them. -/
structure Registry where
  serializer : Serializer
  limits : Limits := {}
  compressor : Compressor := Zstandard.compressor
  /-- The type that each identifier stands for, the latest first. -/
  types : List (String × Ty) := []
  /-- The identifier that each type goes by, the latest first. -/
  ids : List (Ty × String) := []

/-- A packet that was read, with the identifier it came under and the type that is
    registered for it. -/
structure Frame where
  id : String
  type : Ty
  value : Value

namespace Frame

/-- Whether the frame holds a packet of a type. -/
def is (frame : Frame) (type : Ty) : Bool := frame.type = type

/-- The packet, which must be of the type asked for. -/
def into (frame : Frame) (type : Ty) : Except Error Value :=
  match frame.value.expect type with
  | .ok value => .ok value
  | .error cause => .error (.codec cause)

/-- The frame as it is shown for inspection, with types left out. -/
def inspect (frame : Frame) : String :=
  "Frame \x7b id: " ++ Text.Quoted.quote frame.id ++ ", ty: TypeId(_), .. \x7d"

end Frame

/-- Work with packets. The serializer's memory is left behind on failure as well. -/
abbrev Op (α : Type) := EStateM Error Memory α

/-- Work that may change the registry itself, which is left behind on failure as well. -/
abbrev Revision (α : Type) := EStateM Error (Registry × Memory) α

namespace Registry

/-- The identifier that a type is registered under. -/
def idOf? (registry : Registry) (type : Ty) : Option String :=
  registry.ids.lookup type

/-- The type that is registered under an identifier. -/
def typeOf? (registry : Registry) (id : String) : Option Ty :=
  registry.types.lookup id

/-- Whether a type is registered under an identifier. -/
def contains (registry : Registry) (id : String) : Bool := (registry.typeOf? id).isSome

/-- How many types are registered. -/
def size (registry : Registry) : Nat := registry.types.length

/-- Whether no type is registered. -/
def isEmpty (registry : Registry) : Bool := registry.types.isEmpty

/-- Registers a type under an identifier. -/
def registerAs (type : Ty) (id : String) : Revision Unit := do
  if (← get).1.contains id then throw (.duplicateId id)
  if ((← get).1.idOf? type).isSome then throw (.duplicateType type.name)
  modify fun (registry, memory) =>
    (registry, { memory with events := .registeredPacket id type.name :: memory.events })
  modify fun (registry, memory) =>
    ({ registry with types := (id, type) :: registry.types }, memory)
  modify fun (registry, memory) =>
    ({ registry with ids := (type, id) :: registry.ids }, memory)

/-- The registry with a type that was registered under an identifier. -/
def register (registry : Registry) (type : Ty) (id : String) : Op Registry := fun memory =>
  match registerAs type id (registry, memory) with
  | .ok _ (next, after) => .ok next after
  | .error error (_, after) => .error error after

/-- The frame of a packet: its identifier and the packet itself. -/
def write (registry : Registry) (packet : Value) : Op Bytes := fun memory =>
  match registry.idOf? packet.type with
  | none => .error (.notRegistered packet.type.name) memory
  | some id =>
      match Buffer.writeShortString id registry.serializer.writer with
      | .error cause _ => .error (.codec cause) memory
      | .ok _ buffer =>
          match registry.serializer.encodeInto packet buffer memory with
          | .error cause state => .error (.codec cause) state.memory
          | .ok _ state =>
              match state.buffer.finish with
              | .ok bytes => .ok bytes state.memory
              | .error cause => .error (.codec cause) state.memory

/-- Reads a frame. All bytes must be used. -/
def read (registry : Registry) (bytes : Bytes) : Op Frame := fun memory =>
  match Buffer.readShortString (registry.serializer.reader bytes) with
  | .error cause _ => .error (.codec cause) memory
  | .ok id buffer =>
      match registry.typeOf? id with
      | none => .error (.unknownId id) memory
      | some type =>
          match registry.serializer.decodeType type buffer memory with
          | .error cause state => .error (.codec cause) state.memory
          | .ok value state =>
              match state.buffer.ensureConsumed with
              | .ok _ => .ok ⟨id, type, value⟩ state.memory
              | .error cause => .error (.codec cause) state.memory

/-- Reads a frame that must hold a packet of a type. -/
def readAs (registry : Registry) (type : Ty) (bytes : Bytes) : Op Value := do
  let frame ← registry.read bytes
  match frame.into type with
  | .ok value => return value
  | .error error => throw error

/-- Refuses a compressed frame that is larger than allowed. -/
def checkCompressed (registry : Registry) (size : Nat) : Except Error Unit :=
  if size > registry.limits.maxCompressed then
    .error (.oversized size registry.limits.maxCompressed)
  else .ok ()

/-- The compressed frame of a packet. -/
def writeCompressed (registry : Registry) (packet : Value) : Op Bytes := do
  let frame ← registry.write packet
  match registry.compressor.compress frame with
  | none => throw .compression
  | some compressed =>
      match registry.checkCompressed compressed.length with
      | .error error => throw error
      | .ok _ =>
          modify fun memory =>
            { memory with
              events := .compressedFrame frame.length compressed.length :: memory.events }
          return compressed

/-- Reads a compressed frame. Its size is checked before anything else. -/
def readCompressed (registry : Registry) (bytes : Bytes) : Op Frame := do
  match registry.checkCompressed bytes.length with
  | .error error => throw error
  | .ok _ =>
      match registry.compressor.decompress registry.limits.maxDecompressed bytes with
      | none => throw .compression
      | some frame => registry.read frame

end Registry

end Wireform.Packet
