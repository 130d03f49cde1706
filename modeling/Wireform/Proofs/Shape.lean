import Wireform.Proofs.Answer
import Wireform.Proofs.Parts

/-!
# What built-in rules come to

Without rules of a user's, the codec of a context depends on the unwrapped type and
the element type that its markers give, and on nothing else. `Schema.shape` says
which one it is without priorities and without a chain; a presence flag goes around
it exactly where the context is nullable. What each of these codecs does is then
stated as an operation on the buffer, with the requests that it makes answered.
-/

namespace Wireform

variable {α β : Type}

/-- The built-in codecs, by what they need to be told beside the type. -/
inductive Shape
  | leaf (leaf : Leaf)
  | octets
  | enumeration (names : List String)
  | sequence (element : Ty)
  | map (key value : Ty)
  /-- An option below the one that its place has stripped. -/
  | nested
  | aggregate (description : Aggregate)
  | custom (format : Custom)

/-- The codec of a shape for a type. -/
def Shape.codec (schema : Schema) (type : Ty) : Shape → Codec
  | .leaf plain => Codec.leaf plain
  | .octets => Codec.octetVector
  | .enumeration names => Codec.enumeration type names
  | .sequence element => Codec.stream type element (schema.collect type)
  | .map key value => Codec.map type key value
  | .nested => Codec.innerOption type
  | .aggregate description => Codec.aggregate type description
  | .custom format => Codec.custom type format

/-- The codec with a presence flag, or without. -/
def Codec.flagged (flag : Bool) (codec : Codec) : Codec :=
  if flag then Codec.nullable codec else codec

/-- The leaves that have a built-in codec. -/
def Leaf.supported : List Leaf := Resolver.primitives ++ Resolver.blobs

namespace Schema

/-- The shape of a type by its kind. An element type that markers give goes before
    the declared one. -/
def shapeOfKind (schema : Schema) (type : Ty) (marked : Option Ty) : Except Error Shape :=
  match schema.kind type with
  | .enumeration names => .ok (.enumeration names)
  | .sequence declared =>
      match marked.or declared with
      | some element => .ok (.sequence element)
      | none => .error (.missingElementType type.name)
  | .map key value => .ok (.map key value)
  | .nullable _ => .ok .nested
  | .aggregate description => .ok (.aggregate description)
  | .custom format => .ok (.custom format)
  | .leaf => .error (.noCodecFound type.name)
  | .pointer _ => .error (.noCodecFound type.name)

/-- The shape of an unwrapped type at a place whose markers may give an element type. -/
def shape (schema : Schema) (type : Ty) (marked : Option Ty) : Except Error Shape :=
  match type with
  | .leaf leaf =>
      if leaf ∈ Leaf.supported then .ok (.leaf leaf) else .error (.noCodecFound leaf.name)
  | type => if type = Ty.vector .u8 then .ok .octets else schema.shapeOfKind type marked

/-- A described type is no option, no map and no sequence that declares its elements. -/
theorem namedKind_cases (schema : Schema) (type : Ty) :
    (∀ inner, schema.namedKind type ≠ .nullable inner) ∧
      (∀ inner, schema.namedKind type ≠ .pointer inner) ∧
      (∀ key value, schema.namedKind type ≠ .map key value) ∧
      ∀ element, schema.namedKind type ≠ .sequence (some element) := by
  unfold namedKind
  split
  · simp
  · split <;> simp

/-- Only options are nullable. -/
theorem kind_nullable (schema : Schema) (type inner : Ty)
    (described : schema.kind type = .nullable inner) : type = .option inner := by
  cases type with
  | option other => cases described; rfl
  | named name => exact absurd described ((schema.namedKind_cases _).1 _)
  | applied generic argument => exact absurd described ((schema.namedKind_cases _).1 _)
  | _ => cases described

/-- Only boxes are pointers. -/
theorem kind_pointer (schema : Schema) (type inner : Ty)
    (described : schema.kind type = .pointer inner) : type = .boxed inner := by
  cases type with
  | boxed other => cases described; rfl
  | named name => exact absurd described ((schema.namedKind_cases _).2.1 _)
  | applied generic argument => exact absurd described ((schema.namedKind_cases _).2.1 _)
  | _ => cases described

/-- Only maps have keys. -/
theorem kind_map (schema : Schema) (type key value : Ty)
    (described : schema.kind type = .map key value) : ∃ kind, type = .map kind key value := by
  cases type with
  | map kind first second => cases described; exact ⟨kind, rfl⟩
  | named name => exact absurd described ((schema.namedKind_cases _).2.2.1 _ _)
  | applied generic argument => exact absurd described ((schema.namedKind_cases _).2.2.1 _ _)
  | _ => cases described

/-- Only built-in collections declare the type of their elements. -/
theorem kind_sequence (schema : Schema) (type element : Ty)
    (described : schema.kind type = .sequence (some element)) :
    ∃ kind, type = .sequence kind element := by
  cases type with
  | sequence kind other => cases described; exact ⟨kind, rfl⟩
  | named name => exact absurd described ((schema.namedKind_cases _).2.2.2 _)
  | applied generic argument => exact absurd described ((schema.namedKind_cases _).2.2.2 _)
  | _ => cases described

/-- What holds throughout a sequence type, and throughout an element type that markers name, holds
    throughout the type that is chosen for the elements. -/
theorem Throughout.chosen {schema : Schema} {holds : Ty → Prop} {type element : Ty}
    {marked declared : Option Ty} (throughout : schema.Throughout holds type)
    (named : ∀ other, marked = some other → schema.Throughout holds other)
    (described : schema.kind type = .sequence declared)
    (chosen : marked.or declared = some element) : schema.Throughout holds element := by
  cases marked with
  | some other =>
      cases chosen
      exact named element rfl
  | none =>
      cases chosen
      obtain ⟨kind, rfl⟩ := schema.kind_sequence type element described
      exact throughout.part (.element kind element)

end Schema

/-- The context that the engine makes for a place. -/
def Context.ofPlace (declared : Ty) (markers : List Marker) (site : Site)
    (value : Option Value) : Context :=
  { make declared markers with value := value, site := some site }

/-- What a type has to be to have a shape at a place. -/
def Shape.Fits (schema : Schema) (type : Ty) (marked : Option Ty) : Shape → Prop
  | .leaf plain => type = .leaf plain ∧ plain ∈ Leaf.supported
  | .octets => type = Ty.vector .u8
  | .enumeration names => schema.kind type = .enumeration names
  | .sequence element => type ≠ Ty.vector .u8 ∧
      ∃ declared, schema.kind type = .sequence declared ∧ marked.or declared = some element
  | .map key value => schema.kind type = .map key value
  | .nested => ∃ inner, type = .option inner
  | .aggregate description => schema.kind type = .aggregate description
  | .custom format => schema.kind type = .custom format

/-- A type has only the shape that it fits. -/
theorem Schema.fits_of_shape (schema : Schema) (type : Ty) (marked : Option Ty) (shape : Shape)
    (shaped : schema.shape type marked = .ok shape) : shape.Fits schema type marked := by
  unfold Schema.shape at shaped
  split at shaped
  · next plain =>
      split at shaped
      · next supported => cases shaped; exact ⟨rfl, supported⟩
      · cases shaped
  · split at shaped
    · next octets => cases shaped; exact octets
    · next other =>
        unfold shapeOfKind at shaped
        split at shaped
        · next names described => cases shaped; exact described
        · next declared described =>
            split at shaped
            · next element chosen => cases shaped; exact ⟨other, declared, described, chosen⟩
            · cases shaped
        · next key value described => cases shaped; exact described
        · next inner described =>
            cases shaped
            exact ⟨inner, schema.kind_nullable _ inner described⟩
        · next description described => cases shaped; exact described
        · next format described => cases shaped; exact described
        · cases shaped
        · cases shaped

namespace Serializer

variable (schema : Schema) (config : Config)

/-- The built-in resolvers are in order as they are listed. -/
theorem chain_builtin : Resolver.chain (Resolver.builtin schema) = Resolver.builtin schema := rfl

/-- Resolvers for leaves claim the leaves that they are for. -/
theorem find?_leaves (priority : Int) (leaves : List Leaf) (context : Context) (plain : Leaf)
    (unwrapped : context.unwrapped = .leaf plain) :
    (leaves.map fun leaf => Resolver.exact priority (.leaf leaf) (Codec.leaf leaf)).find?
        (fun resolver => resolver.claims context)
      = if plain ∈ leaves then some (Resolver.exact priority (.leaf plain) (Codec.leaf plain))
        else none := by
  induction leaves with
  | nil => rfl
  | cons head rest inductionHypothesis =>
      by_cases same : plain = head
      · subst same
        simp [Resolver.exact, unwrapped]
      · simp only [List.map_cons, List.find?_cons, List.mem_cons, same, false_or,
          inductionHypothesis]
        simp [Resolver.exact, unwrapped, same]

/-- The built-in resolvers that are not for leaves. -/
def composites : List Resolver :=
  [Resolver.exact Resolver.blobPriority (Ty.vector .u8) Codec.octetVector,
    Resolver.enumeration schema, Resolver.map schema, Resolver.stream schema]

/-- The built-in resolvers make the codecs of supported leaves. -/
theorem resolve_leaf (context : Context) (plain : Leaf)
    (unwrapped : context.unwrapped = .leaf plain) :
    Resolver.resolve (Resolver.builtin schema) context
      = .ok (if plain ∈ Leaf.supported then some (Codec.leaf plain) else none) := by
  have others : (composites schema).find? (fun resolver => resolver.claims context) = none := by
    simp [composites, Resolver.exact, Resolver.enumeration, Resolver.map, Resolver.stream,
      unwrapped, Schema.kind, Ty.vector]
  have listed : Resolver.builtin schema
      = Resolver.primitives.map (fun leaf =>
          Resolver.exact Resolver.primitivePriority (.leaf leaf) (Codec.leaf leaf))
        ++ Resolver.blobs.map (fun leaf =>
          Resolver.exact Resolver.blobPriority (.leaf leaf) (Codec.leaf leaf))
        ++ composites schema := rfl
  unfold Resolver.resolve
  rw [listed, List.find?_append, List.find?_append, others,
    find?_leaves _ _ context plain unwrapped, find?_leaves _ _ context plain unwrapped]
  by_cases primitive : plain ∈ Resolver.primitives
  · have supported : plain ∈ Leaf.supported := List.mem_append_left _ primitive
    rw [if_pos primitive, if_pos supported]
    rfl
  · rw [if_neg primitive]
    by_cases blob : plain ∈ Resolver.blobs
    · have supported : plain ∈ Leaf.supported := List.mem_append_right _ blob
      rw [if_pos blob, if_pos supported]
      rfl
    · have unsupported : plain ∉ Leaf.supported := by
        intro supported
        exact (List.mem_append.mp supported).elim primitive blob
      rw [if_neg blob, if_neg unsupported]
      rfl

/-- Only the resolvers that are not for leaves have a say on other types. -/
theorem resolve_composite (context : Context)
    (composite : ∀ plain, context.unwrapped ≠ .leaf plain) :
    Resolver.resolve (Resolver.builtin schema) context
      = Resolver.resolve (composites schema) context := by
  simp only [Resolver.resolve, Resolver.builtin, Resolver.primitives, Resolver.blobs, List.map_cons,
    List.map_nil, List.cons_append, List.nil_append, List.find?_cons, Resolver.exact, composite,
    decide_false, composites]

/-- The codec before transforms is that of the shape. -/
theorem baseCodec_build (context : Context) :
    (build schema config).baseCodec context
      = Shape.codec schema context.unwrapped
          <$> schema.shape context.unwrapped context.streamableElement := by
  have chained : (build schema config).resolvers = Resolver.builtin schema := chain_builtin schema
  have described : (build schema config).schema = schema := rfl
  unfold baseCodec
  rw [chained, described]
  by_cases plainly : ∃ plain, context.unwrapped = .leaf plain
  · obtain ⟨plain, unwrapped⟩ := plainly
    rw [resolve_leaf schema context plain unwrapped, unwrapped]
    by_cases supported : plain ∈ Leaf.supported
    · simp [supported, Schema.shape, Schema.kind]
      rfl
    · simp [supported, Schema.shape, Schema.kind]
      rfl
  · have composite : ∀ plain, context.unwrapped ≠ .leaf plain := fun plain same =>
      plainly ⟨plain, same⟩
    have shaped : schema.shape context.unwrapped context.streamableElement
        = if context.unwrapped = Ty.vector .u8 then .ok .octets
          else schema.shapeOfKind context.unwrapped context.streamableElement := by
      unfold Schema.shape
      split
      · next plain unwrapped => exact absurd unwrapped (composite plain)
      · rfl
    rw [resolve_composite schema context composite, shaped]
    by_cases octets : context.unwrapped = Ty.vector .u8
    · simp [composites, Resolver.resolve, Resolver.exact, octets]
      rfl
    · simp only [if_neg octets, Schema.shapeOfKind]
      cases kind : schema.kind context.unwrapped with
      | sequence declared =>
          cases element : context.streamableElement.or declared
          all_goals simp [composites, Resolver.resolve, Resolver.exact, Resolver.enumeration,
            Resolver.map, Resolver.stream, octets, kind, element]
          all_goals rfl
      | _ =>
          simp [composites, Resolver.resolve, Resolver.exact, Resolver.enumeration, Resolver.map,
            Resolver.stream, octets, kind]
          all_goals rfl

/-- The codec of a context is that of the shape, with a flag if the context is nullable. -/
theorem freshCodec_build (context : Context) :
    (build schema config).freshCodec context
      = (fun shape : Shape => (shape.codec schema context.unwrapped).flagged context.isNullable)
          <$> schema.shape context.unwrapped context.streamableElement := by
  unfold freshCodec
  rw [baseCodec_build]
  cases schema.shape context.unwrapped context.streamableElement <;> rfl

end Serializer

/-! ## Answers to codecs -/

namespace Program

variable (answer : (request : Request) → Buffer.Op request.Answer)

/-- A context to encode is answered as a request. -/
@[simp] theorem run_encode (context : Context) :
    (encode context).run answer = answer (.encode context) :=
  run_perform answer (.encode context)

/-- A context to decode is answered as a request. -/
@[simp] theorem run_decode (context : Context) :
    (decode context).run answer = (answer (.decode context) : Buffer.Op Value) :=
  run_perform answer (.decode context)

/-- Elements are encoded one after another. -/
theorem run_encodeEach (context : Context) (items : List Value) :
    (encodeEach context items).run answer
      = items.forM (fun item => answer (.encode (context.withValue item))) := by
  induction items with
  | nil => rfl
  | cons item rest inductionHypothesis =>
      simp only [encodeEach, run_bind, run_encode, inductionHypothesis]
      rfl

/-- Elements are decoded one after another. -/
theorem run_decodeEach (context : Context) (count : Nat) (collected : List Value) :
    (decodeEach context count collected).run answer
      = Buffer.repeated (answer (.decode context)) count collected := by
  induction count generalizing collected with
  | zero => rfl
  | succ count inductionHypothesis =>
      simp only [decodeEach, run_bind, run_decode, Buffer.repeated, inductionHypothesis]

/-- Entries are encoded one after another. -/
theorem run_encodeEntries (key value : Context) (entries : List (Value × Value)) :
    (encodeEntries key value entries).run answer
      = entries.forM (fun entry => do
          answer (.encode (key.withValue entry.1))
          answer (.encode (value.withValue entry.2))) := by
  induction entries with
  | nil => rfl
  | cons entry rest inductionHypothesis =>
      simp only [encodeEntries, run_bind, run_encode, inductionHypothesis]
      exact (LawfulMonad.bind_assoc _ _ _).symm

/-- A key and the value that follows it. -/
def decodeEntry (key value : Context) : Buffer.Op (Value × Value) := do
  let first : Value ← answer (.decode key)
  let second : Value ← answer (.decode value)
  return (first, second)

/-- Entries are decoded one after another. -/
theorem run_decodeEntries (key value : Context) (count : Nat) (collected : List (Value × Value)) :
    (decodeEntries key value count collected).run answer
      = Buffer.repeated (decodeEntry answer key value) count collected := by
  induction count generalizing collected with
  | zero => rfl
  | succ count inductionHypothesis =>
      simp only [decodeEntries, run_bind, run_decode, Buffer.repeated, inductionHypothesis,
        decodeEntry, LawfulMonad.bind_assoc, LawfulMonad.pure_bind]

end Program

namespace Codec

variable (serializer : Serializer) (depth : Nat) (visited : List Ty)

/-- A leaf is checked and written. -/
theorem run_encode_leaf (kind : Leaf) (value : Value) :
    ((leaf kind).encode (some value)).run (serializer.answer depth visited)
      = (do
          let value ← Step.lift (value.expect (.leaf kind))
          kind.writeValue value) := by
  simp only [leaf, typed, presentOnly, Program.run_bind, Program.run_lift,
    Serializer.run_buffer_answer]

/-- A leaf is read. -/
theorem run_decode_leaf (kind : Leaf) :
    (leaf kind).decode.run (serializer.answer depth visited) = some <$> kind.readValue := by
  simp only [leaf, typed, Program.run_map, Serializer.run_buffer_answer]

/-- Octets are checked and written like a byte string. -/
theorem run_encode_octetVector (value : Value) :
    (octetVector.encode (some value)).run (serializer.answer depth visited)
      = (do
          let value ← Step.lift (value.expect (Ty.vector .u8))
          match (value.items (Ty.vector .u8)).toOption.bind octets? with
          | some octets => Buffer.writeBytes octets
          | none => Buffer.fail (.typeMismatch (Ty.vector .u8).name)) := by
  refine (Program.run_bind _ _ _).trans ?_
  rw [Program.run_lift]
  exact congrArg (Step.lift (value.expect (Ty.vector .u8)) >>= ·)
    (funext fun _ => serializer.run_buffer_answer depth visited _)

/-- Octets are read like a byte string. -/
theorem run_decode_octetVector :
    octetVector.decode.run (serializer.answer depth visited)
      = some <$> (do
          let octets ← Buffer.readBytes
          return .sequence (Ty.vector .u8) (octets.map Value.u8)) := by
  simp only [octetVector, typed, Program.run_map, Serializer.run_buffer_answer]

/-- A member is written by its name. -/
theorem run_encode_enumeration (type : Ty) (names : List String) (value : Value) :
    ((enumeration type names).encode (some value)).run (serializer.answer depth visited)
      = Enumeration.write type names value := by
  simp only [enumeration, presentOnly, Serializer.run_buffer_answer]

/-- A member is read by its name. -/
theorem run_decode_enumeration (type : Ty) (names : List String) :
    (enumeration type names).decode.run (serializer.answer depth visited)
      = some <$> Enumeration.read type names := by
  simp only [enumeration, Program.run_map, Serializer.run_buffer_answer]

/-- The place of the elements of a sequence. -/
def elementPlace (element : Ty) : Context := (Context.of element).placedAt (.element element)

/-- A sequence is written as its number of elements and the elements. -/
theorem run_encode_stream (type element : Ty) (collect : List Value → Except Error Value)
    (value : Value) :
    ((stream type element collect).encode (some value)).run (serializer.answer depth visited)
      = (do
          let items ← Step.lift (value.items type)
          Buffer.writeLongLength items.length
          items.forM fun item =>
            serializer.answer depth visited (.encode ((elementPlace element).withValue item))) := by
  simp only [stream, presentOnly, Program.run_bind, Program.run_lift,
    Serializer.run_buffer_answer, Program.run_encodeEach, elementPlace]

/-- A sequence is read as its number of elements and the elements. -/
theorem run_decode_stream (type element : Ty) (collect : List Value → Except Error Value) :
    (stream type element collect).decode.run (serializer.answer depth visited)
      = (do
          let count ← Buffer.limits >>= fun limits => Buffer.readLongLength limits.collectionLengths
          let items ← Buffer.repeated
            (serializer.answer depth visited (.decode (elementPlace element))) count []
          some <$> Step.lift (collect items)) := by
  simp only [stream, Program.run_bind, Program.run_map, Program.run_lift,
    Serializer.run_buffer_answer, Program.run_decodeEach, elementPlace]

/-- The places of the keys and the values of a map. -/
def keyPlace (key : Ty) : Context := (Context.of key).placedAt (.key key)
def valuePlace (value : Ty) : Context := (Context.of value).placedAt (.value value)

/-- A map is written as its number of entries and the entries. -/
theorem run_encode_map (type key value : Ty) (whole : Value) :
    ((map type key value).encode (some whole)).run (serializer.answer depth visited)
      = (do
          let entries ← Step.lift (whole.entries type)
          Buffer.writeLength entries.length
          entries.forM fun entry => do
            serializer.answer depth visited (.encode ((keyPlace key).withValue entry.1))
            serializer.answer depth visited (.encode ((valuePlace value).withValue entry.2))) := by
  simp only [map, presentOnly, Program.run_bind, Program.run_lift,
    Serializer.run_buffer_answer, Program.run_encodeEntries, keyPlace, valuePlace]

/-- A map is read as its number of entries and the entries. -/
theorem run_decode_map (type key value : Ty) :
    (map type key value).decode.run (serializer.answer depth visited)
      = (do
          let count ← Buffer.limits >>= fun limits => Buffer.readLength limits.collectionLengths
          let entries ← Buffer.repeated
            (Program.decodeEntry (serializer.answer depth visited) (keyPlace key)
              (valuePlace value)) count []
          some <$> Step.lift (Schema.collectEntries type entries)) := by
  simp only [map, Program.run_bind, Program.run_map, Program.run_lift,
    Serializer.run_buffer_answer, Program.run_decodeEntries, keyPlace, valuePlace]

/-- The place of an option below the one that its place has stripped. -/
def innerPlace (type : Ty) : Context := (Context.of type).placedAt (.inner type)

/-- A nested option is written as what is at its own place. -/
theorem run_encode_innerOption (type : Ty) (value : Value) :
    ((innerOption type).encode (some value)).run (serializer.answer depth visited)
      = serializer.answer depth visited (.encode ((innerPlace type).withValue value)) := by
  simp only [innerOption, presentOnly, Program.run_encode, innerPlace]

/-- A nested option is read as what is at its own place. -/
theorem run_decode_innerOption (type : Ty) :
    (innerOption type).decode.run (serializer.answer depth visited)
      = some <$> (serializer.answer depth visited (.decode (innerPlace type)) : Buffer.Op Value) := by
  simp only [innerOption, Program.run_map, Program.run_decode, innerPlace]

/-- An aggregate is written as its fields. -/
theorem run_encode_aggregate (type : Ty) (description : Aggregate) (value : Value) :
    ((aggregate type description).encode (some value)).run (serializer.answer depth visited)
      = serializer.answer depth visited (.encodeFields type description value) :=
  Program.run_perform _ _

/-- An aggregate is read as its fields. -/
theorem run_decode_aggregate (type : Ty) (description : Aggregate) :
    (aggregate type description).decode.run (serializer.answer depth visited)
      = some <$> (serializer.answer depth visited (.decodeFields type description)
          : Buffer.Op Value) := by
  simp only [aggregate, Program.run_map]
  exact congrArg (some <$> ·) (Program.run_perform _ _)

/-- A flagged codec writes a flag and then what is present. -/
theorem run_encode_flagged (codec : Codec) (value : Option Value) :
    ((codec.flagged true).encode value).run (serializer.answer depth visited)
      = (do
          Buffer.writeBool value.isSome
          match value with
          | some value => (codec.encode (some value)).run (serializer.answer depth visited)
          | none => return ()) := by
  simp only [flagged, nullable, if_true, Program.run_bind, Serializer.run_buffer_answer]
  cases value <;> rfl

/-- A flagged codec reads a flag and then what is present. -/
theorem run_decode_flagged (codec : Codec) :
    (codec.flagged true).decode.run (serializer.answer depth visited)
      = (do
          if ← Buffer.readBool then codec.decode.run (serializer.answer depth visited)
          else return none) := by
  simp only [flagged, nullable, if_true, Program.run_bind, Serializer.run_buffer_answer]
  congr
  funext present
  cases present <;> rfl

end Codec

namespace Serializer

variable (schema : Schema) (config : Config) (depth : Nat) (visited : List Ty)

/-- Encoding a context with a value, without rules of a user's. -/
theorem answer_encode (context : Context) (value : Value) (holds : context.value = some value) :
    (build schema config).answer (depth + 1) visited (.encode context)
      = (do
          let shape ← Step.lift
            (schema.shape context.unwrapped context.streamableElement)
          let inner ← Step.lift (context.project value)
          (((shape.codec schema context.unwrapped).flagged context.isNullable).encode inner).run
            ((build schema config).answer depth visited)) := by
  simp only [answer, holds, freshCodec_build]
  cases schema.shape context.unwrapped context.streamableElement <;> rfl

/-- Decoding a context, without rules of a user's. -/
theorem answer_decode (context : Context) :
    (build schema config).answer (depth + 1) visited (.decode context)
      = (do
          let shape ← Step.lift
            (schema.shape context.unwrapped context.streamableElement)
          let inner ← ((shape.codec schema context.unwrapped).flagged context.isNullable).decode.run
            ((build schema config).answer depth visited)
          Step.lift (context.rewrap inner)) := by
  simp only [answer, freshCodec_build]
  cases schema.shape context.unwrapped context.streamableElement <;> rfl

/-- Encoding a value at a place. -/
theorem answer_encode_place (declared : Ty) (markers : List Marker) (site : Site) (value : Value) :
    (build schema config).answer (depth + 1) visited
        (.encode (.ofPlace declared markers site (some value)))
      = (do
          let shape ← Step.lift (schema.shape declared.unwrapped (Marker.element? markers))
          let inner ← Step.lift (Context.projectThrough declared.layers value)
          (((shape.codec schema declared.unwrapped).flagged
            (declared.stripsOption || markers.contains .nullable)).encode inner).run
              ((build schema config).answer depth visited)) := by
  rw [answer_encode schema config depth visited _ value rfl, ← Context.isNullable_make,
    ← Context.streamableElement_make declared]
  rfl

/-- Decoding at a place. -/
theorem answer_decode_place (declared : Ty) (markers : List Marker) (site : Site) :
    (build schema config).answer (depth + 1) visited
        (.decode (.ofPlace declared markers site none))
      = (do
          let shape ← Step.lift (schema.shape declared.unwrapped (Marker.element? markers))
          let inner ← ((shape.codec schema declared.unwrapped).flagged
            (declared.stripsOption || markers.contains .nullable)).decode.run
              ((build schema config).answer depth visited)
          Step.lift ((Context.of declared).rewrap inner)) := by
  rw [answer_decode schema config depth visited, ← Context.isNullable_make,
    ← Context.streamableElement_make declared]
  rfl

end Serializer

end Wireform
