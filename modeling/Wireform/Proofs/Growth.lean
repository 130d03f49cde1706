import Wireform.Proofs.Recovery
import Wireform.Proofs.Renewal

/-!
# How far a serializer writes

Most of what a serializer does is its own, and known. Two things are not: a type that writes itself
does so by operations that it brings along, and an aggregate is built by constructors of its own.
A type is recoverable if these are as good as their word: what writes itself recovers what it
has written, and an aggregate retains what was read for its fields. Types that are described as a
derivation describes them are recoverable.

Before anything can be said of what is read back, it has to be known that writing is appending. That
takes less: types that write themselves have to leave alone what is in the buffer before them.
-/

namespace Wireform

open Buffer (Grows Recovers)

variable {schema : Schema} {config : Config} {domain : Ty → Value → Prop}

/-! ## Types that are recovered -/

/-- If the type writes itself, it does so behind what has been written. -/
def Schema.Growing (schema : Schema) (type : Ty) : Prop :=
  ∀ format, schema.kind type = .custom format → ∀ value, value.type = type →
    Grows (format.write value)

/-- A type that writes itself recovers the values in its domain. -/
structure Custom.Recoverable (config : Config) (domain : Ty → Value → Prop) (type : Ty)
    (format : Custom) : Prop where
  grows : ∀ value, value.type = type → Grows (format.write value)
  recovers : ∀ value, value.type = type → domain type value →
    Recovers config (format.write value) format.read (· = value)

/-- What the description of the type has a say in is recovered: the members of an enumeration have
    names of their own, a type that writes itself recovers its values, and an aggregate retains what
    is read for its fields. -/
structure Schema.Recoverable (schema : Schema) (config : Config) (domain : Ty → Value → Prop)
    (type : Ty) : Prop where
  distinct : ∀ names, schema.kind type = .enumeration names → names.Nodup
  formats : ∀ format, schema.kind type = .custom format → format.Recoverable config domain type
  retains : schema.Retains type

/-- What writes itself in a recoverable type grows. -/
theorem Schema.Recoverable.growing {type : Ty}
    (recoverable : schema.Recoverable config domain type) : schema.Growing type :=
  fun format described => (recoverable.formats format described).grows

/-- A type that is described as a derivation describes it is recoverable, whatever the limits. -/
theorem Schema.Derived.recoverable {type : Ty} (derived : schema.Derived type) :
    schema.Recoverable config domain type where
  distinct := derived.distinct
  formats format described := absurd described (derived.not_custom format)
  retains description described := by
    obtain ⟨entry, found, describes, rebuilds⟩ := derived.describes description described
    exact ⟨entry, found, describes.fields, rebuilds.retains⟩

namespace Serializer

/-! ## How far a place writes -/

section Growing

variable {depth : Nat} {visited : List Ty}

/-- The codec of a shape grows if what it asks for does. -/
theorem grows_codec (type : Ty) (marked : Option Ty) (shape : Shape)
    (shaped : schema.shape type marked = .ok shape)
    (growing : schema.Throughout schema.Growing type)
    (growingMarked : ∀ element, marked = some element → schema.Throughout schema.Growing element)
    (each : ∀ declared site value, schema.Throughout schema.Growing declared →
      Grows ((build schema config).answer depth visited
        (.encode (.ofPlace declared [] site (some value)))))
    (fields : ∀ description value, schema.kind type = .aggregate description →
      Grows ((build schema config).answer depth visited (.encodeFields type description value)))
    (value : Value) :
    Grows (((shape.codec schema type).encode (some value)).run
      ((build schema config).answer depth visited)) := by
  have fits := schema.fits_of_shape type marked shape shaped
  cases shape with
  | leaf kind =>
      simp only [Shape.codec, Codec.run_encode_leaf]
      exact Buffer.grows_lift_bind fun result _ =>
        (kind.emits_writeValue schema result none).appends.grows
  | octets =>
      simp only [Shape.codec, Codec.run_encode_octetVector]
      refine Buffer.grows_lift_bind fun result _ => ?_
      split
      · exact (Buffer.emits_writeBytes _).appends.grows
      · exact Buffer.grows_fail _
  | enumeration names =>
      simp only [Shape.codec, Codec.run_encode_enumeration]
      exact (Enumeration.emits_write schema type names fits value none).appends.grows
  | sequence element =>
      obtain ⟨_, declared, described, chosen⟩ := fits
      have growingElement := growing.chosen growingMarked described chosen
      simp only [Shape.codec, Codec.run_encode_stream]
      exact Buffer.grows_lift_bind fun items _ =>
        Buffer.grows_bind (Buffer.emits_writeLongLength _).appends.grows
          (Buffer.grows_forM items fun item _ => each element _ item growingElement)
  | map key part =>
      obtain ⟨kind, rfl⟩ := schema.kind_map type key part fits
      simp only [Shape.codec, Codec.run_encode_map]
      exact Buffer.grows_lift_bind fun entries _ =>
        Buffer.grows_bind (Buffer.emits_writeLength _).appends.grows
          (Buffer.grows_forM entries fun entry _ =>
            Buffer.grows_bind (each key _ entry.1 (growing.part (.key kind key part)))
              (each part _ entry.2 (growing.part (.value kind key part))))
  | nested =>
      simp only [Shape.codec, Codec.run_encode_innerOption]
      exact each type _ value growing
  | aggregate description =>
      simp only [Shape.codec, Codec.run_encode_aggregate]
      exact fields description value fits
  | custom format =>
      simp only [Shape.codec, Codec.custom, Codec.presentOnly, run_buffer_answer, Custom.writeValue]
      split
      · next own => exact growing.self format fits value own
      · exact Buffer.grows_fail _

/-- A codec with a flag grows if the codec does. -/
theorem grows_flagged (flag : Bool) (codec : Codec) (inner : Option Value)
    (below : ∀ core, inner = some core →
      Grows ((codec.encode (some core)).run ((build schema config).answer depth visited)))
    (absent : inner = none → flag = true) :
    Grows (((codec.flagged flag).encode inner).run
      ((build schema config).answer depth visited)) := by
  cases flag with
  | false =>
      cases inner with
      | none => cases absent rfl
      | some core => exact below core rfl
  | true =>
      rw [Codec.run_encode_flagged]
      refine Buffer.grows_bind (Buffer.emits_writeBool _).appends.grows ?_
      cases inner with
      | none => exact Buffer.emits_pure.appends.grows
      | some core => exact below core rfl

/-- Encoding fields grows if encoding at their places does. -/
theorem grows_encodeFields {encode : Context → Buffer.Op Unit} (owner : Ty) (value : Value)
    (index : Nat) (fields : List Field)
    (each : ∀ field ∈ fields, ∀ site member,
      Grows (encode (.ofPlace field.type field.markers site (some member)))) :
    Grows (encodeFields encode owner value index fields) := by
  induction fields generalizing index with
  | nil => exact Buffer.emits_pure.appends.grows
  | cons field rest inductionHypothesis =>
      obtain ⟨first, others⟩ := List.forall_mem_cons.mp each
      refine Buffer.grows_bind (Buffer.grows_inField _ _ ?_)
        (inductionHypothesis (index + 1) others)
      exact Buffer.grows_lift_bind fun child _ => first _ child

end Growing

/-- A place strips an option if there can be nothing below its layers. -/
theorem stripsOption_of_project (declared : Ty) (value : Value)
    (projected : Context.projectThrough declared.layers value = .ok none) :
    declared.stripsOption = true := by
  obtain ⟨-, strips, -⟩ | ⟨core, impossible, -⟩ :=
    Value.layout_project ⟨[]⟩ declared none value none projected
  · exact strips
  · cases impossible

/-- Every place grows, and so do the fields of aggregates, if types that write themselves do. The
    induction is on how deep requests may nest, for both together. -/
theorem grows_answer (depth : Nat) :
    (∀ visited declared markers site value, schema.Throughout schema.Growing declared →
      (∀ element, Marker.element? markers = some element →
        schema.Throughout schema.Growing element) →
      Grows ((build schema config).answer depth visited
        (.encode (.ofPlace declared markers site (some value))))) ∧
    ∀ visited type description value, schema.kind type = .aggregate description →
      schema.Throughout schema.Growing type →
      Grows ((build schema config).answer depth visited
        (.encodeFields type description value)) := by
  induction depth with
  | zero =>
      exact ⟨fun _ _ _ _ _ _ _ => Buffer.grows_fail _, fun _ _ _ _ _ _ => Buffer.grows_fail _⟩
  | succ depth inductionHypothesis =>
      obtain ⟨places, aggregates⟩ := inductionHypothesis
      constructor
      · intro visited declared markers site value growing growingMarked
        rw [answer_encode_place]
        refine Buffer.grows_lift_bind fun shape shaped =>
          Buffer.grows_lift_bind fun inner projected => ?_
        refine grows_flagged _ _ inner (fun core _ => ?_) fun absent => ?_
        · exact grows_codec declared.unwrapped _ shape shaped growing.unwrapped growingMarked
            (fun other site item otherGrowing => places visited other [] site item otherGrowing
              fun _ named => by cases named)
            (fun description item described =>
              aggregates visited _ description item described growing.unwrapped) core
        · subst absent
          rw [stripsOption_of_project declared value projected, Bool.true_or]
      · intro visited type description value described growing
        simp only [answer]
        split
        · exact Buffer.grows_fail _
        · refine grows_encodeFields type value 0 description.fields
            fun field listed site member => ?_
          refine places (type :: visited) field.type field.markers site member
            (growing.part (.field type description described field listed)) fun element named => ?_
          exact growing.part (.marked type description described field listed element
            (Marker.streamable_of_element? _ _ named))

/-- What is appended for a value grows if what writes itself in its type does. -/
theorem grows_appending (value : Value)
    (growing : schema.Throughout schema.Growing value.type) :
    Grows ((build schema config).appending value) :=
  (grows_answer ((build schema config).nesting (root value.type (some value)))).1 [] value.type []
    (.root value.type) value growing fun _ named => by cases named

end Serializer

end Wireform
