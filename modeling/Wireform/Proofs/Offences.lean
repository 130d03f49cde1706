import Wireform.Proofs.Nesting
import Wireform.Proofs.Proper
import Wireform.Proofs.RoundTrip

/-!
# Encodings end at the first offence

An operation performs a course if, on every writer, it appends the stretches before the first
offence and nothing else, and fails for that offence or, where there is none, succeeds. The
rules follow the constructions that codecs and the engine are made of. Each leaf is written
whole or not at all, while counts and flags go out before what they announce; so the rules for
leaves have all the bytes or none, and the rule for successions does the rest.

The induction is on how deep requests may nest, with room enough for the place at hand, so that
no walk ends for want of depth. It follows that a proper value without offences is encoded,
and that any other one fails for the first offence of its course.
-/

namespace Wireform

variable {α : Type}

namespace Buffer

/-- On every writer the operation appends what is before the first offence of the course, and
    it ends as the course does, whatever fields a failure is reported in. -/
def Performs (operation : Op Unit) (course : Course) : Prop :=
  ∃ outcome : Except Error Unit, outcome.mapError Error.rootCause = course.ending ∧
    ∀ reversed config, operation ⟨.written reversed, config⟩
      = Step.lift outcome ⟨.written ((Piece.wire course.front).reverse ++ reversed), config⟩

/-- Nothing is done where nothing is met. -/
theorem performs_pure : Performs (pure ()) [] :=
  ⟨.ok (), rfl, fun _ _ => rfl⟩

/-- A failure performs any course that begins with its offence. -/
theorem performs_fail (offence : Offence) (rest : Course) :
    Performs (Step.fail offence.error) (.offence offence :: rest) := by
  refine ⟨.error offence.error, ?_, fun _ _ => rfl⟩
  exact congrArg Except.error offence.rootCause_error

/-- A stretch of the wire is appended. -/
theorem performs_append (piece : Piece) : Performs (append piece.bytes) (Course.clear [piece]) := by
  refine ⟨.ok (), rfl, fun reversed config => ?_⟩
  simp only [append, List.reverseAux_eq, Course.front_clear, Piece.wire_cons, Piece.wire_nil,
    List.append_nil]
  rfl

/-- A succession of operations performs the courses of both, the second only if the first has
    no offence. -/
theorem performs_bind {operation : Op Unit} {next : Unit → Op Unit} {first second : Course}
    (performsFirst : Performs operation first) (performsSecond : Performs (next ()) second) :
    Performs (operation >>= next) (first ++ second) := by
  obtain ⟨ending, endsFirst, wrote⟩ := performsFirst
  obtain ⟨outcome, endsSecond, wroteNext⟩ := performsSecond
  cases ending with
  | error error =>
      have met : first.offences ≠ [] := by
        intro none
        rw [Course.ending_eq_ok.mpr none] at endsFirst
        cases endsFirst
      refine ⟨.error error, ?_, fun reversed config => ?_⟩
      · rw [Course.ending_append_of_offence first second met, endsFirst]
      · rw [Course.front_append_of_offence first second met, Step.bind_apply, wrote]
        rfl
  | ok done =>
      have none : first.offences = [] := Course.ending_eq_ok.mp endsFirst.symm
      refine ⟨outcome, ?_, fun reversed config => ?_⟩
      · rw [Course.ending_append_of_clear first second none, endsSecond]
      · rw [Course.front_append_of_clear first second none, Piece.wire_append,
          List.reverse_append, List.append_assoc, Step.bind_apply, wrote]
        exact wroteNext ((Piece.wire first.front).reverse ++ reversed) config

/-- Naming the field of a failure changes neither what is appended nor the cause. -/
theorem performs_inField {operation : Op Unit} {course : Course} (owner name : String)
    (performs : Performs operation course) :
    Performs (Step.inField owner name operation) course := by
  obtain ⟨outcome, ends, wrote⟩ := performs
  refine ⟨outcome.mapError (Error.inField owner name), ?_, fun reversed config => ?_⟩
  · rw [← ends]
    cases outcome <;> rfl
  · simp only [Step.inField, wrote]
    cases outcome <;> rfl

/-- One operation after another performs the course of each in turn. -/
theorem performs_forM {operation : α → Op Unit} {course : α → Course} (items : List α)
    (each : ∀ item ∈ items, Performs (operation item) (course item)) :
    Performs (items.forM operation) (items.flatMap course) := by
  induction items with
  | nil => exact performs_pure
  | cons item rest inductionHypothesis =>
      exact performs_bind (each item List.mem_cons_self)
        (inductionHypothesis fun other later => each other (List.mem_cons_of_mem _ later))

/-- What is written if it fits and refused otherwise performs a guarded course. -/
theorem performs_guarded {operation : Op Unit} (fits : Prop) [Decidable fits]
    (pieces : List Piece) (offence : Offence)
    (performs : Performs operation (Course.clear pieces)) :
    Performs (if fits then operation else Step.fail offence.error)
      (Course.guarded fits pieces offence) := by
  unfold Course.guarded
  split
  · exact performs
  · exact performs_fail offence []

/-- A flag. -/
theorem performs_writeBool (truth : Bool) :
    Performs (writeBool truth) (Course.clear [.flag truth]) :=
  performs_append (.flag truth)

/-- A number of entries in four octets. -/
theorem performs_writeLength (count : Nat) :
    Performs (writeLength count)
      (Course.guarded (count < 0x80000000) [.entryCount count] (.overflow count)) :=
  performs_guarded _ _ _ (performs_append (.entryCount count))

/-- A number of elements in eight octets. -/
theorem performs_writeLongLength (count : Nat) :
    Performs (writeLongLength count)
      (Course.guarded (count < 0x8000000000000000) [.elementCount count] (.overflow count)) :=
  performs_guarded _ _ _ (performs_append (.elementCount count))

/-- Octets after a length that is checked before anything is written. -/
theorem performs_prefixed (prefixed : Piece) (octets : Bytes)
    (spells : prefixed.bytes = Bytes.bigEndian 4 octets.length) :
    Performs (do writeLength octets.length; append octets)
      (Course.guarded (octets.length < 0x80000000) [prefixed, .octets octets]
        (.overflow octets.length)) := by
  have both : (do writeLength octets.length; append octets)
      = if octets.length < 0x80000000
        then (do append prefixed.bytes; append (Piece.octets octets).bytes)
        else Step.fail (Offence.overflow octets.length).error := by
    unfold writeLength writeNumber
    rw [spells]
    split <;> rfl
  rw [both]
  exact performs_guarded _ _ _
    (performs_bind (performs_append prefixed) (performs_append (.octets octets)))

/-- Text after its length. -/
theorem performs_writeString (text : String) : Performs (writeString text) (Course.text text) :=
  performs_prefixed (.textLength _) (Text.Utf8.encode text) rfl

/-- Octets after their number. -/
theorem performs_writeBytes (octets : Bytes) :
    Performs (writeBytes octets) (Course.counted octets) :=
  performs_prefixed (.byteLength _) octets rfl

end Buffer

open Buffer (Performs)

/-- A scalar is written whole or not at all. -/
theorem Scalar.performs_write (scalar : Scalar) : Performs scalar.write scalar.course := by
  cases scalar with
  | char character =>
      exact Buffer.performs_guarded _ _ (.character character.toNat)
        (Buffer.performs_append (.number 2 character.toNat))
  | string text => exact Buffer.performs_writeString text
  | bytes octets => exact Buffer.performs_writeBytes octets
  | _ => exact Buffer.performs_append (.number _ _)

/-- A member of an enumeration is written as its name. -/
theorem Enumeration.performs_write (type : Ty) (names : List String) (index : Nat)
    (known : index < names.length) :
    Performs (write type names (.member type index)) (Course.text (names[index]?.getD "")) := by
  have named : nameOf type names (.member type index) = .ok names[index] := by
    simp only [nameOf, List.getElem?_eq_getElem known, if_true]
  unfold write
  rw [named, List.getElem?_eq_getElem known]
  exact Buffer.performs_writeString names[index]

/-! ## What the engine performs -/

/-- The types at whose places a codec of the shape makes requests. -/
def Shape.parts (type : Ty) : Shape → List Ty
  | .sequence element => [element]
  | .map key value => [key, value]
  | .nested => [type]
  | _ => []

namespace Serializer

variable (schema : Schema) (config : Config)

/-- The codec of a shape performs what is met below the stripped layers, if the requests that
    it makes do. -/
theorem performs_codec (depth : Nat) (visited : List Ty) (type : Ty) (marked : Option Ty)
    (shape : Shape) (shaped : schema.shape type marked = .ok shape) (core : Value)
    (proper : core.Proper schema type)
    (truthful : ∀ item named, schema.itemType? type = some item → marked = some named →
      named = item)
    (each : ∀ part ∈ shape.parts type, ∀ site value, value.Proper schema part →
      Performs ((build schema config).answer depth visited
          (.encode (.ofPlace part [] site (some value))))
        (value.courseAt schema visited part []))
    (fields : ∀ description, schema.kind type = .aggregate description →
      Performs ((build schema config).answer depth visited (.encodeFields type description core))
        (core.course schema visited type none)) :
    Performs (((shape.codec schema type).encode (some core)).run
        ((build schema config).answer depth visited))
      (core.courseBelow schema visited type marked) := by
  have fits := schema.fits_of_shape type marked shape shaped
  cases shape with
  | leaf kind =>
      obtain ⟨rfl, _⟩ := fits
      obtain ⟨held, rfl, rfl⟩ := proper.scalar_of_leaf kind
      have written : held.leaf.writeValue (.scalar held) = held.write := if_pos rfl
      have expected : (Value.scalar held).expect (.leaf held.leaf) = .ok (.scalar held) :=
        if_pos rfl
      simp only [Shape.codec, Codec.run_encode_leaf, expected, Step.lift_ok, pure_bind, written]
      exact held.performs_write
  | octets =>
      cases fits
      obtain ⟨items, part, rfl, made, inside⟩ := proper.items_of_kind (some .u8) rfl
      cases made
      have octets (item : Value) (listed : item ∈ items) : item.Typed schema .u8 := by
        obtain ⟨held, rfl, small⟩ := (inside item listed).scalar_of_leaf .u8
        have typed : (Value.scalar held).Typed schema (.leaf held.leaf) := .scalar held
        rwa [small] at typed
      obtain ⟨bytes, held, _⟩ := Codec.octets?_of_typed items octets
      have expected : (Value.sequence (Ty.vector .u8) items).expect (Ty.vector .u8)
          = .ok (.sequence (Ty.vector .u8) items) := if_pos rfl
      have opened : (Value.sequence (Ty.vector .u8) items).items (Ty.vector .u8) = .ok items :=
        (Value.items_eq_ok _ _ items).mpr rfl
      simp only [Shape.codec, Codec.run_encode_octetVector, expected, Step.lift_ok, pure_bind,
        opened, Except.toOption, Option.bind_some, held]
      rw [Value.courseBelow, if_neg (by rintro ⟨⟩),
        Value.course_octets schema visited _ items bytes held]
      exact Buffer.performs_writeBytes bytes
  | enumeration names =>
      obtain ⟨index, rfl, known⟩ := proper.member_of_kind names fits
      have kept : type.isOption = false := by
        cases type <;> first | rfl | cases fits
      simp only [Shape.codec, Codec.run_encode_enumeration]
      rw [Value.courseBelow, kept, if_neg Bool.false_ne_true,
        Value.course_member schema visited type type names fits]
      exact Enumeration.performs_write type names index known
  | sequence element =>
      obtain ⟨other, declared, described, chosen⟩ := fits
      obtain ⟨items, part, rfl, made, inside⟩ := proper.items_of_kind declared described
      have same : element = part := by
        cases marked with
        | some named =>
            cases chosen
            exact truthful part element made rfl
        | none =>
            cases chosen
            exact Option.some.inj ((schema.itemType?_of_declared type element described).symm.trans
              made)
      subst same
      have kept : type.isOption = false := by
        cases type <;> first | rfl | cases described
      have opened : (Value.sequence type items).items type = .ok items :=
        (Value.items_eq_ok type _ items).mpr rfl
      simp only [Shape.codec, Codec.run_encode_stream, opened, Step.lift_ok, pure_bind]
      rw [Value.courseBelow, kept, if_neg Bool.false_ne_true,
        Value.course_sequence schema visited type type element declared marked other described
          chosen items]
      exact Buffer.performs_bind (Buffer.performs_writeLongLength _)
        (Buffer.performs_forM items fun item listed =>
          each element List.mem_cons_self _ item (inside item listed))
  | map key part =>
      obtain ⟨kind, rfl⟩ := schema.kind_map type key part fits
      obtain ⟨entries, rfl, keys, parts⟩ := proper.entries_of_map kind key part
      have opened : (Value.map (.map kind key part) entries).entries (.map kind key part)
          = .ok entries := (Value.entries_eq_ok _ _ entries).mpr rfl
      simp only [Shape.codec, Codec.run_encode_map, opened, Step.lift_ok, pure_bind]
      rw [Value.courseBelow, if_neg (by rintro ⟨⟩), Value.course_map]
      refine Buffer.performs_bind (Buffer.performs_writeLength _)
        (Buffer.performs_forM entries fun entry listed => ?_)
      exact Buffer.performs_bind
        (each key List.mem_cons_self _ entry.1 (keys entry listed))
        (each part (List.mem_cons_of_mem _ List.mem_cons_self) _ entry.2 (parts entry listed))
  | nested =>
      obtain ⟨inner, rfl⟩ := fits
      simp only [Shape.codec, Codec.run_encode_innerOption]
      exact each (.option inner) List.mem_cons_self _ core proper
  | aggregate description =>
      have kept : type.isOption = false := by
        cases type <;> first | rfl | cases fits
      simp only [Shape.codec, Codec.run_encode_aggregate]
      obtain ⟨members, rfl, _⟩ := proper.members_of_kind description fits
      rw [Value.courseBelow, kept, if_neg Bool.false_ne_true,
        Value.course_record schema visited type type description fits members marked,
        ← Value.course_record schema visited type type description fits members none]
      exact fields description fits
  | custom format =>
      -- Nothing is known of the values of custom types, so none of them is proper.
      cases proper with
      | leaf _ otherwise => rw [fits] at otherwise; cases otherwise
      | member _ _ otherwise => rw [fits] at otherwise; cases otherwise
      | sequence _ _ otherwise => rw [fits] at otherwise; cases otherwise
      | record _ _ otherwise => rw [fits] at otherwise; cases otherwise
      | _ => cases fits

/-- A flag goes in front of what the codec performs exactly where a place has one. -/
theorem performs_flagged (depth : Nat) (visited : List Ty) (declared : Ty) (markers : List Marker)
    (shape : Shape) (value : Value) (inner : Option Value)
    (accepted : schema.refused declared.unwrapped (Marker.element? markers) = [])
    (projected : Context.projectThrough declared.layers value = .ok inner)
    (below : ∀ core, inner = some core →
      Performs (((shape.codec schema declared.unwrapped).encode (some core)).run
          ((build schema config).answer depth visited))
        (core.courseBelow schema visited declared.unwrapped (Marker.element? markers))) :
    Performs ((((shape.codec schema declared.unwrapped).flagged
          (declared.stripsOption || markers.contains .nullable)).encode inner).run
        ((build schema config).answer depth visited))
      (value.courseAt schema visited declared markers) := by
  obtain ⟨rfl, strips, met⟩ | ⟨core, rfl, met⟩ :=
    Value.courseAt_project schema visited declared markers value inner accepted projected
  · rw [met, strips, Bool.true_or, Codec.run_encode_flagged]
    exact Buffer.performs_bind (Buffer.performs_writeBool false) Buffer.performs_pure
  · rw [met]
    cases declared.stripsOption || markers.contains .nullable with
    | false => exact below core rfl
    | true =>
        rw [Codec.run_encode_flagged]
        exact Buffer.performs_bind (Buffer.performs_writeBool true) (below core rfl)

/-- Encoding the fields of an aggregate performs the course of each at its place. -/
theorem performs_encodeFields {operation : Context → Buffer.Op Unit} {course : Field → Course}
    (owner : Ty) (members : List Value) (index : Nat) (fields : List Field)
    (each : ∀ field ∈ fields, ∃ member, members[field.slot]? = some member ∧ ∀ site,
      Performs (operation (.ofPlace field.type field.markers site (some member)))
        (course field)) :
    Performs (encodeFields operation owner (.record owner members) index fields)
      (fields.flatMap course) := by
  induction fields generalizing index with
  | nil => exact Buffer.performs_pure
  | cons field rest inductionHypothesis =>
      obtain ⟨member, found, performs⟩ := each field List.mem_cons_self
      have got : field.get owner (.record owner members) = .ok member :=
        (Field.get_eq_ok owner field _ member).mpr ⟨members, rfl, found⟩
      refine Buffer.performs_bind (Buffer.performs_inField _ _ ?_)
        (inductionHypothesis (index + 1) fun other later =>
          each other (List.mem_cons_of_mem _ later))
      rw [got]
      exact performs (.field owner index)

end Serializer

namespace Shape

variable {schema : Schema}

/-- Requests are made at the places of types that are smaller than what the place names. -/
theorem size_parts (context : Context) (shape : Shape)
    (fits : shape.Fits schema context.unwrapped context.streamableElement) (part : Ty)
    (listed : part ∈ shape.parts context.unwrapped) :
    part.size < context.declared.size + Marker.weight context.markers := by
  have peeled : context.unwrapped.size ≤ context.declared.size := Ty.size_peel_le _ false
  cases shape with
  | sequence element =>
      cases List.mem_singleton.mp listed
      obtain ⟨_, declared, described, chosen⟩ := fits
      cases marked : context.streamableElement with
      | some given =>
          rw [marked] at chosen
          cases chosen
          have weighed := Marker.size_le_weight context.markers part
            (Marker.streamable_of_element? context.markers part marked)
          have positive := context.declared.size_pos
          omega
      | none =>
          rw [marked] at chosen
          cases chosen
          obtain ⟨kind, same⟩ := schema.kind_sequence _ part described
          rw [same, Ty.size] at peeled
          omega
  | map key value =>
      obtain ⟨kind, same⟩ := schema.kind_map _ key value fits
      rw [same, Ty.size] at peeled
      have keyPositive := key.size_pos
      have valuePositive := value.size_pos
      obtain rfl | later := List.mem_cons.mp listed
      · omega
      · cases List.mem_singleton.mp later
        omega
  | nested =>
      cases List.mem_singleton.mp listed
      obtain ⟨inner, same⟩ := fits
      have kept : context.declared.unwrapped.isOption = true := by
        change context.unwrapped.isOption = true
        rw [same]
        rfl
      exact Nat.lt_add_right _ (Ty.size_unwrapped_lt _ kept)
  | _ => cases listed

/-- What holds throughout a type, and throughout an element type that markers name, holds
    throughout the types at whose places requests are made. -/
theorem throughout_parts {holds : Ty → Prop} (type : Ty) (marked : Option Ty) (shape : Shape)
    (fits : shape.Fits schema type marked) (throughout : schema.Throughout holds type)
    (named : ∀ element, marked = some element → schema.Throughout holds element) (part : Ty)
    (listed : part ∈ shape.parts type) : schema.Throughout holds part := by
  cases shape with
  | sequence element =>
      cases List.mem_singleton.mp listed
      obtain ⟨_, declared, described, chosen⟩ := fits
      exact throughout.chosen named described chosen
  | map key value =>
      obtain ⟨kind, rfl⟩ := schema.kind_map type key value fits
      obtain rfl | later := List.mem_cons.mp listed
      · exact throughout.part (.key kind part value)
      · cases List.mem_singleton.mp later
        exact throughout.part (.value kind key part)
  | nested =>
      cases List.mem_singleton.mp listed
      exact throughout
  | _ => cases listed

end Shape

namespace Serializer

variable (schema : Schema) (config : Config)

/-- Whatever is encoded at a place performs the course of the value there. The induction is on
    how deep requests may nest, for values at places and fields of aggregates together, and it
    keeps that there is room for what is left of the walk. -/
theorem performs_answer (depth : Nat) :
    (∀ visited declared markers site value, value.Proper schema declared →
      schema.Throughout schema.Truthful declared →
      (∀ element, Marker.element? markers = some element →
        schema.Throughout schema.Truthful element) →
      Marker.Truthful schema declared markers →
      schema.roomAt visited (.ofPlace declared markers site (some value)) ≤ depth →
      Performs ((build schema config).answer depth visited
          (.encode (.ofPlace declared markers site (some value))))
        (value.courseAt schema visited declared markers)) ∧
    ∀ visited type description value, schema.kind type = .aggregate description →
      value.Proper schema type → schema.Throughout schema.Truthful type →
      schema.roomInside visited ≤ depth →
      Performs ((build schema config).answer depth visited (.encodeFields type description value))
        (value.course schema visited type none) := by
  induction depth with
  | zero =>
      exact ⟨fun _ _ _ _ _ _ _ _ _ room => absurd room (Nat.not_succ_le_zero _),
        fun _ _ _ _ _ _ _ room => absurd room (Nat.not_succ_le_zero _)⟩
  | succ depth inductionHypothesis =>
      obtain ⟨places, aggregates⟩ := inductionHypothesis
      constructor
      · intro visited declared markers site value proper truthful markedTruthful honest room
        rw [answer_encode_place]
        obtain ⟨shape, shaped, accepted⟩ | ⟨offence, refused, met⟩ :=
          schema.refused_of_shape declared.unwrapped (Marker.element? markers)
            (Ty.unwrapped_ne_boxed declared)
        · obtain ⟨inner, projected, whole⟩ := proper.project false
          change Context.projectThrough declared.layers value = .ok inner at projected
          rw [shaped, projected]
          refine performs_flagged schema config depth visited declared markers shape value inner
            accepted projected fun core held => ?_
          have fits := schema.fits_of_shape _ _ shape shaped
          let context := Context.ofPlace declared markers site (some value)
          have fitsContext : shape.Fits schema context.unwrapped context.streamableElement := by
            change shape.Fits schema declared.unwrapped
              (Context.make declared markers).streamableElement
            rwa [Context.streamableElement_make]
          refine performs_codec schema config depth visited _ _ shape shaped core (whole core held)
            honest (fun part listed site child properChild => ?_) fun description described => ?_
          · have below : schema.roomAt visited (.ofPlace part [] site (some child))
                < schema.roomAt visited context :=
              Schema.roomAt_of_lt part (some child) site context
                (Shape.size_parts context shape fitsContext part listed)
            exact places visited part [] site child properChild
              (Shape.throughout_parts _ _ shape fits truthful.unwrapped markedTruthful part listed)
              nofun (Marker.truthful_nil schema part)
              (Nat.le_of_lt_succ (Nat.lt_of_lt_of_le below room))
          · exact aggregates visited _ description core described (whole core held)
              truthful.unwrapped
              (Nat.le_of_lt_succ (Nat.lt_of_lt_of_le (Schema.roomInside_lt _) room))
        · rw [refused, Value.courseAt, met]
          exact Buffer.performs_fail offence _
      · intro visited type description value described proper truthful room
        obtain ⟨members, rfl, fields⟩ := proper.members_of_kind description described
        rw [Value.course_record schema visited type type description described]
        simp only [answer]
        cases new : visited.contains type with
        | true => exact Buffer.performs_fail (.circular type) []
        | false =>
            refine performs_encodeFields type members 0 description.fields fun field listed => ?_
            obtain ⟨member, found, properMember⟩ := fields field listed
            refine ⟨member, found, fun site => ?_⟩
            simp only [found]
            have below := schema.roomAt_part_lt type description described new field.type
              field.markers site (some member)
              (schema.weight_field_le type description described field listed)
            exact places (type :: visited) field.type field.markers site member properMember
              (truthful.part (.field type description described field listed))
              (fun element named => truthful.part (.marked type description described field listed
                element (Marker.streamable_of_element? _ _ named)))
              (truthful.self description described field listed)
              (Nat.le_of_lt_succ (Nat.lt_of_lt_of_le below room))

/-- Appending a proper value performs its course. -/
theorem performs_appending (value : Value) (proper : value.Proper schema value.type)
    (truthful : schema.Throughout schema.Truthful value.type) :
    Performs ((build schema config).appending value) (value.wholeCourse schema) :=
  (performs_answer schema config _).1 [] value.type [] (.root value.type) value proper truthful
    nofun (Marker.truthful_nil schema value.type) (schema.roomAt_le_depth _)

/-- A serializer without rules of a user's encodes a proper value exactly if a walk through it
    meets no offence, whatever it has been asked before. Otherwise it fails, and the root cause
    is the first offence in the order of the walk. Numbers of elements are listed among what has
    to fit its prefix; no sequence that a memory can hold has too many. -/
theorem encode_ends_at_first_offence (value : Value) (proper : value.Proper schema value.type)
    (truthful : schema.Throughout schema.Truthful value.type) (memory : Memory)
    (reached : (build schema config).Reached memory) :
    ((∃ bytes later, (build schema config).encode value memory = .ok bytes later)
        ↔ value.offences schema = []) ∧
      ∀ first others, value.offences schema = first :: others →
        ∃ error later, (build schema config).encode value memory = .error error later ∧
          error.rootCause = first.error := by
  obtain ⟨after, _, same⟩ := encode_eq_encoded (builtin_static schema config)
    (builtin_makes schema config) value
    (coherent_of_reached (builtin_static schema config) (builtin_makes schema config) memory
      reached)
  obtain ⟨outcome, ends, wrote⟩ := performs_appending schema config value proper truthful
  have appended : (build schema config).appending value (build schema config).writer
      = Step.lift outcome ⟨.written ((Piece.wire (value.wholeCourse schema).front).reverse ++ []),
          config⟩ := wrote [] config
  rw [same, encoded_root, appended]
  cases outcome with
  | ok done =>
      have none : value.offences schema = [] := Course.ending_eq_ok.mp ends.symm
      refine ⟨⟨fun _ => none, fun _ => ⟨_, after, rfl⟩⟩, fun first others met => ?_⟩
      rw [none] at met
      cases met
  | error error =>
      refine ⟨⟨?_, fun none => ?_⟩, fun first others met => ⟨error, after, rfl, ?_⟩⟩
      · rintro ⟨bytes, later, impossible⟩
        cases impossible
      · rw [Course.ending_eq_ok.mpr none] at ends
        cases ends
      · change Course.offences (value.wholeCourse schema) = first :: others at met
        rw [Course.ending, met] at ends
        exact Except.error.inj ends

/-- A schema of an aggregate that can hold one of its own type, a sequence that does not say what
    its elements are, and a leaf without a codec. -/
def ledgers : Schema where
  entries :=
    [{ type := .named "Bag", definition := .sequence .i32 },
      { type := .named "Seal", definition := .leaf },
      { type := .named "Ledger"
        definition := .aggregate
          { fields := [⟨"initial", .leaf .char, [], 0⟩,
              ⟨"bag", .named "Bag", [.streamable .i32], 1⟩,
              ⟨"seal", .option (.named "Seal"), [], 2⟩,
              ⟨"next", .option (.boxed (.named "Ledger")), [], 3⟩] } }]

/-- A ledger with a character, a bag of one number, no seal, and perhaps another ledger. -/
def ledger (initial : Char) (next : Value) : Value :=
  .record (.named "Ledger")
    [.scalar (.char initial), .sequence (.named "Bag") [.i32 7], .absent (.named "Seal"), next]

/-- A ledger is proper if what is in the place of the next one is. -/
theorem proper_ledger (initial : Char) (next : Value)
    (proper : next.Proper ledgers (.option (.boxed (.named "Ledger")))) :
    (ledger initial next).Proper ledgers (.named "Ledger") := by
  refine .record _ _ rfl _ ?_ ?_
  · intro field listed
    simp only [List.mem_cons, List.not_mem_nil, or_false] at listed
    obtain rfl | rfl | rfl | rfl := listed <;> simp
  · intro field listed member found
    simp only [List.mem_cons, List.not_mem_nil, or_false] at listed
    obtain rfl | rfl | rfl | rfl := listed
    · cases found
      exact .scalar (.char initial)
    · cases found
      refine .sequence _ none rfl .i32 rfl _ fun item among => ?_
      cases List.mem_singleton.mp among
      exact .scalar (.i32 7)
    · cases found
      exact .absent _
    · cases found
      exact proper

/-- The marker in a ledger tells the truth about the bag. -/
theorem truthful_ledgers :
    ledgers.Throughout ledgers.Truthful (.vector (.named "Ledger")) := by
  refine Schema.throughout_of_closed
    [.vector (.named "Ledger"), .named "Ledger", .leaf .char, .named "Bag", .i32,
      .option (.named "Seal"), .named "Seal", .option (.boxed (.named "Ledger")),
      .boxed (.named "Ledger")] List.mem_cons_self ?_ ?_
  · decide
  · intro type listed description described field among
    have told : (ledgers.kind type).definition? = some (.aggregate description) := by
      rw [described]
      rfl
    obtain ⟨entry, found, defined⟩ := ledgers.entry_of_kind type _ told
    have known := List.mem_of_find?_eq_some found
    simp only [ledgers, List.mem_cons, List.not_mem_nil, or_false] at known
    obtain rfl | rfl | rfl := known
    · cases defined
    · cases defined
    · cases defined
      simp only [List.mem_cons, List.not_mem_nil, or_false] at among
      obtain rfl | rfl | rfl | rfl := among
      · exact Marker.truthful_nil _ _
      · intro item named made marked
        cases made
        cases marked
        rfl
      · exact Marker.truthful_nil _ _
      · exact Marker.truthful_nil _ _

/-- Nothing stands in the way of no ledgers. In a ledger with a character beyond the first plane
    and another ledger there are three offences, of which the character is the first. -/
theorem encode_ends_at_first_offence_ledger :
    let serializer := build ledgers {}
    let none := Value.sequence (.vector (.named "Ledger")) []
    let inside := Value.present (.boxed (ledger 'a' (.absent (.boxed (.named "Ledger")))))
    let one := ledger '𝄞' inside
    (none.Proper ledgers none.type ∧ one.Proper ledgers one.type ∧
      ledgers.Throughout ledgers.Truthful none.type ∧
      ledgers.Throughout ledgers.Truthful one.type ∧ serializer.Reached serializer.start) ∧
    (∃ bytes later, serializer.encode none serializer.start = .ok bytes later) ∧
    one.offences ledgers
      = [.character 0x1D11E, .unclaimed (.named "Seal"), .circular (.named "Ledger")] ∧
    ∃ error later, serializer.encode one serializer.start = .error error later ∧
      error.rootCause = .invalidChar 0x1D11E := by
  intro serializer none inside one
  have properNone : none.Proper ledgers none.type :=
    .sequence _ (some (.named "Ledger")) rfl (.named "Ledger") rfl [] (List.forall_mem_nil _)
  have properInside : inside.Proper ledgers (.option (.boxed (.named "Ledger"))) :=
    .present _ _ (.boxed _ _ (proper_ledger 'a' _ (.absent _)))
  have properOne : one.Proper ledgers one.type := proper_ledger '𝄞' inside properInside
  have truthfulNone : ledgers.Throughout ledgers.Truthful none.type := truthful_ledgers
  have truthfulOne : ledgers.Throughout ledgers.Truthful one.type :=
    truthful_ledgers.part (.element _ _)
  have noOffence : none.offences ledgers = [] := by decide +kernel
  have offences : one.offences ledgers
      = [.character 0x1D11E, .unclaimed (.named "Seal"), .circular (.named "Ledger")] := by
    decide +kernel
  refine ⟨⟨properNone, properOne, truthfulNone, truthfulOne, .start⟩, ?_, offences, ?_⟩
  · exact (encode_ends_at_first_offence ledgers {} none properNone truthfulNone _ .start).1.mpr
      noOffence
  · exact (encode_ends_at_first_offence ledgers {} one properOne truthfulOne _ .start).2 _ _
      offences

end Serializer

end Wireform
