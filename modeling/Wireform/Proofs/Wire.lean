import Wireform.Proofs.Client
import Wireform.Proofs.Layers
import Wireform.Proofs.Shape

/-!
# The wire format

`Value.layout` is the reference for what is on the wire. It goes down type and value
together and knows nothing of resolvers, transforms, memories or erased types. Its
result is a list of pieces, so that the lengths among the octets can be told apart;
the wire form of a value is the octets of its pieces.

Everything that a serializer without rules of a user's writes is just that. The
proof is an induction on how deep requests may nest: an operation emits given octets
if they are what it appends whenever it succeeds on a writer. What stands in the writer
before and the limits that it carries have no part in this, and neither have they in whether
the operation succeeds.
-/

namespace Wireform

variable {α β : Type}

/-- A stretch of the wire: plain octets, or a length that a reader holds against the
    range for its kind. -/
inductive Piece
  | octets (bytes : Bytes)
  | textLength (length : Nat)
  | byteLength (length : Nat)
  | elementCount (count : Nat)
  | entryCount (count : Nat)

namespace Piece

/-- The octets of a piece. Elements are counted in eight octets, everything else in
    four. -/
def bytes : Piece → Bytes
  | octets bytes => bytes
  | textLength length => Bytes.bigEndian 4 length
  | byteLength length => Bytes.bigEndian 4 length
  | elementCount count => Bytes.bigEndian 8 count
  | entryCount count => Bytes.bigEndian 4 count

/-- A number at its natural width. -/
def number (width value : Nat) : Piece := octets (Bytes.bigEndian width value)

/-- A flag in one octet. -/
def flag (truth : Bool) : Piece := number 1 truth.toNat

/-- Text after the number of its octets. -/
def text (text : String) : List Piece :=
  [textLength (Text.Utf8.encode text).length, octets (Text.Utf8.encode text)]

/-- Octets after their number. -/
def counted (bytes : Bytes) : List Piece := [byteLength bytes.length, octets bytes]

/-- The flag of a place that is marked nullable though its type has no option to strip. -/
def presence (declared : Ty) (markers : List Marker) : List Piece :=
  if !declared.stripsOption && markers.contains .nullable then [flag true] else []

/-- The octets of pieces one after another. -/
def wire (pieces : List Piece) : Bytes := pieces.flatMap bytes

/-- The octets of pieces come in their order. -/
@[simp] theorem wire_append (first second : List Piece) :
    wire (first ++ second) = wire first ++ wire second :=
  List.flatMap_append

/-- The octets of a piece come before those of the pieces behind it. -/
@[simp] theorem wire_cons (piece : Piece) (pieces : List Piece) :
    wire (piece :: pieces) = piece.bytes ++ wire pieces := rfl

/-- No pieces have no octets. -/
@[simp] theorem wire_nil : wire [] = [] := rfl

/-- The octets of many stretches are those of each in turn. -/
theorem wire_flatMap (items : List α) (pieces : α → List Piece) :
    wire (items.flatMap pieces) = items.flatMap fun item => wire (pieces item) :=
  List.flatMap_assoc

end Piece

/-- A scalar on the wire. -/
def Scalar.layout : Scalar → List Piece
  | .i8 number => [.number 1 number.toUInt8.toNat]
  | .u8 number => [.number 1 number.toNat]
  | .i16 number => [.number 2 number.toUInt16.toNat]
  | .u16 number => [.number 2 number.toNat]
  | .i32 number => [.number 4 number.toUInt32.toNat]
  | .i64 number => [.number 8 number.toUInt64.toNat]
  | .u64 number => [.number 8 number.toNat]
  | .f32 bits => [.number 4 bits.toNat]
  | .f64 bits => [.number 8 bits.toNat]
  | .bool truth => [.flag truth]
  | .char character => [.number 2 character.toNat]
  | .string text => Piece.text text
  | .uuid bits => [.number 16 bits.toNat]
  | .bytes octets => Piece.counted octets

/-- The fields of an aggregate on the wire, given how each of its members is laid out
    at a type and an element type that markers name. -/
def Field.layouts (fields : List Field) (members : List (Ty → Option Ty → List Piece)) :
    List Piece :=
  fields.flatMap fun field =>
    match members[field.slot]? with
    | some layout =>
        Piece.presence field.type field.markers
          ++ layout field.type (Marker.element? field.markers)
    | none => []

namespace Value

variable (schema : Schema)

mutual

/-- A value of a type on the wire, where markers may name an element type. An element
    type that markers name reaches through one option only. A value that does not fit
    the type has no wire form. -/
def layout : Value → (type : Ty) → (element : Option Ty) → List Piece
  | .scalar plain, type, _ =>
      match schema.kind type with
      | .leaf => plain.layout
      | _ => []
  | .member _ index, type, _ =>
      match schema.kind type with
      | .enumeration names => Piece.text (names[index]?.getD "")
      | _ => []
  | .absent _, type, _ =>
      match schema.kind type with
      | .nullable _ => [.flag false]
      | _ => []
  | .present value, type, element =>
      match schema.kind type with
      | .nullable inner =>
          .flag true :: layout value inner (if inner.stripsOption then none else element)
      | _ => []
  | .boxed value, type, element =>
      match schema.kind type with
      | .pointer inner => layout value inner element
      | _ => []
  | .sequence _ items, type, element =>
      match schema.kind type with
      | .sequence declared =>
          if type = Ty.vector .u8 then Piece.counted ((Codec.octets? items).getD [])
          else
            match element.or declared with
            | some element =>
                .elementCount items.length
                  :: (itemLayouts items).flatMap fun layout => layout element none
            | none => []
      | _ => []
  | .map _ entries, type, _ =>
      match schema.kind type with
      | .map key value =>
          .entryCount entries.length
            :: (entryLayouts entries).flatMap fun layouts =>
                layouts.1 key none ++ layouts.2 value none
      | _ => []
  | .record _ members, type, _ =>
      match schema.kind type with
      | .aggregate description => Field.layouts description.fields (itemLayouts members)
      | _ => []

/-- How each element or member is laid out. -/
def itemLayouts : List Value → List (Ty → Option Ty → List Piece)
  | [] => []
  | item :: rest => layout item :: itemLayouts rest

/-- How the key and the value of each entry are laid out. -/
def entryLayouts : List (Value × Value) →
    List ((Ty → Option Ty → List Piece) × (Ty → Option Ty → List Piece))
  | [] => []
  | (key, value) :: rest => (layout key, layout value) :: entryLayouts rest

end

/-- An aggregate has no use for an element type. -/
theorem layout_aggregate (type : Ty) (description : Aggregate)
    (described : schema.kind type = .aggregate description) (value : Value)
    (element other : Option Ty) :
    value.layout schema type element = value.layout schema type other := by
  cases value <;> simp only [layout, described]

/-- A value on the wire at a place with markers. -/
def layoutAt (declared : Ty) (markers : List Marker) (value : Value) : List Piece :=
  Piece.presence declared markers ++ value.layout schema declared (Marker.element? markers)

/-- Without markers there is nothing but the value. -/
theorem layoutAt_nil (declared : Ty) (value : Value) :
    value.layoutAt schema declared [] = value.layout schema declared none := by
  simp [layoutAt, Piece.presence, Marker.element?]

/-- A value of its own type on the wire. -/
def wire (value : Value) : Bytes := Piece.wire (value.layout schema value.type none)

/-- Each element is laid out as it would be alone. -/
theorem itemLayouts_eq_map (items : List Value) :
    itemLayouts schema items = items.map (layout schema) := by
  induction items with
  | nil => rfl
  | cons item rest inductionHypothesis => simp only [itemLayouts, inductionHypothesis, List.map_cons]

/-- Each key and each value is laid out as it would be alone. -/
theorem entryLayouts_eq_map (entries : List (Value × Value)) :
    entryLayouts schema entries
      = entries.map fun entry => (layout schema entry.1, layout schema entry.2) := by
  induction entries with
  | nil => rfl
  | cons entry rest inductionHypothesis =>
      obtain ⟨key, value⟩ := entry
      simp only [entryLayouts, inductionHypothesis, List.map_cons]

/-- A member of an enumeration is its name. -/
theorem layout_member (type own : Ty) (names : List String)
    (described : schema.kind type = .enumeration names) (index : Nat) (element : Option Ty) :
    layout schema (.member own index) type element = Piece.text (names[index]?.getD "") := by
  simp only [layout, described]

/-- A vector of octets is counted octets. -/
theorem layout_octets (own : Ty) (items : List Value) (octets : Bytes)
    (held : Codec.octets? items = some octets) (element : Option Ty) :
    layout schema (.sequence own items) (Ty.vector .u8) element = Piece.counted octets := by
  simp only [layout, Ty.vector, Schema.kind, if_true, held, Option.getD_some]

/-- Any other collection is its elements after their number. -/
theorem layout_sequence (type own part : Ty) (declared element : Option Ty)
    (other : type ≠ Ty.vector .u8) (described : schema.kind type = .sequence declared)
    (chosen : element.or declared = some part) (items : List Value) :
    layout schema (.sequence own items) type element
      = .elementCount items.length :: items.flatMap fun item => item.layout schema part none := by
  simp only [layout, described, if_neg other, chosen, itemLayouts_eq_map, List.flatMap_map]

/-- A map is its entries after their number. -/
theorem layout_map (kind : MapKind) (key part own : Ty) (entries : List (Value × Value))
    (element : Option Ty) :
    layout schema (.map own entries) (.map kind key part) element
      = .entryCount entries.length :: entries.flatMap fun entry =>
          entry.1.layout schema key none ++ entry.2.layout schema part none := by
  simp only [layout, Schema.kind, entryLayouts_eq_map, List.flatMap_map]

end Value

/-! ## Operations that append -/

namespace Buffer

/-- Whenever the operation succeeds on a writer it has appended the bytes. -/
def Appends (operation : Op Unit) (bytes : Bytes) : Prop :=
  ∀ reversed config after, operation ⟨.written reversed, config⟩ = .ok () after →
    after = ⟨.written (bytes.reverse ++ reversed), config⟩

/-- On every writer the operation appends the same and ends in the same way, and if it succeeds
    it has appended the bytes. -/
def Emits (operation : Op Unit) (bytes : Bytes) : Prop :=
  ∃ (emitted : Bytes) (outcome : Except Error Unit), (outcome = .ok () → emitted = bytes) ∧
    ∀ reversed config, operation ⟨.written reversed, config⟩
      = Step.lift outcome ⟨.written (emitted.reverse ++ reversed), config⟩

/-- What is emitted is appended. -/
theorem Emits.appends {operation : Op Unit} {bytes : Bytes} (emits : Emits operation bytes) :
    Appends operation bytes := by
  obtain ⟨emitted, outcome, same, wrote⟩ := emits
  intro reversed config after succeeded
  rw [wrote] at succeeded
  cases outcome with
  | error error => cases succeeded
  | ok done =>
      cases succeeded
      rw [same rfl]

/-- Failing emits anything. -/
theorem emits_fail (error : Error) (bytes : Bytes) : Emits (Step.fail error) bytes :=
  ⟨[], .error error, nofun, fun _ _ => rfl⟩

/-- Doing nothing emits nothing. -/
theorem emits_pure : Emits (pure ()) [] :=
  ⟨[], .ok (), fun _ => rfl, fun _ _ => rfl⟩

/-- Appending emits. -/
theorem emits_append (bytes : Bytes) : Emits (append bytes) bytes := by
  refine ⟨bytes, .ok (), fun _ => rfl, fun reversed config => ?_⟩
  simp only [append, List.reverseAux_eq]
  rfl

/-- A succession of operations emits the bytes of the first and then of the second. -/
theorem emits_bind {operation : Op Unit} {next : Unit → Op Unit} {first second : Bytes}
    (emitsFirst : Emits operation first) (emitsSecond : Emits (next ()) second) :
    Emits (operation >>= next) (first ++ second) := by
  obtain ⟨front, ending, sameFront, wrote⟩ := emitsFirst
  obtain ⟨back, outcome, sameBack, wroteNext⟩ := emitsSecond
  cases ending with
  | error error =>
      refine ⟨front, .error error, nofun, fun reversed config => ?_⟩
      rw [Step.bind_apply, wrote]
      rfl
  | ok done =>
      refine ⟨front ++ back, outcome, fun succeeded => ?_, fun reversed config => ?_⟩
      · rw [sameFront rfl, sameBack succeeded]
      · rw [Step.bind_apply, wrote, List.reverse_append, List.append_assoc]
        exact wroteNext (front.reverse ++ reversed) config

/-- What follows a known result emits where there is one. -/
theorem emits_lift {outcome : Except Error α} {next : α → Op Unit} {bytes : Bytes}
    (emits : ∀ result, outcome = .ok result → Emits (next result) bytes) :
    Emits (Step.lift outcome >>= next) bytes := by
  cases outcome with
  | ok result => exact emits result rfl
  | error error => exact emits_fail error bytes

/-- Naming the field of a failure emits nothing more. -/
theorem emits_inField {operation : Op Unit} {bytes : Bytes} (owner name : String)
    (emits : Emits operation bytes) : Emits (Step.inField owner name operation) bytes := by
  obtain ⟨emitted, outcome, same, wrote⟩ := emits
  refine ⟨emitted, outcome.mapError (Error.inField owner name), fun succeeded => ?_,
    fun reversed config => ?_⟩
  · cases outcome with
    | error error => cases succeeded
    | ok done => exact same rfl
  · simp only [Step.inField, wrote]
    cases outcome <;> rfl

/-- One operation after another emits the bytes of each in turn. -/
theorem emits_forM {operation : α → Op Unit} {bytes : α → Bytes} (items : List α)
    (each : ∀ item ∈ items, Emits (operation item) (bytes item)) :
    Emits (items.forM operation) (items.flatMap bytes) := by
  induction items with
  | nil => exact emits_pure
  | cons item rest inductionHypothesis =>
      exact emits_bind (each item List.mem_cons_self)
        (inductionHypothesis fun other later => each other (List.mem_cons_of_mem _ later))

/-- A flag. -/
theorem emits_writeBool (truth : Bool) : Emits (writeBool truth) (Piece.flag truth).bytes :=
  emits_append _

/-- A length in four octets. -/
theorem emits_writeLength (length : Nat) :
    Emits (writeLength length) (Bytes.bigEndian 4 length) := by
  unfold writeLength
  split
  · exact emits_append _
  · exact emits_fail _ _

/-- A length in eight octets. -/
theorem emits_writeLongLength (length : Nat) :
    Emits (writeLongLength length) (Bytes.bigEndian 8 length) := by
  unfold writeLongLength
  split
  · exact emits_append _
  · exact emits_fail _ _

/-- Text after its length. -/
theorem emits_writeString (text : String) :
    Emits (writeString text) (Piece.wire (Piece.text text)) :=
  emits_bind (emits_writeLength _) (by simpa [Piece.bytes] using emits_append _)

/-- Octets after their number. -/
theorem emits_writeBytes (octets : Bytes) :
    Emits (writeBytes octets) (Piece.wire (Piece.counted octets)) :=
  emits_bind (emits_writeLength _) (by simpa [Piece.bytes] using emits_append _)

/-- A character in one unit. -/
theorem emits_writeChar (char : Char) :
    Emits (writeChar char) (Bytes.bigEndian 2 char.toNat) := by
  unfold writeChar
  split
  · exact emits_append _
  · exact emits_fail _ _

end Buffer

open Buffer (Emits)

/-- A scalar is written as it is laid out. -/
theorem Scalar.emits_write (scalar : Scalar) : Emits scalar.write (Piece.wire scalar.layout) := by
  have whole (operation : Buffer.Op Unit) (piece : Piece) (appends : Emits operation piece.bytes) :
      Emits operation (Piece.wire [piece]) := by
    simpa using appends
  cases scalar with
  | bool truth => exact whole _ _ (Buffer.emits_writeBool truth)
  | char char => exact whole _ _ (Buffer.emits_writeChar char)
  | string text => exact Buffer.emits_writeString text
  | bytes octets => exact Buffer.emits_writeBytes octets
  | _ => exact whole _ _ (Buffer.emits_append _)

/-- A value of a leaf type is written as it is laid out. -/
theorem Leaf.emits_writeValue (schema : Schema) (kind : Leaf) (value : Value)
    (element : Option Ty) :
    Emits (kind.writeValue value) (Piece.wire (value.layout schema (.leaf kind) element)) := by
  unfold Leaf.writeValue
  split
  · next plain =>
      split
      · exact plain.emits_write
      · exact Buffer.emits_fail _ _
  · exact Buffer.emits_fail _ _

namespace Enumeration

/-- A member is written as its name. -/
theorem emits_write (schema : Schema) (type : Ty) (names : List String)
    (described : schema.kind type = .enumeration names) (value : Value) (element : Option Ty) :
    Emits (write type names value) (Piece.wire (value.layout schema type element)) := by
  unfold write
  split
  · next name named =>
      unfold nameOf at named
      split at named
      · next index =>
          split at named
          · next known =>
              split at named
              · cases named
                simp only [Value.layout, described, known, Option.getD_some]
                exact Buffer.emits_writeString name
              · cases named
          · cases named
      · cases named
  · exact Buffer.emits_fail _ _

end Enumeration

/-! ## Layers -/

namespace Value

variable (schema : Schema)

/-- What a place strips off is on the wire as the flag of the stripped option, if there
    is one. An element type that markers name is kept unless an option is left. -/
theorem layout_project (type : Ty) (element : Option Ty) (value : Value) (inner : Option Value)
    (projected : Context.projectThrough type.layers value = .ok inner) :
    (inner = none ∧ type.stripsOption = true ∧
        value.layout schema type element = [.flag false]) ∨
      ∃ core, inner = some core ∧ value.layout schema type element
        = (if type.stripsOption then [.flag true] else [])
          ++ core.layout schema type.unwrapped
              (if type.unwrapped.isOption then none else element) := by
  induction type generalizing value with
  | boxed below inductionHypothesis =>
      obtain ⟨next, rfl, _, later⟩ := (Context.projectThrough_pointer below _ value inner).mp projected
      exact inductionHypothesis next later
  | option below =>
      obtain ⟨rfl, rfl⟩ | ⟨next, rfl, _, later⟩ :=
        (Context.projectThrough_nullable below _ value inner).mp projected
      · exact .inl ⟨rfl, rfl, rfl⟩
      · -- Boxes leave no trace on the wire.
        obtain ⟨core, held, same⟩ := Context.view_pointers
          (fun value type => value.layout schema type) (fun _ _ => rfl) below next inner later
        refine .inr ⟨core, held, ?_⟩
        have kept : (Ty.option below).unwrapped.isOption = below.stripsOption :=
          Ty.isOption_peel below
        rw [kept]
        exact congrArg (Piece.flag true :: ·) (congrFun same _)
  | _ =>
      cases projected
      exact .inr ⟨value, rfl, rfl⟩

/-- A place has one flag on the wire if it strips an option or is marked nullable. It says
    whether anything follows. -/
theorem layoutAt_project (declared : Ty) (markers : List Marker) (value : Value)
    (inner : Option Value)
    (projected : Context.projectThrough declared.layers value = .ok inner) :
    (inner = none ∧ declared.stripsOption = true ∧
        value.layoutAt schema declared markers = [.flag false]) ∨
      ∃ core, inner = some core ∧ value.layoutAt schema declared markers
        = (if declared.stripsOption || markers.contains .nullable then [.flag true] else [])
          ++ core.layout schema declared.unwrapped
              (if declared.unwrapped.isOption then none else Marker.element? markers) := by
  obtain ⟨rfl, strips, laid⟩ | ⟨core, rfl, laid⟩ :=
    layout_project schema declared (Marker.element? markers) value inner projected
  · refine .inl ⟨rfl, strips, ?_⟩
    simp only [layoutAt, laid, Piece.presence, strips]
    rfl
  · refine .inr ⟨core, rfl, ?_⟩
    rw [layoutAt, laid, ← List.append_assoc]
    congr 1
    unfold Piece.presence
    cases declared.stripsOption <;> cases markers.contains .nullable <;> rfl

end Value

/-! ## What the engine writes -/

/-- No custom type is part of the type. -/
def Schema.Plain (schema : Schema) : Ty → Prop :=
  schema.Throughout fun type => ∀ format, schema.kind type ≠ .custom format

namespace Serializer

variable (schema : Schema) (config : Config)

/-- The codec of a shape appends what a value below stripped layers is laid out as, if
    the requests that it makes do. -/
theorem emits_codec (depth : Nat) (visited : List Ty) (type : Ty) (marked : Option Ty)
    (shape : Shape) (shaped : schema.shape type marked = .ok shape) (plain : schema.Plain type)
    (markedPlain : ∀ element, marked = some element → schema.Plain element)
    (each : ∀ declared site value, schema.Plain declared →
      Emits ((build schema config).answer depth visited
          (.encode (.ofPlace declared [] site (some value))))
        (Piece.wire (value.layout schema declared none)))
    (fields : ∀ description value, schema.kind type = .aggregate description →
      Emits ((build schema config).answer depth visited (.encodeFields type description value))
        (Piece.wire (value.layout schema type none)))
    (value : Value) :
    Emits (((shape.codec schema type).encode (some value)).run
        ((build schema config).answer depth visited))
      (Piece.wire (value.layout schema type (if type.isOption then none else marked))) := by
  have fits := schema.fits_of_shape type marked shape shaped
  cases shape with
  | leaf kind =>
      obtain ⟨rfl, _⟩ := fits
      simp only [Shape.codec, Codec.run_encode_leaf]
      refine Buffer.emits_lift fun result expected => ?_
      obtain ⟨_, rfl⟩ := (Value.expect_eq_ok _ value result).mp expected
      exact kind.emits_writeValue schema result _
  | octets =>
      cases fits
      simp only [Shape.codec, Codec.run_encode_octetVector]
      refine Buffer.emits_lift fun result expected => ?_
      obtain ⟨_, rfl⟩ := (Value.expect_eq_ok _ value result).mp expected
      split
      · next octets held =>
          cases opened : result.items (Ty.vector .u8) with
          | error error => rw [opened] at held; cases held
          | ok items =>
              rw [opened] at held
              cases (Value.items_eq_ok _ result items).mp opened
              rw [Value.layout_octets schema _ items octets held]
              exact Buffer.emits_writeBytes octets
      · exact Buffer.emits_fail _ _
  | enumeration names =>
      simp only [Shape.codec, Codec.run_encode_enumeration]
      exact Enumeration.emits_write schema type names fits value _
  | sequence element =>
      obtain ⟨other, declared, described, chosen⟩ := fits
      have elementPlain : schema.Plain element := plain.chosen markedPlain described chosen
      have kept : type.isOption = false := by
        cases type <;> first | rfl | cases described
      simp only [Shape.codec, Codec.run_encode_stream]
      refine Buffer.emits_lift fun items opened => ?_
      cases (Value.items_eq_ok type value items).mp opened
      rw [if_neg (Bool.eq_false_iff.mp kept),
        Value.layout_sequence schema type type element declared marked other described chosen items,
        Piece.wire_cons, Piece.wire_flatMap]
      exact Buffer.emits_bind (Buffer.emits_writeLongLength _)
        (Buffer.emits_forM items fun item _ => each element _ item elementPlain)
  | map key part =>
      obtain ⟨kind, rfl⟩ := schema.kind_map type key part fits
      simp only [Shape.codec, Codec.run_encode_map]
      refine Buffer.emits_lift fun entries opened => ?_
      cases (Value.entries_eq_ok _ value entries).mp opened
      rw [Value.layout_map, Piece.wire_cons, Piece.wire_flatMap]
      simp only [Piece.wire_append]
      refine Buffer.emits_bind (Buffer.emits_writeLength _)
        (Buffer.emits_forM entries fun entry _ => ?_)
      exact Buffer.emits_bind (each key _ entry.1 (plain.part (.key kind key part)))
        (each part _ entry.2 (plain.part (.value kind key part)))
  | nested =>
      obtain ⟨inner, rfl⟩ := fits
      simp only [Shape.codec, Codec.run_encode_innerOption]
      exact each (.option inner) _ value plain
  | aggregate description =>
      simp only [Shape.codec, Codec.run_encode_aggregate]
      rw [Value.layout_aggregate schema type description fits value _ none]
      exact fields description value fits
  | custom format => exact absurd fits (plain.self format)

/-- A flag goes in front of what the codec appends exactly where the layout has one. -/
theorem emits_flagged (depth : Nat) (visited : List Ty) (declared : Ty) (markers : List Marker)
    (shape : Shape) (value : Value) (inner : Option Value)
    (projected : Context.projectThrough declared.layers value = .ok inner)
    (below : ∀ core : Value,
      Emits (((shape.codec schema declared.unwrapped).encode (some core)).run
          ((build schema config).answer depth visited))
        (Piece.wire (core.layout schema declared.unwrapped
          (if declared.unwrapped.isOption then none else Marker.element? markers)))) :
    Emits ((((shape.codec schema declared.unwrapped).flagged
          (declared.stripsOption || markers.contains .nullable)).encode inner).run
        ((build schema config).answer depth visited))
      (Piece.wire (value.layoutAt schema declared markers)) := by
  obtain ⟨rfl, strips, laid⟩ | ⟨core, rfl, laid⟩ :=
    Value.layoutAt_project schema declared markers value inner projected
  · rw [laid, strips, Bool.true_or, Codec.run_encode_flagged]
    exact Buffer.emits_bind (Buffer.emits_writeBool false) Buffer.emits_pure
  · rw [laid]
    cases declared.stripsOption || markers.contains .nullable with
    | false => exact below core
    | true =>
        rw [Codec.run_encode_flagged]
        exact Buffer.emits_bind (Buffer.emits_writeBool true) (below core)

/-- Encoding the fields of an aggregate appends what they are laid out as, if encoding
    at every field's place does. -/
theorem emits_encodeFields {operation : Context → Buffer.Op Unit} (owner : Ty)
    (members : List Value) (index : Nat) (fields : List Field)
    (each : ∀ field ∈ fields, ∀ site value,
      Emits (operation (.ofPlace field.type field.markers site (some value)))
        (Piece.wire (value.layoutAt schema field.type field.markers))) :
    Emits (encodeFields operation owner (.record owner members) index fields)
      (Piece.wire (Field.layouts fields (Value.itemLayouts schema members))) := by
  induction fields generalizing index with
  | nil => exact Buffer.emits_pure
  | cons field rest inductionHypothesis =>
      simp only [Field.layouts, List.flatMap_cons, Piece.wire_append]
      refine Buffer.emits_bind (Buffer.emits_inField _ _ ?_)
        (inductionHypothesis (index + 1) fun other later =>
          each other (List.mem_cons_of_mem _ later))
      refine Buffer.emits_lift fun child got => ?_
      obtain ⟨others, same, listed⟩ := (Field.get_eq_ok owner field _ child).mp got
      cases same
      simp only [Value.itemLayouts_eq_map, List.getElem?_map, listed, Option.map_some]
      exact each field List.mem_cons_self _ child

/-- What is no aggregate of the type has no fields to encode. -/
theorem emits_encodeFields_other {operation : Context → Buffer.Op Unit} (owner : Ty)
    (description : Aggregate) (described : schema.kind owner = .aggregate description)
    (value : Value) (other : ∀ members, value ≠ .record owner members) :
    Emits (encodeFields operation owner value 0 description.fields)
      (Piece.wire (value.layout schema owner none)) := by
  cases listed : description.fields with
  | nil =>
      have laid : value.layout schema owner none = [] := by
        cases value <;> simp only [Value.layout, described, listed, Field.layouts, List.flatMap_nil]
      rw [laid]
      exact Buffer.emits_pure
  | cons field rest =>
      cases got : field.get owner value with
      | ok child =>
          obtain ⟨members, same, _⟩ := (Field.get_eq_ok owner field value child).mp got
          exact absurd same (other members)
      | error error =>
          have failed : encodeFields operation owner value 0 (field :: rest)
              = Step.fail (error.inField owner.name field.name) := by
            simp only [encodeFields, got]
            rfl
          rw [failed]
          exact Buffer.emits_fail _ _

/-- Whatever is encoded at a place without custom types is appended as it is laid out.
    The induction is on how deep requests may nest, for values at places and fields of
    aggregates together. -/
theorem emits_answer (depth : Nat) :
    (∀ visited declared markers site value, schema.Plain declared →
      (∀ element, Marker.element? markers = some element → schema.Plain element) →
      Emits ((build schema config).answer depth visited
          (.encode (.ofPlace declared markers site (some value))))
        (Piece.wire (value.layoutAt schema declared markers))) ∧
    ∀ visited type description value, schema.kind type = .aggregate description →
      schema.Plain type →
      Emits ((build schema config).answer depth visited (.encodeFields type description value))
        (Piece.wire (value.layout schema type none)) := by
  induction depth with
  | zero =>
      exact ⟨fun _ _ _ _ _ _ _ => Buffer.emits_fail _ _, fun _ _ _ _ _ _ => Buffer.emits_fail _ _⟩
  | succ depth inductionHypothesis =>
      obtain ⟨places, aggregates⟩ := inductionHypothesis
      constructor
      · intro visited declared markers site value plain markedPlain
        rw [answer_encode_place]
        refine Buffer.emits_lift fun shape shaped => Buffer.emits_lift fun inner projected => ?_
        have each (declared : Ty) (site : Site) (value : Value) (plain : schema.Plain declared) :
            Emits ((build schema config).answer depth visited
                (.encode (.ofPlace declared [] site (some value))))
              (Piece.wire (value.layout schema declared none)) := by
          have placed := places visited declared [] site value plain fun _ named => by cases named
          rwa [Value.layoutAt_nil] at placed
        have below (core : Value) := emits_codec schema config depth visited declared.unwrapped
          (Marker.element? markers) shape shaped plain.unwrapped markedPlain each
          (fun description value described => aggregates visited _ description value described
            plain.unwrapped) core
        exact emits_flagged schema config depth visited declared markers shape value inner
          projected below
      · intro visited type description value described plain
        simp only [answer]
        split
        · exact Buffer.emits_fail _ _
        · by_cases record : ∃ members, value = .record type members
          · obtain ⟨members, rfl⟩ := record
            simp only [Value.layout, described]
            refine emits_encodeFields schema type members 0 description.fields
              fun field listed site value => ?_
            refine places (type :: visited) field.type field.markers site value
              (plain.part (.field type description described field listed))
              fun element named => ?_
            exact plain.part (.marked type description described field listed element
              (Marker.streamable_of_element? _ _ named))
          · exact emits_encodeFields_other schema type description described value
              fun members same => record ⟨members, same⟩

/-- Appending a value appends its wire form. -/
theorem emits_appending (value : Value) (plain : schema.Plain value.type) :
    Emits ((build schema config).appending value) (value.wire schema) := by
  have placed := (emits_answer schema config
    ((build schema config).nesting (root value.type (some value)))).1 [] value.type []
      (.root value.type) value plain fun _ named => by cases named
  rwa [Value.layoutAt_nil] at placed

/-- Encoding a value is appending it to an empty buffer. -/
theorem encoded_root (value : Value) :
    (build schema config).encoded (root value.type (some value))
      = closed (fun _ buffer => buffer.finish)
          ((build schema config).appending value (build schema config).writer) := rfl

/-- The engine writes the wire format: whatever a serializer without rules of a user's
    has been asked before, the bytes of every value that it succeeds to encode are those
    of the reference. -/
theorem encode_eq_wire (value : Value) (plain : schema.Plain value.type) (memory later : Memory)
    (reached : (build schema config).Reached memory) (bytes : Bytes)
    (succeeded : (build schema config).encode value memory = .ok bytes later) :
    bytes = value.wire schema := by
  obtain ⟨after, _, same⟩ := encode_eq_encoded (builtin_static schema config)
    (builtin_makes schema config) value
    (coherent_of_reached (builtin_static schema config) (builtin_makes schema config) memory reached)
  rw [same, encoded_root] at succeeded
  cases appended : (build schema config).appending value (build schema config).writer with
  | error error buffer =>
      rw [appended] at succeeded
      cases succeeded
  | ok result buffer =>
      have written := (emits_appending schema config value plain).appends [] config buffer appended
      rw [appended, written, List.append_nil] at succeeded
      have reversed : ((value.wire schema).reverse).reverse = bytes := by
        cases succeeded
        rfl
      rw [← reversed, List.reverse_reverse]

/-- A schema of an enumeration and an aggregate with a field that is marked nullable. -/
def cards : Schema where
  entries :=
    [{ type := .named "Suit", definition := .enumeration ["Hearts", "Spades"] },
      { type := .named "Hand"
        definition := .aggregate
          { fields := [⟨"suits", .vector (.named "Suit"), [], 0⟩,
              ⟨"best", .option (.named "Suit"), [], 1⟩, ⟨"bid", .i8, [.nullable], 3⟩] } }]

/-- A hand with one member that does not travel. -/
def hand : Value :=
  .record (.named "Hand")
    [.sequence (.vector (.named "Suit")) [.member (.named "Suit") 1], .absent (.named "Suit"),
      .u64 5, .i8 7]

/-- The hand is encoded, and what it is encoded as is its wire form. -/
theorem encode_eq_wire_hand :
    cards.Plain hand.type ∧ (build cards {}).Reached (build cards {}).start ∧
      ∃ bytes later, (build cards {}).encode hand (build cards {}).start = .ok bytes later ∧
        bytes = hand.wire cards ∧
        bytes = [0, 0, 0, 0, 0, 0, 0, 1, 0, 0, 0, 6, 83, 112, 97, 100, 101, 115, 0, 1, 7] := by
  have plain : cards.Plain hand.type := by
    unfold Schema.Plain
    refine Schema.throughout_of_closed
      [.named "Hand", .vector (.named "Suit"), .named "Suit", .option (.named "Suit"), .i8] ?_ ?_ ?_
    · exact List.mem_cons_self
    · decide
    · intro type listed format described
      have told : (cards.kind type).definition? = some (.custom format) := by
        rw [described]
        rfl
      obtain ⟨entry, found, custom⟩ := cards.entry_of_kind type _ told
      have among := List.mem_of_find?_eq_some found
      simp only [cards, List.mem_cons, List.not_mem_nil, or_false] at among
      obtain rfl | rfl := among <;> cases custom
  refine ⟨plain, .start, ?_⟩
  cases ended : (build cards {}).encode hand (build cards {}).start with
  | error error later =>
      have succeeds :
          Step.succeeded ((build cards {}).encode hand (build cards {}).start) = true := by
        decide +kernel
      rw [ended] at succeeds
      cases succeeds
  | ok bytes later =>
      have same := encode_eq_wire cards {} hand plain _ later .start bytes ended
      exact ⟨bytes, later, rfl, same, same.trans (by decide)⟩

end Serializer

end Wireform
