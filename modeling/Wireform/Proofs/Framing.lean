import Wireform.Proofs.Forward
import Wireform.Proofs.Registrations
import Wireform.Proofs.Soundness
import Wireform.Proofs.Spelling

/-!
# Frames, octet by octet

A frame is the identifier of a packet as a short text and then the packet itself, encoded as it
would be on its own. Nothing stands between the two and nothing behind. So what is known of texts
and of the encoding of packets carries over to frames: which packets can be written, which octets
can be read, what is read from what was written, and that no octet at the end can be missing or be
added.

All of it is about derived types and a serializer with built-in rules only, whatever the limits are.
Limits are not looked at on writing. A frame that is written is read only where they admit the
length of the identifier, which counts as text, and every length in the packet.
-/

namespace Wireform

/-! ## Short texts -/

namespace Buffer

variable {config : Config}

/-- The octets of a short text: how many there are, in two octets, and then they themselves. -/
def shortText (text : String) : Bytes :=
  Bytes.bigEndian 2 (Text.Utf8.encode text).length ++ Text.Utf8.encode text

/-- A text whose length fits in two octets is written. -/
theorem writes_writeShortString (text : String) (fits : (Text.Utf8.encode text).length < 0x10000) :
    Writes (writeShortString text) (shortText text) := by
  unfold writeShortString
  rw [if_pos fits]
  exact writes_bind (writes_append _) (writes_append _)

/-- A text whose length does not fit in two octets is not written. -/
theorem writeShortString_of_long (text : String)
    (long : ¬ (Text.Utf8.encode text).length < 0x10000) :
    writeShortString text = fail (.lengthOverflow (Text.Utf8.encode text).length) := by
  unfold writeShortString
  rw [if_neg long]

/-- A text whose length fits and is admitted is read back. -/
theorem reads_readShortString (text : String) (fits : (Text.Utf8.encode text).length < 0x10000)
    (admitted : config.stringLengths.contains (Text.Utf8.encode text).length = true) :
    Reads config readShortString (shortText text) text := by
  have decoded : Reads config (asText (Text.Utf8.encode text)) [] text := by
    rw [asText, Text.Utf8.decode_encode]
    exact reads_pure text
  refine reads_bind (reads_readNumber_of_lt config 2 _ fits) (reads_limits ?_)
  rw [if_pos admitted]
  exact reads_bind_pure (reads_take config _) decoded

/-- A text is read only from its own octets, and only if its length is admitted. -/
theorem takes_readShortString :
    Takes config readShortString fun text front => front = shortText text ∧
      (Text.Utf8.encode text).length < 0x10000 ∧
      config.stringLengths.contains (Text.Utf8.encode text).length = true := by
  refine takes_bind (takes_readNumber 2) fun length front spelled => takes_limits ?_
  obtain ⟨rfl, fits⟩ := spelled
  split
  · next admitted =>
      refine takes_bind (takes_take length) fun octets behind same => ?_
      obtain ⟨rfl, rfl⟩ := same
      unfold asText
      split
      · next text decoded =>
          have own := Text.Utf8.encode_of_decode decoded
          refine takes_pure text ?_
          rw [shortText, own, List.append_nil]
          exact ⟨rfl, fits, admitted⟩
      · exact takes_fail _
  · exact takes_fail _

/-- A text is its length, which is judged first, and as many octets. -/
theorem forward_readShortString : Forward config readShortString := by
  refine forward_bind (forward_readNumber 2) fun length => forward_limits ?_
  split
  · exact forward_bind (forward_take length) forward_asText
  · exact forward_fail _

/-- Of a text that is read no octet can be missing. -/
theorem lacks_readShortString (text : String) (fits : (Text.Utf8.encode text).length < 0x10000)
    (admitted : config.stringLengths.contains (Text.Utf8.encode text).length = true)
    (rest shorter : Bytes) (inside : shorter <+: shortText text ++ rest)
    (short : shorter.length < (shortText text).length) : Lacks config readShortString shorter := by
  obtain ⟨front, behind, split, left, _, lacks⟩ := forward_readShortString.accepted _ _ _
    (reads_readShortString text fits admitted rest)
  cases left
  obtain rfl : shortText text = front := List.append_cancel_right split
  exact lacks_of_isPrefix lacks inside short

end Buffer

namespace Schema

variable {schema : Schema} {type : Ty}

/-! ## Packet types -/

/-- The type is derived, and what fills in for members that do not travel is of their types. -/
structure Shaped (schema : Schema) (type : Ty) : Prop where
  derived : schema.Derived type
  blanks : ∀ entry, schema.find? type = some entry → ∀ member ∈ entry.members,
    ∀ blank, member.blank = some blank → blank.type = member.type

/-- A type that is derived through and through is decodable. -/
theorem decodable_of_shaped (shaped : schema.Throughout schema.Shaped type) :
    schema.Throughout schema.Decodable type :=
  shaped.mono fun part own => decodable_of_derived part own.derived own.blanks

/-- A type all of whose members travel has sets and maps of what travels whole. -/
theorem keyed_of_whole (whole : schema.Whole type) : schema.Throughout schema.Keyed type := by
  intro part contained
  have wholePart : schema.Whole part := fun other inner => whole other (contained.trans inner)
  cases part with
  | sequence kind element => exact fun _ => wholePart.part (.element kind element)
  | map kind key value => exact wholePart.part (.key kind key value)
  | _ => trivial

end Schema

namespace Serializer

variable {schema : Schema} {config : Config} {type : Ty}

/-- What is taken off for a decodable type is of the type, so there is nothing to check. -/
theorem takingFrom_of_decodable (decodable : schema.Throughout schema.Decodable type)
    (bytes : Bytes) :
    (build schema config).takingFrom type (Buffer.reader bytes config)
      = (build schema config).taking type (Buffer.reader bytes config) := by
  have yields := yields_taking config schema type decodable bytes
  rw [takingFrom, Step.bind_apply]
  cases ended : (build schema config).taking type (Buffer.reader bytes config) with
  | error error stopped => rfl
  | ok value after =>
      rw [ended] at yields
      have own : value.expect type = .ok value :=
        (Value.expect_eq_ok type value value).mpr ⟨yields.1.type_eq, rfl⟩
      change Step.lift (value.expect type) after = _
      rw [own]
      rfl

end Serializer

namespace Packet

variable {α : Type}

/-- How work with packets ends whose result or failure is that of a serializer. -/
def settled : Except Wireform.Error α → Op α
  | .ok result => fun memory => .ok result memory
  | .error cause => fun memory => .error (.codec cause) memory

/-- Only a changed result of a serializer is a success. -/
theorem settled_map_eq_ok {β : Type} {change : α → β} {outcome : Except Wireform.Error α}
    {result : β} {memory after : Memory}
    (succeeded : settled (change <$> outcome) memory = .ok result after) :
    ∃ found, outcome = .ok found ∧ change found = result := by
  cases outcome with
  | ok found => cases succeeded; exact ⟨found, rfl, rfl⟩
  | error cause => cases succeeded

namespace Registry

variable {schema : Schema} {config : Config} {registry : Registry} {memory : Memory}

/-- Whatever a registry has been used for, its serializer remembers the right codecs. -/
theorem coherent_of_reached (built : registry.serializer = .build schema config)
    (reached : Reached registry memory) : (Serializer.build schema config).Coherent memory := by
  refine keeps_of_reached reached ?_ ?_ ?_
  · rw [built]
    exact Serializer.coherent_of_reached (Serializer.builtin_static schema config)
      (Serializer.builtin_makes schema config)
  · exact fun memory event => Serializer.coherent_report memory event
  · rw [built]
    exact fun call memory placed coherent =>
      (call.run_eq_answered (Serializer.builtin_static schema config)
        (Serializer.builtin_makes schema config) placed memory coherent).2

/-! ## Writing and reading -/

section
variable (built : registry.serializer = .build schema config)
  (coherent : (Serializer.build schema config).Coherent memory)

include built coherent

/-- A packet whose type is registered under an identifier that fits is written behind the identifier
    as it is encoded on its own. -/
theorem write_eq_settled (packet : Value) (plain : schema.Plain packet.type) (id : String)
    (known : registry.idOf? packet.type = some id)
    (fits : (Text.Utf8.encode id).length < 0x10000) :
    ∃ later, registry.write packet memory
      = settled ((Buffer.shortText id ++ ·) <$>
          (Serializer.build schema config).encoded (Serializer.root packet.type (some packet)))
        later := by
  obtain ⟨later, _, same⟩ := Serializer.encodeInto_eq_appending
    (Serializer.builtin_static schema config) (Serializer.builtin_makes schema config) packet
    ⟨.written ((Buffer.shortText id).reverse ++ []), config⟩ coherent
  obtain ⟨emitted, outcome, -, appending⟩ :=
    Serializer.emits_appending schema config packet plain
  have header : Buffer.writeShortString id (Serializer.build schema config).writer
      = .ok () ⟨.written ((Buffer.shortText id).reverse ++ []), config⟩ :=
    Buffer.writes_writeShortString id fits [] config
  have alone : (Serializer.build schema config).appending packet
      (Serializer.build schema config).writer
        = Step.lift outcome ⟨.written (emitted.reverse ++ []), config⟩ := appending [] config
  refine ⟨later, ?_⟩
  simp only [write, known, built, header, same, Serializer.encoded_root, alone, appending]
  cases outcome with
  | error error => rfl
  | ok done =>
      simp only [Step.lift, Step.carry, Serializer.closed, Buffer.finish, List.append_nil,
        List.reverse_append, List.reverse_reverse, settled]
      rfl

/-- Behind an identifier under which a type is registered everything is decoded as on its own. -/
theorem read_eq_settled (id : String) (type : Ty) (known : registry.typeOf? id = some type)
    (decodable : schema.Throughout schema.Decodable type)
    (fits : (Text.Utf8.encode id).length < 0x10000)
    (admitted : config.stringLengths.contains (Text.Utf8.encode id).length = true) (rest : Bytes) :
    ∃ later, registry.read (Buffer.shortText id ++ rest) memory
      = settled (Frame.mk id type <$> (Serializer.build schema config).decoded type rest)
        later := by
  obtain ⟨later, _, same⟩ := Serializer.decodeType_eq_taking
    (Serializer.builtin_static schema config) (Serializer.builtin_makes schema config) type
    (Buffer.reader rest config) coherent
  have header : Buffer.readShortString
      ((Serializer.build schema config).reader (Buffer.shortText id ++ rest))
        = .ok id (Buffer.reader rest config) := Buffer.reads_readShortString id fits admitted rest
  refine ⟨later, ?_⟩
  simp only [read, built, header, known, same, Serializer.decoded]
  rw [← Serializer.takingFrom_of_decodable decodable rest]
  change _ = settled (_ <$> Serializer.closed _
    ((Serializer.build schema config).takingFrom type (Buffer.reader rest config))) later
  cases (Serializer.build schema config).takingFrom type (Buffer.reader rest config) with
  | error error stopped => rfl
  | ok value after =>
      simp only [Step.carry, Serializer.closed]
      cases after.ensureConsumed <;> rfl

/-- A packet is encoded on its own as if nothing were remembered. -/
theorem encode_iff (packet : Value) (payload : Bytes) :
    (∃ later, registry.serializer.encode packet memory = .ok payload later) ↔
      (Serializer.build schema config).encoded (Serializer.root packet.type (some packet))
        = .ok payload := by
  obtain ⟨later, _, same⟩ := Serializer.encode_eq_encoded (Serializer.builtin_static schema config)
    (Serializer.builtin_makes schema config) packet coherent
  rw [built, same]
  exact Step.exists_lift_eq_ok _ _ later

/-- A packet is decoded on its own as if nothing were remembered. -/
theorem decode_iff (type : Ty) (bytes : Bytes) (packet : Value) :
    (∃ later, registry.serializer.decode type bytes memory = .ok packet later) ↔
      (Serializer.build schema config).decoded type bytes = .ok packet := by
  obtain ⟨later, _, same⟩ := Serializer.decode_eq_decoded (Serializer.builtin_static schema config)
    (Serializer.builtin_makes schema config) type bytes coherent
  rw [built, same]
  exact Step.exists_lift_eq_ok _ _ later

/-- A packet is written exactly if there is an identifier that fits and the packet is encoded. -/
theorem write_iff (packet : Value) (plain : schema.Plain packet.type) (frame : Bytes) :
    (∃ later, registry.write packet memory = .ok frame later) ↔
      ∃ id payload, registry.idOf? packet.type = some id ∧
        (Text.Utf8.encode id).length < 0x10000 ∧
        (Serializer.build schema config).encoded (Serializer.root packet.type (some packet))
          = .ok payload ∧
        frame = Buffer.shortText id ++ payload := by
  constructor
  · rintro ⟨after, succeeded⟩
    cases known : registry.idOf? packet.type with
    | none =>
        simp only [write, known] at succeeded
        cases succeeded
    | some id =>
        by_cases fits : (Text.Utf8.encode id).length < 0x10000
        · obtain ⟨later, same⟩ := write_eq_settled built coherent packet plain id known fits
          obtain ⟨payload, encoded, rfl⟩ := settled_map_eq_ok (same.symm.trans succeeded)
          exact ⟨id, payload, rfl, fits, encoded, rfl⟩
        · simp only [write, known, Buffer.writeShortString_of_long id fits] at succeeded
          cases succeeded
  · rintro ⟨id, payload, known, fits, encoded, rfl⟩
    obtain ⟨later, same⟩ := write_eq_settled built coherent packet plain id known fits
    rw [encoded] at same
    exact ⟨later, same⟩

/-- A frame is read exactly from an identifier that is admitted and registered and from what the
    packet is decoded from. -/
theorem read_iff (frame : Frame) (decodable : schema.Throughout schema.Decodable frame.type)
    (bytes : Bytes) :
    (∃ later, registry.read bytes memory = .ok frame later) ↔
      ∃ rest, bytes = Buffer.shortText frame.id ++ rest ∧
        (Text.Utf8.encode frame.id).length < 0x10000 ∧
        config.stringLengths.contains (Text.Utf8.encode frame.id).length = true ∧
        registry.typeOf? frame.id = some frame.type ∧
        (Serializer.build schema config).decoded frame.type rest = .ok frame.value := by
  constructor
  · rintro ⟨after, succeeded⟩
    obtain ⟨known, buffer, _, header, _⟩ :=
      (registry.read_eq_ok bytes frame memory after).mp succeeded
    rw [built] at header
    obtain ⟨_, rest, rfl, _, rfl, fits, admitted⟩ :=
      Buffer.takes_readShortString bytes frame.id buffer header
    obtain ⟨later, same⟩ := read_eq_settled built coherent frame.id frame.type known decodable fits
      admitted rest
    obtain ⟨value, decoded, own⟩ := settled_map_eq_ok (same.symm.trans succeeded)
    refine ⟨rest, rfl, fits, admitted, known, ?_⟩
    rw [decoded, ← own]
  · rintro ⟨rest, rfl, fits, admitted, known, decoded⟩
    obtain ⟨later, same⟩ := read_eq_settled built coherent frame.id frame.type known decodable fits
      admitted rest
    rw [decoded] at same
    exact ⟨later, same⟩

/-- Nothing can be missing at the end of what a frame is read from, and nothing be added. -/
theorem read_ends (frame : Frame) (shaped : schema.Throughout schema.Shaped frame.type)
    (bytes : Bytes) (after : Memory) (succeeded : registry.read bytes memory = .ok frame after) :
    (∀ shorter, shorter <+: bytes → shorter ≠ bytes → ∃ error later,
      registry.read shorter memory = .error (.codec error) later ∧
        error.rootCause = .endOfBuffer) ∧
    ∀ more, more ≠ [] → ∃ later,
      registry.read (bytes ++ more) memory = .error (.codec (.extraData more.length)) later := by
  have decodable := Schema.decodable_of_shaped shaped
  have legible : schema.Throughout schema.Legible frame.type :=
    shaped.mono fun part own => own.derived.legible
  obtain ⟨rest, rfl, fits, admitted, known, decoded⟩ :=
    (read_iff built coherent frame decodable bytes).mp ⟨after, succeeded⟩
  obtain ⟨fewer, further⟩ :=
    Serializer.decoded_forward frame.type legible rest frame.value decoded
  refine ⟨fun shorter inside proper => ?_, fun more some => ?_⟩
  · by_cases short : shorter.length < (Buffer.shortText frame.id).length
    · -- The identifier itself ends too soon.
      obtain ⟨error, stopped, failed, cause⟩ :=
        Buffer.lacks_readShortString frame.id fits admitted rest shorter inside short
      refine ⟨error, memory, ?_, cause⟩
      have header : Buffer.readShortString ((Serializer.build schema config).reader shorter)
          = .error error stopped := failed
      simp only [read, built, header]
    · obtain ⟨part, rfl⟩ := List.prefix_of_prefix_length_le (List.prefix_append _ rest) inside
        (Nat.le_of_not_lt short)
      obtain ⟨error, failed, cause⟩ := fewer part ((List.prefix_append_right_inj _).mp inside)
        fun same => proper (congrArg _ same)
      obtain ⟨later, same⟩ := read_eq_settled built coherent frame.id frame.type known decodable
        fits admitted part
      rw [failed] at same
      exact ⟨error, later, same, cause⟩
  · obtain ⟨later, same⟩ := read_eq_settled built coherent frame.id frame.type known decodable
      fits admitted (rest ++ more)
    rw [further more some, ← List.append_assoc] at same
    exact ⟨later, same⟩

end

/-! ## Framing is exact -/

/-- Whatever the registry has been used for, a packet is read from the octets under an identifier,
    and it can be taken for what it is and for nothing else. -/
structure GivesBack (registry : Registry) (bytes : Bytes) (id : String) (packet : Value) :
    Prop where
  whole : ∀ memory, Reached registry memory → ∃ later,
    registry.read bytes memory = .ok ⟨id, packet.type, packet⟩ later
  own : ∀ memory, Reached registry memory → ∃ later,
    registry.readAs packet.type bytes memory = .ok packet later
  other : ∀ memory, Reached registry memory → ∀ type, type ≠ packet.type → ∃ later,
    registry.readAs type bytes memory = .error (.codec (.typeMismatch type.name)) later

/-- A packet that is read with its own type can be taken for what it is and for nothing else. -/
theorem givesBack_of_read (bytes : Bytes) (id : String) (packet : Value)
    (read : ∀ memory, Reached registry memory → ∃ later,
      registry.read bytes memory = .ok ⟨id, packet.type, packet⟩ later) :
    registry.GivesBack bytes id packet where
  whole := read
  own memory reached := by
    obtain ⟨later, found⟩ := read memory reached
    have taken : (Frame.mk id packet.type packet).into packet.type = .ok packet :=
      (Frame.into_eq_ok _ _ _).mpr ⟨rfl, rfl⟩
    refine ⟨later, ?_⟩
    change EStateM.bind _ _ memory = _
    simp only [EStateM.bind, found, taken]
    rfl
  other memory reached type different := by
    obtain ⟨later, found⟩ := read memory reached
    have refused : (Frame.mk id packet.type packet).into type
        = .error (.codec (.typeMismatch type.name)) := by
      simp only [Frame.into, Value.expect, if_neg different.symm]
    refine ⟨later, ?_⟩
    change EStateM.bind _ _ memory = _
    simp only [EStateM.bind, found, refused]
    rfl

/-- The registry frames packets exactly, with what its serializer remembers at the time. -/
structure FramesExactly (schema : Schema) (config : Config) (registry : Registry)
    (memory : Memory) : Prop where
  /-- A packet is written exactly if its type is registered, under an identifier whose length fits
      in two octets, and it can be encoded. The frame is the identifier and then what the packet is
      encoded as. -/
  writes : ∀ packet, schema.Throughout schema.Shaped packet.type → ∀ frame,
    (∃ later, registry.write packet memory = .ok frame later) ↔
      ∃ id payload later, registry.idOf? packet.type = some id ∧
        (Text.Utf8.encode id).length < 0x10000 ∧
        registry.serializer.encode packet memory = .ok payload later ∧
        frame = Buffer.shortText id ++ payload
  /-- A frame is read exactly from an identifier that is registered, of a length that the limits
      admit, and then octets that stand for the packet, to the last one. -/
  reads : ∀ frame : Frame, schema.Throughout schema.Shaped frame.type → ∀ bytes,
    (∃ later, registry.read bytes memory = .ok frame later) ↔
      ∃ rest later, bytes = Buffer.shortText frame.id ++ rest ∧
        (Text.Utf8.encode frame.id).length < 0x10000 ∧
        config.stringLengths.contains (Text.Utf8.encode frame.id).length = true ∧
        registry.typeOf? frame.id = some frame.type ∧
        registry.serializer.decode frame.type rest memory = .ok frame.value later
  /-- An identifier under which nothing is registered is refused whatever follows it. -/
  unknown : ∀ id rest, (Text.Utf8.encode id).length < 0x10000 →
    config.stringLengths.contains (Text.Utf8.encode id).length = true →
    registry.contains id = false →
    registry.read (Buffer.shortText id ++ rest) memory = .error (.unknownId id) memory
  /-- If any octets at the end are missing there are too few, and if any are added they are left
      over. -/
  ends : ∀ (frame : Frame) bytes after, schema.Throughout schema.Shaped frame.type →
    registry.read bytes memory = .ok frame after →
    (∀ shorter, shorter <+: bytes → shorter ≠ bytes → ∃ error later,
      registry.read shorter memory = .error (.codec error) later ∧
        error.rootCause = .endOfBuffer) ∧
    ∀ more, more ≠ [] → ∃ later,
      registry.read (bytes ++ more) memory = .error (.codec (.extraData more.length)) later
  /-- What was written is read again under the same identifier, if the limits admit it and every
      length in the packet. A packet whose members all travel is the same as before; otherwise
      blanks are in the members that do not, and sets and maps must be of what travels whole. -/
  returns : ∀ packet frame after, schema.Throughout schema.Shaped packet.type →
    packet.Typed schema packet.type → registry.write packet memory = .ok frame after →
    ∃ id, registry.idOf? packet.type = some id ∧
      (config.stringLengths.contains (Text.Utf8.encode id).length = true →
        (∀ piece ∈ packet.layout schema packet.type none, piece.Admitted config) →
        (schema.Whole packet.type → registry.GivesBack frame id packet) ∧
          (schema.Throughout schema.Keyed packet.type →
            registry.GivesBack frame id (packet.restored schema)))

/-- Framing is exact, whatever was registered and done before, for every serializer with built-in
    rules only. -/
theorem frames_exactly (schema : Schema) (config : Config) (registry : Registry)
    (built : registry.serializer = .build schema config) (memory : Memory)
    (reached : Reached registry memory) : FramesExactly schema config registry memory := by
  have coherent (memory : Memory) (reached : Reached registry memory) :
      (Serializer.build schema config).Coherent memory := coherent_of_reached built reached
  have decodable {type : Ty} (shaped : schema.Throughout schema.Shaped type) :=
    Schema.decodable_of_shaped shaped
  have plain {type : Ty} (shaped : schema.Throughout schema.Shaped type) : schema.Plain type :=
    shaped.mono fun part own => own.derived.not_custom
  constructor
  case writes =>
    intro packet shaped frame
    rw [write_iff built (coherent memory reached) packet (plain shaped) frame]
    have alone := encode_iff built (coherent memory reached) packet
    constructor
    · rintro ⟨id, payload, known, fits, encoded, rfl⟩
      obtain ⟨later, same⟩ := (alone payload).mpr encoded
      exact ⟨id, payload, later, known, fits, same, rfl⟩
    · rintro ⟨id, payload, later, known, fits, same, rfl⟩
      exact ⟨id, payload, known, fits, (alone payload).mp ⟨later, same⟩, rfl⟩
  case reads =>
    intro frame shaped bytes
    rw [read_iff built (coherent memory reached) frame (decodable shaped) bytes]
    have alone (rest : Bytes) :=
      decode_iff built (coherent memory reached) frame.type rest frame.value
    constructor
    · rintro ⟨rest, rfl, fits, admitted, known, decoded⟩
      obtain ⟨later, same⟩ := (alone rest).mpr decoded
      exact ⟨rest, later, rfl, fits, admitted, known, same⟩
    · rintro ⟨rest, later, rfl, fits, admitted, known, same⟩
      exact ⟨rest, rfl, fits, admitted, known, (alone rest).mp ⟨later, same⟩⟩
  case unknown =>
    intro id rest fits admitted free
    have header : Buffer.readShortString
        ((Serializer.build schema config).reader (Buffer.shortText id ++ rest))
          = .ok id (Buffer.reader rest config) :=
      Buffer.reads_readShortString id fits admitted rest
    have unregistered : registry.typeOf? id = none := by
      simpa [contains] using free
    simp only [read, built, header, unregistered]
  case ends =>
    intro frame bytes after shaped succeeded
    exact read_ends built (coherent memory reached) frame shaped bytes after succeeded
  case returns =>
    intro packet frame after shaped typed written
    obtain ⟨id, payload, known, fits, encoded, rfl⟩ :=
      (write_iff built (coherent memory reached) packet (plain shaped) frame).mp ⟨after, written⟩
    refine ⟨id, known, fun admitted parts => ?_⟩
    have inverse : registry.typeOf? id = some packet.type :=
      ((consistent_of_reached reached).typeOf?_iff_idOf? id packet.type).mpr known
    have returned (keyed : schema.Throughout schema.Keyed packet.type) :
        registry.GivesBack (Buffer.shortText id ++ payload) id (packet.restored schema) := by
      have own : (packet.restored schema).type = packet.type := Value.type_restored schema packet
      have decoded := Serializer.decoded_of_encoded schema config packet
        (fun part contained => ⟨(shaped part contained).derived, keyed part contained⟩) typed parts
        payload encoded
      refine givesBack_of_read _ id _ fun other again => ?_
      rw [own]
      exact (read_iff built (coherent other again) ⟨id, packet.type, packet.restored schema⟩
        (decodable shaped) _).mpr ⟨payload, rfl, fits, admitted, inverse, decoded⟩
    refine ⟨fun whole => ?_, returned⟩
    have same : packet.restored schema = packet :=
      Value.restored_of_whole typed (shaped.mono fun part own => own.derived) whole
    rw [← same]
    exact returned (Schema.keyed_of_whole whole)

/-- A plot is written and read again where no text may be longer than four octets. Without its last
    octet the frame is too short, and what stands behind another identifier is not looked at. -/
theorem frames_exactly_plot :
    let config : Config := { stringLengths := .upTo 4 }
    let plot := Value.record (.named "Plot") [.i32 3, .present (.string "ann")]
    let bytes : Bytes := [0, 4, 112, 108, 111, 116, 0, 0, 0, 3, 1, 0, 0, 0, 3, 97, 110, 110]
    let plots := single (.build Serializer.groves config) (.named "Plot") "plot"
    Reached plots.1 plots.2 ∧ plots.1.GivesBack bytes "plot" plot ∧
      (∃ later, plots.1.write plot plots.2 = .ok bytes later) ∧
      (∃ error later, plots.1.read bytes.dropLast plots.2 = .error (.codec error) later ∧
        error.rootCause = .endOfBuffer) ∧
      plots.1.read [0, 1, 120, 7] plots.2 = .error (.unknownId "x") plots.2 := by
  intro config plot bytes plots
  have invertible := Serializer.groves_invertible (.named "Plot") (by decide)
  have shaped : Serializer.groves.Throughout Serializer.groves.Shaped (.named "Plot") :=
    fun part contained => ⟨(invertible part contained).1, Serializer.groves_blanks part⟩
  have whole : Serializer.groves.Whole (.named "Plot") := by
    refine Schema.throughout_of_closed [.named "Plot", .option .string, .string, .i32]
      List.mem_cons_self (by decide) fun type listed => ?_
    simp only [List.mem_cons, List.not_mem_nil, or_false] at listed
    obtain rfl | rfl | rfl | rfl := listed
    · rintro entry ⟨⟩
      simp [Catalogue.declared, Catalogue.member]
    all_goals rintro entry ⟨⟩
  have typed : plot.Typed Serializer.groves (.named "Plot") :=
    Serializer.grove_typed (.named "Plot", plot)
      (List.mem_cons_of_mem _ List.mem_cons_self)
  have parts : ∀ piece ∈ plot.layout Serializer.groves (.named "Plot") none,
      piece.Admitted config := by
    decide +kernel
  have begun := reached_single (.build Serializer.groves config) (.named "Plot") "plot"
  have exact := frames_exactly Serializer.groves config plots.1 rfl plots.2 begun
  obtain ⟨later, written⟩ := exists_of_result?
    (show result? (plots.1.write plot plots.2) = some bytes by decide +kernel)
  obtain ⟨id, known, returned⟩ := exact.returns plot bytes later shaped typed written
  cases known
  have back := (returned (by decide +kernel) parts).1 whole
  obtain ⟨after, found⟩ := back.whole plots.2 begun
  obtain ⟨fewer, -⟩ := exact.ends ⟨"plot", .named "Plot", plot⟩ bytes after shaped found
  exact ⟨begun, back, ⟨later, written⟩,
    fewer bytes.dropLast (List.dropLast_prefix bytes) (by decide),
    exact.unknown "x" [7] (by decide +kernel) (by decide +kernel) (by decide +kernel)⟩

end Registry

end Packet

end Wireform
