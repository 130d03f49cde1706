import Wireform.Proofs.Counterparts
import Wireform.Proofs.Decoded

/-!
# One format for all collections

Whatever kind of collection is decoded, what is read is a number and then as many elements, and
nothing that is read depends on the kind. Only when all elements are there they are gathered, and
only an array can refuse them. So the kinds decode the same bytes, stop at the same place and fail
for the same reasons, and they differ in what they keep. The same goes for the two kinds of maps.

A set or a map need not have been written in the order in which it is kept. Encoding it again brings
an ordered one into the one order that its elements have, so that it no longer matters how it
came in.
-/

namespace Wireform

open Buffer (Takes Writes)

/-- Every outcome is a result or a failure that is lifted to where it leaves off. -/
theorem Step.exists_lift {σ α : Type} (outcome : EStateM.Result Error σ α) :
    ∃ known left, outcome = Step.lift known left := by
  cases outcome with
  | ok result left => exact ⟨.ok result, left, rfl⟩
  | error error left => exact ⟨.error error, left, rfl⟩

/-! ## Types of elements -/

namespace Schema

variable {schema : Schema}

/-- What holds of a type and throughout its parts holds throughout it. -/
theorem throughout_of_parts {holds : Ty → Prop} {type : Ty} (own : holds type)
    (parts : ∀ part, schema.Part type part → schema.Throughout holds part) :
    schema.Throughout holds type := by
  intro part contained
  obtain rfl | ⟨middle, first, others⟩ := contained.cases_head
  · exact own
  · exact parts middle first part others

/-- A collection is restorable if its elements are. -/
theorem restorable_sequence {element : Ty} (elements : schema.Throughout schema.Restorable element)
    (kind : SequenceKind) : schema.Throughout schema.Restorable (.sequence kind element) :=
  throughout_of_parts ⟨.sequence kind element, .sequence kind element⟩ fun part contained => by
    cases contained with
    | element => exact elements
    | field _ _ described => cases described
    | marked _ _ described => cases described

/-- A map is restorable if its keys and its values are. -/
theorem restorable_map {key part : Ty} (keys : schema.Throughout schema.Restorable key)
    (parts : schema.Throughout schema.Restorable part) (kind : MapKind) :
    schema.Throughout schema.Restorable (.map kind key part) :=
  throughout_of_parts ⟨.map kind key part, .map kind key part⟩ fun part contained => by
    cases contained with
    | key => exact keys
    | value => exact parts
    | field _ _ described => cases described
    | marked _ _ described => cases described

end Schema

/-! ## Wire forms -/

namespace Value

variable (schema : Schema)

/-- A collection is its number of elements and each of them in turn. -/
theorem wire_sequence (kind : SequenceKind) {element : Ty} (other : element ≠ .u8)
    (items : List Value) (types : ∀ item ∈ items, item.type = element) :
    (sequence (.sequence kind element) items).wire schema
      = Bytes.bigEndian 8 items.length ++ items.flatMap (wire schema) := by
  have octets : Ty.sequence kind element ≠ Ty.vector .u8 := fun same =>
    other (Ty.sequence.inj same).2
  have each : ∀ item ∈ items, Piece.wire (item.layout schema element none) = item.wire schema :=
    fun item listed => by rw [wire, types item listed]
  rw [wire, type, layout_sequence schema _ _ element (some element) none octets rfl rfl,
    Piece.wire_cons, Piece.wire_flatMap, List.flatMap_congr each, Piece.bytes]

/-- A map is its number of entries and each key and each value in turn. -/
theorem wire_map (kind : MapKind) {key part : Ty} (entries : List (Value × Value))
    (types : ∀ entry ∈ entries, entry.1.type = key ∧ entry.2.type = part) :
    (map (.map kind key part) entries).wire schema
      = Bytes.bigEndian 4 entries.length ++ entries.flatMap fun entry =>
          entry.1.wire schema ++ entry.2.wire schema := by
  have each : ∀ entry ∈ entries,
      Piece.wire (entry.1.layout schema key none ++ entry.2.layout schema part none)
        = entry.1.wire schema ++ entry.2.wire schema := fun entry listed => by
    rw [Piece.wire_append, wire, wire, (types entry listed).1, (types entry listed).2]
  rw [wire, type, layout_map, Piece.wire_cons, Piece.wire_flatMap, List.flatMap_congr each,
    Piece.bytes]

end Value

namespace Serializer

variable (schema : Schema) (config limits : Config)

/-! ## Room for parts -/

/-- The depth at the root of a type is a matter of the size of the type. -/
theorem depth_root (type : Ty) :
    schema.depth (root type none)
      = (schema.entries.length + 1) * (schema.weight + type.size + 3) := by
  have unmarked : Marker.weight (root type none).markers = 0 := Marker.weight_make type []
  rw [Schema.depth, unmarked]
  rfl

/-- A smaller type needs less depth, by one for each request on the way to it. -/
theorem exists_depth_root (type part : Ty) (smaller : part.size < type.size) :
    ∃ more, schema.depth (root type none) = more + schema.depth (root part none) + 1 := by
  have each : schema.entries.length + 1
      ≤ (schema.entries.length + 1) * (type.size - part.size) :=
    Nat.le_mul_of_pos_right _ (Nat.sub_pos_of_lt smaller)
  refine ⟨(schema.entries.length + 1) * (type.size - part.size) - 1, ?_⟩
  rw [depth_root, depth_root]
  have apart : schema.weight + type.size + 3
      = type.size - part.size + (schema.weight + part.size + 3) := by omega
  rw [apart, Nat.mul_add]
  omega

/-- Wherever there is room, what is decoded at a place of a type is what is taken off at its
    root. -/
theorem answer_part (type : Ty) (site : Site) (more : Nat) :
    (build schema config).answer (more + schema.depth (root type none)) []
      (.decode (.ofPlace type [] site none)) = (build schema config).taking type := by
  rw [answer_placeless schema config _ _ _ _ site (.root type)]
  exact funext (answer_deeper config schema type more)

/-! ## What all kinds read -/

/-- Takes off how many elements there are, and the elements. -/
def takingItems (serializer : Serializer) (element : Ty) : Buffer.Op (List Value) := do
  let count ← Buffer.limits >>= fun limits => Buffer.readLongLength limits.collectionLengths
  Buffer.repeated (serializer.taking element) count []

/-- Takes off a key and the value that follows it. -/
def takingEntry (serializer : Serializer) (key part : Ty) : Buffer.Op (Value × Value) := do
  let first ← serializer.taking key
  let second ← serializer.taking part
  return (first, second)

/-- Takes off how many entries there are, and the entries. -/
def takingEntries (serializer : Serializer) (key part : Ty) :
    Buffer.Op (List (Value × Value)) := do
  let count ← Buffer.limits >>= fun limits => Buffer.readLength limits.collectionLengths
  Buffer.repeated (serializer.takingEntry key part) count []

/-- Without layers there is nothing to put around a value. -/
theorem rewrap_bare (type : Ty) (value : Value) (bare : type.peel false = ([], type)) :
    (Context.of type).rewrap (some value) = .ok value := by
  have layers : (Context.of type).declared.layers = [] := congrArg Prod.fst bare
  rw [Context.rewrap, layers]
  rfl

/-- What is decoded at a place of a type without layers is what its codec makes. -/
theorem answer_decode_bare (depth : Nat) (visited : List Ty) (type : Ty) (site : Site)
    (shape : Shape) (bare : type.peel false = ([], type))
    (shaped : schema.shape type none = .ok shape) :
    (build schema config).answer (depth + 1) visited (.decode (.ofPlace type [] site none))
      = (do
          let inner ← (shape.codec schema type).decode.run
            ((build schema config).answer depth visited)
          Step.lift ((Context.of type).rewrap inner)) := by
  have unwrapped : type.unwrapped = type := congrArg Prod.snd bare
  have layers : type.layers = [] := congrArg Prod.fst bare
  have strips : type.stripsOption = false := by rw [Ty.stripsOption, layers, List.any_nil]
  have unmarked : schema.shape type (Marker.element? []) = .ok shape := shaped
  rw [answer_decode_place, unwrapped, strips, unmarked]
  rfl

/-- A collection of any kind is gathered from the elements that are taken off. -/
theorem taking_sequence (kind : SequenceKind) (element : Ty) (other : element ≠ .u8) :
    (build schema config).taking (.sequence kind element) = (do
      let items ← (build schema config).takingItems element
      Step.lift (schema.collect (.sequence kind element) items)) := by
  obtain ⟨more, deep⟩ := exists_depth_root schema (.sequence kind element) element
    (Nat.lt_succ_self _)
  have start : (build schema config).taking (.sequence kind element)
      = (build schema config).answer (more + schema.depth (root element none) + 1) []
          (.decode (.ofPlace (.sequence kind element) [] (.root (.sequence kind element)) none)) :=
    congrArg (fun depth => (build schema config).answer depth [] _) deep
  have shaped : schema.shape (.sequence kind element) none = .ok (.sequence element) :=
    if_neg fun octets => other (Ty.sequence.inj octets).2
  have each : (build schema config).answer (more + schema.depth (root element none)) []
      (.decode (Codec.elementPlace element)) = (build schema config).taking element :=
    answer_part schema config element (.element element) more
  rw [start, answer_decode_bare schema config _ _ _ _ _ rfl shaped, Shape.codec,
    Codec.run_decode_stream, each, takingItems]
  simp only [bind_assoc, bind_map_left, rewrap_bare (.sequence kind element) _ rfl, Step.lift_ok,
    bind_pure]

/-- A map of either kind is gathered from the entries that are taken off. -/
theorem taking_map (kind : MapKind) (key part : Ty) :
    (build schema config).taking (.map kind key part) = (do
      let entries ← (build schema config).takingEntries key part
      Step.lift (Schema.collectEntries (.map kind key part) entries)) := by
  obtain ⟨more, deep⟩ := exists_depth_root schema (.map kind key part) key
    (Nat.lt_succ_of_le (Nat.le_add_right _ _))
  obtain ⟨further, deeper⟩ := exists_depth_root schema (.map kind key part) part
    (Nat.lt_succ_of_le (Nat.le_add_left _ _))
  have same : more + schema.depth (root key none) = further + schema.depth (root part none) :=
    Nat.succ.inj (deep.symm.trans deeper)
  have start : (build schema config).taking (.map kind key part)
      = (build schema config).answer (more + schema.depth (root key none) + 1) []
          (.decode (.ofPlace (.map kind key part) [] (.root (.map kind key part)) none)) :=
    congrArg (fun depth => (build schema config).answer depth [] _) deep
  have keys : (build schema config).answer (more + schema.depth (root key none)) []
      (.decode (Codec.keyPlace key)) = (build schema config).taking key :=
    answer_part schema config key (.key key) more
  have parts : (build schema config).answer (more + schema.depth (root key none)) []
      (.decode (Codec.valuePlace part)) = (build schema config).taking part := by
    rw [same]
    exact answer_part schema config part (.value part) further
  have entry : Program.decodeEntry
      ((build schema config).answer (more + schema.depth (root key none)) []) (Codec.keyPlace key)
      (Codec.valuePlace part) = (build schema config).takingEntry key part := by
    rw [Program.decodeEntry, keys, parts, takingEntry]
  rw [start, answer_decode_bare schema config _ _ _ _ (.map key part) rfl rfl, Shape.codec,
    Codec.run_decode_map, entry, takingEntries]
  simp only [bind_assoc, bind_map_left, rewrap_bare (.map kind key part) _ rfl, Step.lift_ok,
    bind_pure]

/-! ## What they make of it -/

/-- Whatever the serializer remembers, decoding a value of the type from the buffer has the outcome
    and leaves the buffer at the same place. -/
def Decodes (serializer : Serializer) (type : Ty) (buffer : Buffer) (outcome : Except Error Value)
    (left : Buffer) : Prop :=
  ∀ memory, serializer.Reached memory → ∃ later,
    serializer.decodeFrom type buffer memory = Step.lift outcome ⟨left, [], later⟩

/-- Whatever the serializer remembers, it encodes the value as the bytes. -/
def Encodes (serializer : Serializer) (value : Value) (bytes : Bytes) : Prop :=
  ∀ memory, serializer.Reached memory → ∃ later,
    serializer.encode value memory = .ok bytes later

variable {schema config limits}

/-- What is taken off a buffer and is of its type is decoded, whatever is remembered. -/
theorem decodes_of_taken {type : Ty} {buffer left : Buffer} {outcome : Except Error Value}
    (taken : (build schema config).taking type buffer = Step.lift outcome left)
    (typed : ∀ value, outcome = .ok value → value.type = type) :
    (build schema config).Decodes type buffer outcome left := by
  intro memory reached
  obtain ⟨later, same⟩ := decodeFrom_of_reached schema config type buffer memory reached
  refine ⟨later, ?_⟩
  rw [same, takingFrom, Step.bind_apply, taken]
  cases outcome with
  | error error => rfl
  | ok value =>
      have expected : value.expect type = .ok value :=
        (Value.expect_eq_ok type value value).mpr ⟨typed value rfl, rfl⟩
      simp only [Step.lift, expected]
      rfl

/-- What is taken off a buffer is encoded again as its wire form. -/
theorem encodes_of_taken {type : Ty} (restorable : schema.Throughout schema.Restorable type)
    {bytes : Bytes} {value : Value} {left : Buffer}
    (taken : (build schema config).taking type (Buffer.reader bytes limits) = .ok value left) :
    (build schema config).Encodes value (value.wire schema) := by
  obtain ⟨_, _, _, _, decoded, written, writes⟩ :=
    takes_taking config limits type restorable bytes value left taken
  have appended := writes [] config
  rw [List.append_nil] at appended
  have encoded : (build schema config).encoded (root value.type (some value)) = .ok written :=
    encoded_of_appended appended
  have plain : schema.Plain value.type := by
    rw [decoded.typed.type_eq]
    exact restorable.mono fun _ both => both.derived.not_custom
  intro memory reached
  obtain ⟨later, same⟩ := encode_of_reached schema config value memory reached
  rw [encoded] at same
  exact ⟨later, encode_eq_wire schema config value plain memory later reached written same ▸ same⟩

/-- All elements that are taken off are decoded. -/
theorem takes_takingItems {element : Ty} (restorable : schema.Throughout schema.Restorable element) :
    Takes limits ((build schema config).takingItems element) fun items _ =>
      ∀ item ∈ items, item.Decoded schema element := by
  refine Buffer.takes_bind (Buffer.takes_limits (Buffer.takes_length_lt 8 _)) fun count _ _ => ?_
  refine Buffer.takes_mono (Buffer.takes_all (Buffer.takes_mono
    (takes_taking config limits element restorable) fun _ _ both => both.1) count []
    (List.forall_mem_nil _)) fun _ _ both => both.2

/-- The keys and the values of all entries that are taken off are decoded. -/
theorem takes_takingEntries {key part : Ty} (keys : schema.Throughout schema.Restorable key)
    (parts : schema.Throughout schema.Restorable part) :
    Takes limits ((build schema config).takingEntries key part) fun entries _ =>
      ∀ entry ∈ entries, entry.1.Decoded schema key ∧ entry.2.Decoded schema part := by
  have entry : Takes limits ((build schema config).takingEntry key part) fun entry _ =>
      entry.1.Decoded schema key ∧ entry.2.Decoded schema part := by
    refine Buffer.takes_bind (takes_taking config limits key keys) fun first _ decoded => ?_
    refine Buffer.takes_bind (takes_taking config limits part parts) fun second _ decodedToo => ?_
    exact Buffer.takes_pure _ ⟨decoded.1, decodedToo.1⟩
  refine Buffer.takes_bind (Buffer.takes_limits (Buffer.takes_length_lt 4 _)) fun count _ _ => ?_
  exact Buffer.takes_mono (Buffer.takes_all entry count [] (List.forall_mem_nil _))
    fun _ _ both => both.2

/-- The collection of a kind is made of what was read of its elements: it fails as reading them did,
    or it is gathered from them, and if it is not refused, it is encoded again as its own number
    of elements and each of them in turn. -/
def MakesItems (schema : Schema) (serializer : Serializer) (kind : SequenceKind) (element : Ty)
    (buffer left : Buffer) : Except Error (List Value) → Prop
  | .error error => serializer.Decodes (.sequence kind element) buffer (.error error) left
  | .ok items => ∃ built, kind.Gathers items built ∧
      serializer.Decodes (.sequence kind element) buffer
        (Value.sequence (.sequence kind element) <$> built) left ∧
      ∀ kept, built = .ok kept →
        serializer.Encodes (.sequence (.sequence kind element) kept)
          (Bytes.bigEndian 8 kept.length ++ kept.flatMap (Value.wire schema))

/-- The map of a kind is made of what was read of its entries. -/
def MakesEntries (schema : Schema) (serializer : Serializer) (kind : MapKind) (key part : Ty)
    (buffer left : Buffer) : Except Error (List (Value × Value)) → Prop
  | .error error => serializer.Decodes (.map kind key part) buffer (.error error) left
  | .ok entries => ∃ kept, kind.Gathers entries kept ∧
      serializer.Decodes (.map kind key part) buffer (.ok (.map (.map kind key part) kept)) left ∧
      serializer.Encodes (.map (.map kind key part) kept)
        (Bytes.bigEndian 4 kept.length ++ kept.flatMap fun entry =>
          entry.1.wire schema ++ entry.2.wire schema)

/-- Every kind of collection is made of what is read of its elements. -/
theorem makesItems {element : Ty} (restorable : schema.Throughout schema.Restorable element)
    (other : element ≠ .u8) (kind : SequenceKind) {bytes : Bytes} {left : Buffer}
    {read : Except Error (List Value)}
    (taken : (build schema config).takingItems element (Buffer.reader bytes limits)
      = Step.lift read left) :
    MakesItems schema (build schema config) kind element (Buffer.reader bytes limits) left read := by
  have whole : (build schema config).taking (.sequence kind element) (Buffer.reader bytes limits)
      = Step.lift (read >>= schema.collect (.sequence kind element)) left := by
    rw [taking_sequence schema config kind element other, Step.bind_apply, taken]
    cases read <;> rfl
  cases read with
  | error error => exact decodes_of_taken whole fun value impossible => by cases impossible
  | ok items =>
      obtain ⟨_, _, _, _, decoded⟩ := takes_takingItems restorable bytes items left taken
      have types : ∀ item ∈ items, item.type = element := fun item listed =>
        (decoded item listed).typed.type_eq
      have collected : (Except.ok items >>= schema.collect (.sequence kind element))
          = Value.sequence (.sequence kind element) <$> kind.collect items :=
        schema.collect_of_type kind element items types
      rw [collected] at whole
      refine ⟨kind.collect items, kind.gathers_collect
        (Value.discrete_decoded element (restorable.mono fun _ both => both.derived)) items decoded,
        decodes_of_taken whole ?_, ?_⟩
      · intro value built
        cases made : kind.collect items with
        | error error => rw [made] at built; cases built
        | ok kept => rw [made] at built; cases built; rfl
      · intro kept made
        rw [made] at whole
        have again := encodes_of_taken (Schema.restorable_sequence restorable kind) whole
        have among := (kind.holds_of_collect items kept made).2
        rwa [Value.wire_sequence schema kind other kept fun item listed =>
          types item (among item listed)] at again

/-- Either kind of map is made of what is read of its entries. -/
theorem makesEntries {key part : Ty} (keys : schema.Throughout schema.Restorable key)
    (parts : schema.Throughout schema.Restorable part) (kind : MapKind) {bytes : Bytes}
    {left : Buffer} {read : Except Error (List (Value × Value))}
    (taken : (build schema config).takingEntries key part (Buffer.reader bytes limits)
      = Step.lift read left) :
    MakesEntries schema (build schema config) kind key part (Buffer.reader bytes limits) left
      read := by
  have whole : (build schema config).taking (.map kind key part) (Buffer.reader bytes limits)
      = Step.lift (read >>= Schema.collectEntries (.map kind key part)) left := by
    rw [taking_map, Step.bind_apply, taken]
    cases read <;> rfl
  cases read with
  | error error => exact decodes_of_taken whole fun value impossible => by cases impossible
  | ok entries =>
      obtain ⟨_, _, _, _, decoded⟩ := takes_takingEntries keys parts bytes entries left taken
      have types : ∀ entry ∈ entries, entry.1.type = key ∧ entry.2.type = part :=
        fun entry listed =>
          ⟨(decoded entry listed).1.typed.type_eq, (decoded entry listed).2.typed.type_eq⟩
      have collected : (Except.ok entries >>= Schema.collectEntries (.map kind key part))
          = .ok (.map (.map kind key part) (kind.collect entries)) :=
        Schema.collectEntries_of_type kind key part entries types
      rw [collected] at whole
      refine ⟨kind.collect entries, kind.gathers_collect
        (Value.discrete_decoded key (keys.mono fun _ both => both.derived)) entries
        fun entry listed => (decoded entry listed).1, decodes_of_taken whole ?_, ?_⟩
      · rintro _ ⟨⟩
        rfl
      · have again := encodes_of_taken (Schema.restorable_map keys parts kind) whole
        have among := (kind.holds_collect entries).2
        rwa [Value.wire_map schema kind _ fun entry listed =>
          types entry (among entry listed)] at again

/-- All collections decode one format. What is read of a collection is its elements, whatever kind it
    is of, so all kinds stop at the same place and fail with the same errors. Vectors, double-ended
    queues and arrays hold the elements as they were read, but an array is refused if there are not
    as many as it has; sets hold the same elements without duplicates. Likewise either kind of map
    holds for each key the entry that was written last. This is so whatever the serializer
    remembers.

    Encoding an ordered set or an ordered map again writes its elements or its keys in ascending
    order, and whatever was read with the same members is written alike. -/
theorem collections_decode_alike (schema : Schema) (config limits : Config) (element key part : Ty)
    (other : element ≠ .u8) (elements : schema.Throughout schema.Restorable element)
    (keys : schema.Throughout schema.Restorable key)
    (parts : schema.Throughout schema.Restorable part) (bytes others : Bytes) :
    let serializer := build schema config
    let buffer := Buffer.reader bytes limits
    let another := Buffer.reader others limits
    (∃ read left, serializer.takingItems element buffer = Step.lift read left ∧
      ∀ kind, MakesItems schema serializer kind element buffer left read) ∧
    (∃ read left, serializer.takingEntries key part buffer = Step.lift read left ∧
      ∀ kind, MakesEntries schema serializer kind key part buffer left read) ∧
    (∀ items found left further, serializer.takingItems element buffer = .ok items left →
      serializer.takingItems element another = .ok found further →
      (∀ item, item ∈ items ↔ item ∈ found) →
      ∃ value written, serializer.Decodes (.sequence .orderedSet element) buffer (.ok value) left ∧
        serializer.Decodes (.sequence .orderedSet element) another (.ok value) further ∧
        serializer.Encodes value written) ∧
    ∀ entries found left further, serializer.takingEntries key part buffer = .ok entries left →
      serializer.takingEntries key part another = .ok found further →
      (∀ entry, Value.LastWritten (· = ·) entries entry ↔ Value.LastWritten (· = ·) found entry) →
      ∃ value written, serializer.Decodes (.map .ordered key part) buffer (.ok value) left ∧
        serializer.Decodes (.map .ordered key part) another (.ok value) further ∧
        serializer.Encodes value written := by
  intro serializer buffer another
  refine ⟨?_, ?_, ?_, ?_⟩
  · obtain ⟨read, left, taken⟩ := Step.exists_lift (serializer.takingItems element buffer)
    exact ⟨read, left, taken, fun kind => makesItems elements other kind taken⟩
  · obtain ⟨read, left, taken⟩ := Step.exists_lift (serializer.takingEntries key part buffer)
    exact ⟨read, left, taken, fun kind => makesEntries keys parts kind taken⟩
  · intro items found left further taken takenToo same
    obtain ⟨built, gathers, decodes, encodes⟩ :=
      makesItems elements other .orderedSet (show _ = Step.lift (.ok items) left from taken)
    obtain ⟨builtToo, gathersToo, decodesToo, -⟩ :=
      makesItems elements other .orderedSet
        (show _ = Step.lift (.ok found) further from takenToo)
    obtain ⟨kept, rfl, -⟩ := id gathers
    obtain ⟨keptToo, rfl, -⟩ := id gathersToo
    obtain rfl := gathers.eq_of_same gathersToo same
    exact ⟨_, _, decodes, decodesToo, encodes kept rfl⟩
  · intro entries found left further taken takenToo same
    obtain ⟨kept, gathers, decodes, encodes⟩ :=
      makesEntries keys parts .ordered (show _ = Step.lift (.ok entries) left from taken)
    obtain ⟨keptToo, gathersToo, decodesToo, -⟩ :=
      makesEntries keys parts .ordered (show _ = Step.lift (.ok found) further from takenToo)
    obtain rfl := gathers.eq_of_same gathersToo same
    exact ⟨_, _, decodes, decodesToo, encodes⟩

/-- Of three numbers, two of them equal, no array of two is made. But they make the same ordered set
    as the two that differ, which come in another order. It is written in ascending order. -/
theorem collections_decode_alike_numbers :
    let serializer := build groves {}
    let thrice := Buffer.reader [0, 0, 0, 0, 0, 0, 0, 3, 4, 1, 4]
    let twice := Buffer.reader [0, 0, 0, 0, 0, 0, 0, 2, 1, 4]
    Ty.i8 ≠ .u8 ∧ (∀ part ∈ [.i8, .named "Plot"], groves.Throughout groves.Restorable part) ∧
      serializer.Decodes (.sequence (.array 2) .i8) thrice (.error (.lengthMismatch 2 3))
        (Buffer.reader []) ∧
      ∃ value written, serializer.Decodes (.sequence .orderedSet .i8) thrice (.ok value)
          (Buffer.reader []) ∧
        serializer.Decodes (.sequence .orderedSet .i8) twice (.ok value) (Buffer.reader []) ∧
        serializer.Encodes value written := by
  intro serializer thrice twice
  have restorable : ∀ part ∈ [.i8, .named "Plot"], groves.Throughout groves.Restorable part := by
    have among : ∀ part ∈ [.i8, .named "Plot"], part ∈ groveTypes := by decide
    intro part listed other contained
    have derived := (groves_invertible part (among part listed) other contained).1
    exact ⟨derived, Schema.decodable_of_derived other derived (groves_blanks other)⟩
  have first : serializer.takingItems .i8 thrice = .ok [.i8 4, .i8 1, .i8 4] (Buffer.reader []) :=
    rfl
  have second : serializer.takingItems .i8 twice = .ok [.i8 1, .i8 4] (Buffer.reader []) := rfl
  obtain ⟨⟨read, left, taken, made⟩, -, sets, -⟩ := collections_decode_alike groves {} {} .i8 .i8
    (.named "Plot") (by decide) (restorable .i8 (by decide)) (restorable .i8 (by decide))
    (restorable (.named "Plot") (by decide)) [0, 0, 0, 0, 0, 0, 0, 3, 4, 1, 4]
    [0, 0, 0, 0, 0, 0, 0, 2, 1, 4]
  refine ⟨by decide, restorable, ?_, ?_⟩
  · obtain ⟨rfl, rfl⟩ : read = .ok [.i8 4, .i8 1, .i8 4] ∧ left = Buffer.reader [] := by
      cases read with
      | error error => cases first.symm.trans taken
      | ok items => cases first.symm.trans taken; exact ⟨rfl, rfl⟩
    obtain ⟨built, gathers, decodes, -⟩ := made (.array 2)
    obtain ⟨fits, -⟩ | ⟨-, rfl⟩ := gathers
    · cases fits
    · exact decodes
  · exact sets _ _ _ _ first second fun item => by simp [or_comm, or_left_comm]

end Serializer

end Wireform
