import Wireform.Proofs.Framing
import Wireform.Proofs.Listings
import Wireform.Proofs.Survey

/-!
# Formats read what they have written

What is written in a format depends on nothing but the value, and whether it can be written on a few
numbers: each character must be one unit, each short text must have a length of two octets, and
whatever else is counted must have a length of four octets without the sign. Reading takes exactly
these octets, whatever stands behind them, if the limits of the reader admit the same lengths. It
gives the listing of the value that was written.

So values that are written one after another, in formats of any kind and depth, are read one after
another, and nothing is left. Each is the same value as before, and its sets and maps are free of
duplicates.
-/

namespace Wireform

open Buffer (Reads Succeeds Writes)

/-! ## Measures -/

/-- A number in a value that decides whether there is room for it on the wire: a character, or the
    length of a text, of a byte string or of a collection. -/
inductive Measure
  | unit (code : Nat)
  | shortText (octets : Nat)
  | long (length : Length)

namespace Measure

/-- There is room for it. -/
def Fits : Measure → Prop
  | unit code => code < 0x10000
  | shortText octets => octets < 0x10000
  | long length => length.number < 0x80000000

/-- The limits of a reader admit it. Characters are not limited. -/
def Admitted (config : Config) : Measure → Prop
  | unit _ => True
  | shortText octets => config.stringLengths.contains octets = true
  | long length => length.admitted config = true

instance : DecidablePred Fits
  | unit code => inferInstanceAs (Decidable (code < 0x10000))
  | shortText octets => inferInstanceAs (Decidable (octets < 0x10000))
  | long length => inferInstanceAs (Decidable (length.number < 0x80000000))

instance (config : Config) : DecidablePred (Admitted config)
  | unit _ => .isTrue trivial
  | shortText octets => inferInstanceAs (Decidable (config.stringLengths.contains octets = true))
  | long length => inferInstanceAs (Decidable (length.admitted config = true))

/-- The measure of a text. -/
def text (text : String) : Measure := long ⟨.text, (Text.Utf8.encode text).length⟩

end Measure

/-- The measures of a scalar. -/
def Scalar.measures : Scalar → List Measure
  | .char character => [.unit character.toNat]
  | .string text => [.text text]
  | .bytes octets => [.long ⟨.bytes, octets.length⟩]
  | _ => []

/-! ## Scalars -/

namespace Buffer

/-- An operation that writes can succeed. -/
theorem succeeds_of_writes {operation : Op Unit} {bytes : Bytes} (writes : Writes operation bytes) :
    Succeeds operation := ⟨_, _, _, writes [] {}⟩

/-- A character of one unit is written. -/
theorem writes_writeChar (char : Char) (fits : char.toNat < 0x10000) :
    Writes (writeChar char) (Bytes.bigEndian 2 char.toNat) := by
  rw [writeChar, if_pos fits]
  exact writes_append _

/-- Text is written if its length fits the prefix. -/
theorem writes_writeString (text : String) (fits : (Measure.text text).Fits) :
    Writes (writeString text) (Piece.wire (Piece.text text)) := by
  have laid : Piece.wire (Piece.text text)
      = Bytes.bigEndian 4 (Text.Utf8.encode text).length ++ Text.Utf8.encode text := by
    simp [Piece.text, Piece.bytes]
  rw [laid]
  exact writes_bind (writes_writeLength _ fits) (writes_append _)

/-- Text that can be written has a length that fits its prefix. -/
theorem fits_of_writeString {text : String} (succeeds : Succeeds (writeString text)) :
    (Measure.text text).Fits :=
  lt_of_writeLength (succeeds_bind succeeds).1

end Buffer

/-- The limits that admit the measure of a text admit its pieces. -/
theorem Piece.admitted_text {config : Config} (text : String)
    (admitted : (Measure.text text).Admitted config) :
    ∀ piece ∈ Piece.text text, piece.Admitted config :=
  List.forall_mem_cons.mpr ⟨admitted, List.forall_mem_singleton.mpr trivial⟩

namespace Scalar

/-- A scalar is written if there is room for it. -/
theorem writes_write (plain : Scalar) (fits : ∀ measure ∈ plain.measures, measure.Fits) :
    Writes plain.write (Piece.wire plain.layout) := by
  have whole (operation : Buffer.Op Unit) (piece : Piece) (writes : Writes operation piece.bytes) :
      Writes operation (Piece.wire [piece]) := by
    simpa using writes
  cases plain with
  | char character =>
      exact whole _ _ (Buffer.writes_writeChar character (fits _ List.mem_cons_self))
  | string text => exact Buffer.writes_writeString text (fits _ List.mem_cons_self)
  | bytes octets =>
      have laid : Piece.wire (Piece.counted octets) = Bytes.bigEndian 4 octets.length ++ octets := by
        simp [Piece.counted, Piece.bytes]
      rw [layout, laid]
      exact Buffer.writes_bind (Buffer.writes_writeLength _ (fits _ List.mem_cons_self))
        (Buffer.writes_append _)
  | _ => exact whole _ _ (Buffer.writes_append _)

/-- There is room for a scalar that can be written. -/
theorem fits_of_write (plain : Scalar) (succeeds : Succeeds plain.write) :
    ∀ measure ∈ plain.measures, measure.Fits := by
  cases plain with
  | char character =>
      exact List.forall_mem_singleton.mpr (Buffer.lt_of_writeChar succeeds)
  | string text => exact List.forall_mem_singleton.mpr (Buffer.fits_of_writeString succeeds)
  | bytes octets =>
      exact List.forall_mem_singleton.mpr (Buffer.lt_of_writeLength (Buffer.succeeds_bind succeeds).1)
  | _ => exact List.forall_mem_nil _

/-- The limits that admit the measures of a scalar admit the pieces that it is laid out in. -/
theorem admitted_layout {config : Config} (plain : Scalar)
    (admitted : ∀ measure ∈ plain.measures, measure.Admitted config) :
    ∀ piece ∈ plain.layout, piece.Admitted config := by
  cases plain with
  | string text => exact Piece.admitted_text text (admitted _ List.mem_cons_self)
  | bytes octets =>
      exact List.forall_mem_cons.mpr
        ⟨admitted _ List.mem_cons_self, List.forall_mem_singleton.mpr trivial⟩
  | _ => exact List.forall_mem_singleton.mpr trivial

end Scalar

/-- Writing a member is writing its name. -/
theorem Enumeration.write_member (type : Ty) (names : List String) (index : Nat)
    (known : index < names.length) :
    write type names (.member type index) = Buffer.writeString (names[index]?.getD "") := by
  have named : names[index]? = some names[index] := List.getElem?_eq_getElem known
  simp only [write, nameOf, named, if_true, Option.getD_some]

/-! ## Formats -/

namespace Format

/-- The format is assembled of those that come with the buffer, and no two members of an enumeration
    have one name. -/
def Lawful : Format → Prop
  | .leaf _ => True
  | .shortString => True
  | .enumeration _ names => names.Nodup
  | .custom .. => False
  | .list element => element.Lawful
  | .set element => element.Lawful
  | .queue element => element.Lawful
  | .map key part => key.Lawful ∧ part.Lawful
  | .optional inner => inner.Lawful

/-- The measures of everything in a value, duplicates included. -/
def measures : Format → Value → List Measure
  | .leaf _, .scalar plain => plain.measures
  | .shortString, .scalar (.string text) => [.shortText (Text.Utf8.encode text).length]
  | .enumeration _ names, .member _ index => [.text (names[index]?.getD "")]
  | .list element, .sequence _ items =>
      .long ⟨.collection, items.length⟩ :: items.flatMap element.measures
  | .set element, .sequence _ items =>
      .long ⟨.collection, items.length⟩ :: items.flatMap element.measures
  | .queue element, .sequence _ items =>
      .long ⟨.collection, items.length⟩ :: items.flatMap element.measures
  | .map key part, .map _ entries =>
      .long ⟨.collection, entries.length⟩
        :: entries.flatMap fun entry => key.measures entry.1 ++ part.measures entry.2
  | .optional inner, .present value => inner.measures value
  | _, _ => []

/-- What is written of a value. -/
def wire : Format → Value → Bytes
  | .leaf _, .scalar plain => Piece.wire plain.layout
  | .shortString, .scalar (.string text) => Buffer.shortText text
  | .enumeration _ names, .member _ index => Piece.wire (Piece.text (names[index]?.getD ""))
  | .list element, .sequence _ items =>
      Bytes.bigEndian 4 items.length ++ items.flatMap element.wire
  | .set element, .sequence _ items =>
      Bytes.bigEndian 4 items.length ++ items.flatMap element.wire
  | .queue element, .sequence _ items =>
      Bytes.bigEndian 4 items.length ++ items.flatMap element.wire
  | .map key part, .map _ entries =>
      Bytes.bigEndian 4 entries.length
        ++ entries.flatMap fun entry => key.wire entry.1 ++ part.wire entry.2
  | .optional _, .absent _ => (Piece.flag false).bytes
  | .optional inner, .present value => (Piece.flag true).bytes ++ inner.wire value
  | _, _ => []

/-! ## Writing -/

/-- One operation after another writes the bytes of each in turn. -/
theorem writes_forM {α : Type} {operation : α → Buffer.Op Unit} {bytes : α → Bytes}
    (items : List α) (each : ∀ item ∈ items, Writes (operation item) (bytes item)) :
    Writes (items.forM operation) (items.flatMap bytes) := by
  induction items with
  | nil => exact Buffer.writes_pure
  | cons item rest inductionHypothesis =>
      obtain ⟨first, later⟩ := List.forall_mem_cons.mp each
      exact Buffer.writes_bind first (inductionHypothesis later)

/-- Counted items are written if there is room for their number and for each of them. -/
theorem writes_counted {α : Type} {operation : α → Buffer.Op Unit} {bytes : α → Bytes}
    {measures : α → List Measure} (items : List α)
    (fits : ∀ measure ∈ Measure.long ⟨.collection, items.length⟩ :: items.flatMap measures,
      measure.Fits)
    (each : ∀ item ∈ items, (∀ measure ∈ measures item, measure.Fits) →
      Writes (operation item) (bytes item)) :
    Writes (do Buffer.writeLength items.length; items.forM operation)
      (Bytes.bigEndian 4 items.length ++ items.flatMap bytes) := by
  obtain ⟨room, later⟩ := List.forall_mem_cons.mp fits
  apply Buffer.writes_bind (Buffer.writes_writeLength _ room)
  apply writes_forM
  intro item listed
  apply each item listed
  intro measure among
  exact later measure (List.mem_flatMap.mpr ⟨item, listed, among⟩)

/-- If counted items can be written, there is room for their number and for each of them. -/
theorem fits_of_counted {α : Type} {operation : α → Buffer.Op Unit} {measures : α → List Measure}
    (items : List α)
    (succeeds : Succeeds (do Buffer.writeLength items.length; items.forM operation))
    (each : ∀ item ∈ items, Succeeds (operation item) →
      ∀ measure ∈ measures item, measure.Fits) :
    ∀ measure ∈ Measure.long ⟨.collection, items.length⟩ :: items.flatMap measures,
      measure.Fits := by
  obtain ⟨counted, elements⟩ := Buffer.succeeds_bind succeeds
  rw [List.forall_mem_cons]
  constructor
  · exact Buffer.lt_of_writeLength counted
  · intro measure listed
    obtain ⟨item, among, own⟩ := List.mem_flatMap.mp listed
    exact each item among (Buffer.succeeds_forM elements item among) measure own

/-- A value for which there is room is written. -/
theorem writes_write (format : Format) (value : Value) (holds : format.Holds value)
    (fits : ∀ measure ∈ format.measures value, measure.Fits) :
    Writes (format.write value) (format.wire value) := by
  induction format generalizing value with
  | leaf kind =>
      obtain ⟨plain, rfl, rfl⟩ := holds
      simp only [write, Leaf.writeValue, if_true]
      exact plain.writes_write fits
  | shortString =>
      obtain ⟨text, rfl⟩ := holds
      exact Buffer.writes_writeShortString text (fits _ List.mem_cons_self)
  | enumeration type names =>
      obtain ⟨index, rfl, known⟩ := holds
      simp only [write, Enumeration.write_member type names index known]
      exact Buffer.writes_writeString _ (fits _ List.mem_cons_self)
  | custom type layout => exact holds.elim
  | list element inductionHypothesis
  | set element inductionHypothesis
  | queue element inductionHypothesis =>
      obtain ⟨items, rfl, held⟩ := holds
      exact writes_counted items fits fun item listed =>
        inductionHypothesis item (held item listed)
  | map key part keys parts =>
      obtain ⟨entries, rfl, held⟩ := holds
      apply writes_counted entries fits
      intro entry listed room
      obtain ⟨ownKey, ownPart⟩ := List.forall_mem_append.mp room
      exact Buffer.writes_bind (keys entry.1 (held entry listed).1 ownKey)
        (parts entry.2 (held entry listed).2 ownPart)
  | optional inner inductionHypothesis =>
      obtain rfl | ⟨held, rfl, own⟩ := holds
      · exact Buffer.writes_append _
      · exact Buffer.writes_bind (Buffer.writes_append _) (inductionHypothesis held own fits)

/-- There is room for a value that can be written. -/
theorem fits_of_write (format : Format) (value : Value) (holds : format.Holds value)
    (succeeds : Succeeds (format.write value)) :
    ∀ measure ∈ format.measures value, measure.Fits := by
  induction format generalizing value with
  | leaf kind =>
      obtain ⟨plain, rfl, rfl⟩ := holds
      simp only [write, Leaf.writeValue, if_true] at succeeds
      exact plain.fits_of_write succeeds
  | shortString =>
      obtain ⟨text, rfl⟩ := holds
      refine List.forall_mem_singleton.mpr (Classical.byContradiction fun long => ?_)
      have refused := Buffer.writeShortString_of_long text long
      simp only [write, Value.string, refused] at succeeds
      exact Buffer.not_succeeds_fail _ succeeds
  | enumeration type names =>
      obtain ⟨index, rfl, known⟩ := holds
      simp only [write, Enumeration.write_member type names index known] at succeeds
      exact List.forall_mem_singleton.mpr (Buffer.fits_of_writeString succeeds)
  | custom type layout => exact holds.elim
  | list element inductionHypothesis
  | set element inductionHypothesis
  | queue element inductionHypothesis =>
      obtain ⟨items, rfl, held⟩ := holds
      exact fits_of_counted items succeeds fun item listed =>
        inductionHypothesis item (held item listed)
  | map key part keys parts =>
      obtain ⟨entries, rfl, held⟩ := holds
      apply fits_of_counted entries succeeds
      intro entry listed can
      obtain ⟨ownKey, ownPart⟩ := Buffer.succeeds_bind can
      exact List.forall_mem_append.mpr ⟨keys entry.1 (held entry listed).1 ownKey,
        parts entry.2 (held entry listed).2 ownPart⟩
  | optional inner inductionHypothesis =>
      obtain rfl | ⟨held, rfl, own⟩ := holds
      · exact List.forall_mem_nil _
      · exact inductionHypothesis held own (Buffer.succeeds_bind succeeds).2

/-! ## Reading -/

variable {config : Config}

/-- Counted items are read, if the limits admit their number and each of them is read. -/
theorem reads_counted {α β : Type} {operation : Buffer.Op β} {bytes : α → Bytes} {result : α → β}
    {measures : α → List Measure} (items : List α)
    (fits : ∀ measure ∈ Measure.long ⟨.collection, items.length⟩ :: items.flatMap measures,
      measure.Fits ∧ measure.Admitted config)
    (each : ∀ item ∈ items, (∀ measure ∈ measures item, measure.Fits ∧ measure.Admitted config) →
      Reads config operation (bytes item) (result item)) :
    Reads config (readAll operation) (Bytes.bigEndian 4 items.length ++ items.flatMap bytes)
      (items.map result) := by
  obtain ⟨⟨room, admitted⟩, later⟩ := List.forall_mem_cons.mp fits
  have counted := Buffer.reads_readLength config config.collectionLengths items.length room admitted
  have own : ∀ item ∈ items, Reads config operation (bytes item) (result item) := by
    intro item listed
    apply each item listed
    intro measure among
    exact later measure (List.mem_flatMap.mpr ⟨item, listed, among⟩)
  have elements := Buffer.reads_repeated items bytes result own []
  exact Buffer.reads_limits (Buffer.reads_bind counted elements)

/-- A value that was written is read as its listing, if the limits admit all its lengths. -/
theorem reads_read (format : Format) (lawful : format.Lawful) (value : Value)
    (holds : format.Holds value)
    (fits : ∀ measure ∈ format.measures value, measure.Fits ∧ measure.Admitted config) :
    Reads config format.read (format.wire value) (format.listing value) := by
  induction format generalizing value with
  | leaf kind =>
      obtain ⟨plain, rfl, rfl⟩ := holds
      have writes := plain.writes_write fun measure among => (fits measure among).1
      exact Buffer.reads_bind_pure (Leaf.reads_read config plain (Buffer.succeeds_of_writes writes)
        (plain.admitted_layout fun measure among => (fits measure among).2)) (Buffer.reads_pure _)
  | shortString =>
      obtain ⟨text, rfl⟩ := holds
      obtain ⟨room, admitted⟩ := fits _ List.mem_cons_self
      exact Buffer.reads_bind_pure (Buffer.reads_readShortString text room admitted)
        (Buffer.reads_pure _)
  | enumeration type names =>
      obtain ⟨index, rfl, known⟩ := holds
      obtain ⟨room, admitted⟩ := fits _ List.mem_cons_self
      have succeeds : Succeeds (Enumeration.write type names (.member type index)) := by
        rw [Enumeration.write_member type names index known]
        exact Buffer.succeeds_of_writes (Buffer.writes_writeString _ room)
      exact Enumeration.reads_read config type names lawful index known succeeds
        (Piece.admitted_text _ admitted)
  | custom type layout => exact holds.elim
  | list element inductionHypothesis
  | set element inductionHypothesis
  | queue element inductionHypothesis =>
      obtain ⟨items, rfl, held⟩ := holds
      exact Buffer.reads_bind_pure (reads_counted items fits fun item listed =>
        inductionHypothesis lawful item (held item listed)) (Buffer.reads_pure _)
  | map key part keys parts =>
      obtain ⟨entries, rfl, held⟩ := holds
      refine Buffer.reads_bind_pure (reads_counted entries fits fun entry listed room => ?_)
        (Buffer.reads_pure _)
      obtain ⟨ownKey, ownPart⟩ := List.forall_mem_append.mp room
      exact Buffer.reads_bind (keys lawful.1 entry.1 (held entry listed).1 ownKey)
        (Buffer.reads_bind_pure (parts lawful.2 entry.2 (held entry listed).2 ownPart)
          (Buffer.reads_pure _))
  | optional inner inductionHypothesis =>
      obtain rfl | ⟨held, rfl, own⟩ := holds
      · exact Buffer.reads_bind_pure (Buffer.reads_readBool config false) (Buffer.reads_pure _)
      · exact Buffer.reads_bind (Buffer.reads_readBool config true)
          (Buffer.reads_bind_pure (inductionHypothesis lawful held own fits) (Buffer.reads_pure _))

/-! ## One after another -/

/-- Values that were written one after another are read one after another. -/
theorem reads_mapM (pairs : List (Format × Value))
    (each : ∀ pair ∈ pairs, Reads config pair.1.read (pair.1.wire pair.2) (pair.1.listing pair.2)) :
    Reads config ((pairs.map Prod.fst).mapM read) (pairs.flatMap fun pair => pair.1.wire pair.2)
      (pairs.map fun pair => pair.1.listing pair.2) := by
  induction pairs with
  | nil => exact Buffer.reads_pure []
  | cons pair rest inductionHypothesis =>
      obtain ⟨first, later⟩ := List.forall_mem_cons.mp each
      rw [List.map_cons, List.mapM_cons]
      exact Buffer.reads_bind first
        (Buffer.reads_bind_pure (inductionHypothesis later) (Buffer.reads_pure _))

/-- A value can be written exactly if every character in it is one unit, every short text has a
    length of two octets, and every other text, every byte string, every name of a member and every
    collection one of four octets. What has been written before has no part in it. Values that are
    written one after another, in any formats, are read back by a reader that admits these lengths:
    they are the same, nothing is in them twice, and nothing is left to read. -/
theorem read_of_written (pairs : List (Format × Value)) (lawful : ∀ pair ∈ pairs, pair.1.Lawful)
    (holds : ∀ pair ∈ pairs, pair.1.Holds pair.2) :
    (∀ pair ∈ pairs, ∀ reversed limits,
      (∃ after, pair.1.write pair.2 ⟨.written reversed, limits⟩ = .ok () after) ↔
        ∀ measure ∈ pair.1.measures pair.2, measure.Fits) ∧
      ∀ limits after, (pairs.forM fun pair => pair.1.write pair.2) (Buffer.writer limits)
          = .ok () after →
        ∃ bytes, after.finish = .ok bytes ∧
          ∀ config, (∀ pair ∈ pairs, ∀ measure ∈ pair.1.measures pair.2,
              measure.Admitted config) →
            ∃ back, (pairs.map Prod.fst).mapM read (Buffer.reader bytes config)
                = .ok back (Buffer.reader [] config) ∧
              List.Forall₂ (fun pair value => pair.1.Holds value ∧ pair.1.Same pair.2 value ∧
                pair.1.Settled value) pairs back := by
  constructor
  · intro pair listed reversed limits
    constructor
    · rintro ⟨after, wrote⟩
      exact pair.1.fits_of_write pair.2 (holds pair listed) ⟨_, _, _, wrote⟩
    · intro fits
      exact ⟨_, pair.1.writes_write pair.2 (holds pair listed) fits reversed limits⟩
  · intro limits after wrote
    have fits : ∀ pair ∈ pairs, ∀ measure ∈ pair.1.measures pair.2, measure.Fits := by
      intro pair listed
      have succeeds := Buffer.succeeds_forM ⟨_, _, _, wrote⟩ pair listed
      exact pair.1.fits_of_write pair.2 (holds pair listed) succeeds
    have writes := writes_forM pairs fun pair listed =>
      pair.1.writes_write pair.2 (holds pair listed) (fits pair listed)
    cases wrote.symm.trans (writes [] limits)
    refine ⟨pairs.flatMap fun pair => pair.1.wire pair.2, ?_, fun config admitted => ?_⟩
    · simp [Buffer.finish]
    · have each (pair : Format × Value) (listed : pair ∈ pairs) :
          Reads config pair.1.read (pair.1.wire pair.2) (pair.1.listing pair.2) :=
        pair.1.reads_read (lawful pair listed) pair.2 (holds pair listed) fun measure among =>
          ⟨fits pair listed measure among, admitted pair listed measure among⟩
      have whole := reads_mapM pairs each []
      rw [List.append_nil] at whole
      refine ⟨_, whole, ?_⟩
      rw [List.forall₂_map_right_iff, List.forall₂_same]
      intro pair listed
      have held := holds pair listed
      exact ⟨pair.1.holds_listing pair.2 held, pair.1.same_listing pair.2 held,
        pair.1.settled_listing pair.2 held⟩

/-- A map from sets of short texts to characters that may be absent. -/
def shelves : Format := .map (.set .shortString) (.optional (.leaf .char))

/-- A set of short texts. -/
def shelf (texts : List String) : Value :=
  .sequence (.sequence .hashedSet .string) (texts.map Value.string)

/-- A map in which one set is listed twice, in two ways. -/
def twice : Value :=
  .map shelves.type
    [(shelf ["b", "a", "b"], .present (.scalar (.char 'x'))), (shelf ["a", "b"], .absent (.leaf .char))]

/-- Such a map, with a number in front, is written with both entries and read back as the map that
    it is. -/
theorem read_of_written_shelves :
    let pairs : List (Format × Value) := [(.leaf .u8, .u8 7), (shelves, twice)]
    ∃ after bytes back,
      (pairs.forM fun pair => pair.1.write pair.2) (Buffer.writer {}) = .ok () after ∧
        after.finish = .ok bytes ∧ (pairs.map Prod.fst).mapM read (Buffer.reader bytes {})
          = .ok back (Buffer.reader [] {}) ∧
        List.Forall₂ (fun pair value => pair.1.Holds value ∧ pair.1.Same pair.2 value ∧
          pair.1.Settled value) pairs back := by
  intro pairs
  have texts (listed : List String) : (Format.set .shortString).Holds (shelf listed) :=
    ⟨_, rfl, List.forall_mem_map.mpr fun text _ => ⟨text, rfl⟩⟩
  have held : shelves.Holds twice := by
    refine ⟨_, rfl, List.forall_mem_cons.mpr ⟨⟨texts _, .inr ⟨_, rfl, ?_⟩⟩,
      List.forall_mem_singleton.mpr ⟨texts _, .inl rfl⟩⟩⟩
    exact ⟨_, rfl, rfl⟩
  have holds : ∀ pair ∈ pairs, pair.1.Holds pair.2 :=
    List.forall_mem_cons.mpr ⟨⟨_, rfl, rfl⟩, List.forall_mem_singleton.mpr held⟩
  have lawful : ∀ pair ∈ pairs, pair.1.Lawful :=
    List.forall_mem_cons.mpr ⟨trivial, List.forall_mem_singleton.mpr ⟨trivial, trivial⟩⟩
  have succeeds : Step.succeeded
      ((pairs.forM fun pair => pair.1.write pair.2) (Buffer.writer {})) = true := by decide +kernel
  obtain ⟨_, after, wrote⟩ := Step.exists_of_succeeded succeeds
  obtain ⟨bytes, finished, reads⟩ := (read_of_written pairs lawful holds).2 {} after wrote
  obtain ⟨back, read, returned⟩ := reads {} (by decide +kernel)
  exact ⟨after, bytes, back, wrote, finished, read, returned⟩

/-- The listing that is read has one entry, with the last value. -/
example : shelves.listing twice
    = .map shelves.type [(shelf ["a", "b"], .absent (.leaf .char))] := by
  rfl

end Format

end Wireform
