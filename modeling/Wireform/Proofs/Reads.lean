import Wireform.Proofs.Wire

/-!
# Reading back what was written

A reading operation turns bytes into a result if it takes exactly these bytes off the
front, whatever stands behind them. A writing operation is only asked whether it can
succeed at all: what it then has appended is known from the layout, and that it
succeeded tells what the layout does not, such as that a length fits its prefix.

Lengths are read back only if the limits admit them.
-/

namespace Wireform

variable {α β : Type}

/-- The limits admit the length that the piece is, if it is one. -/
def Piece.Admitted (config : Config) : Piece → Prop
  | .octets _ => True
  | .textLength length => config.stringLengths.contains length = true
  | .byteLength length => config.byteLengths.contains length = true
  | .elementCount count => config.collectionLengths.contains count = true
  | .entryCount count => config.collectionLengths.contains count = true

/-- Whether a piece is admitted can be looked up. -/
instance (config : Config) : DecidablePred (Piece.Admitted config)
  | .octets _ => .isTrue trivial
  | .textLength length => inferInstanceAs (Decidable (config.stringLengths.contains length = true))
  | .byteLength length => inferInstanceAs (Decidable (config.byteLengths.contains length = true))
  | .elementCount count =>
      inferInstanceAs (Decidable (config.collectionLengths.contains count = true))
  | .entryCount count =>
      inferInstanceAs (Decidable (config.collectionLengths.contains count = true))

/-- Where there are no limits, every piece is admitted. -/
theorem Piece.admitted_unlimited (piece : Piece) : piece.Admitted {} := by
  cases piece with
  | octets _ => trivial
  | _ => rfl

namespace Buffer

/-- The operation takes exactly the bytes off the front and makes the result of them. -/
def Reads (config : Config) (operation : Op α) (bytes : Bytes) (result : α) : Prop :=
  ∀ rest, operation (reader (bytes ++ rest) config) = .ok result (reader rest config)

/-- The operation succeeds on some buffer. -/
def Succeeds (operation : Op α) : Prop :=
  ∃ before result after, operation before = .ok result after

variable {config : Config}

/-- A result is made of nothing. -/
theorem reads_pure (result : α) : Reads config (pure result) [] result := fun _ => rfl

/-- What follows reads what stands behind. -/
theorem reads_bind {operation : Op α} {next : α → Op β} {first second : Bytes} {between : α}
    {result : β} (readsFirst : Reads config operation first between)
    (readsSecond : Reads config (next between) second result) :
    Reads config (operation >>= next) (first ++ second) result := by
  intro rest
  rw [Step.bind_apply, List.append_assoc, readsFirst]
  exact readsSecond rest

/-- As `reads_bind`, where what follows reads nothing. -/
theorem reads_bind_pure {operation : Op α} {next : α → Op β} {bytes : Bytes} {between : α}
    {result : β} (reads : Reads config operation bytes between)
    (readsNothing : Reads config (next between) [] result) :
    Reads config (operation >>= next) bytes result := by
  have both := reads_bind reads readsNothing
  rwa [List.append_nil] at both

/-- A changed result is made of the same bytes. -/
theorem reads_map {operation : Op α} {bytes : Bytes} {result : α} (change : α → β)
    (reads : Reads config operation bytes result) :
    Reads config (change <$> operation) bytes (change result) := by
  rw [map_eq_pure_bind]
  exact reads_bind_pure reads (reads_pure _)

/-- A known result is made of nothing. -/
theorem reads_lift {outcome : Except Error α} {result : α} (known : outcome = .ok result) :
    Reads config (Step.lift outcome) [] result := by
  subst known
  exact reads_pure result

/-- Naming the field of a failure has no part in success. -/
theorem reads_inField {operation : Op α} {bytes : Bytes} {result : α} (owner name : String)
    (reads : Reads config operation bytes result) :
    Reads config (Step.inField owner name operation) bytes result := by
  intro rest
  simp only [Step.inField, reads rest]

/-- The limits can be looked up without reading. -/
theorem reads_limits {next : Config → Op α} {bytes : Bytes} {result : α}
    (reads : Reads config (next config) bytes result) :
    Reads config (limits >>= next) bytes result := reads

variable (config)

/-- Bytes are taken as they are. -/
theorem reads_take (bytes : Bytes) : Reads config (take bytes.length) bytes bytes :=
  fun rest => take_append bytes rest config

/-- A number is read back from its octets as far as it fits them. -/
theorem reads_readNumber (width number : Nat) :
    Reads config (readNumber width) (Bytes.bigEndian width number)
      (number % Bytes.capacity width) := by
  have taken : Reads config (take width) (Bytes.bigEndian width number)
      (Bytes.bigEndian width number) := by
    have reads := reads_take config (Bytes.bigEndian width number)
    rwa [Bytes.length_bigEndian] at reads
  rw [← Bytes.ofBigEndian_bigEndian]
  exact reads_bind_pure taken (reads_pure _)

/-- A number that fits its octets is read back. -/
theorem reads_readNumber_of_lt (width number : Nat) (fits : number < Bytes.capacity width) :
    Reads config (readNumber width) (Bytes.bigEndian width number) number := by
  have reads := reads_readNumber config width number
  rwa [Nat.mod_eq_of_lt fits] at reads

/-- A flag is read back. -/
theorem reads_readBool (truth : Bool) : Reads config readBool (Piece.flag truth).bytes truth := by
  have reads := reads_readNumber config 1 truth.toNat
  cases truth with
  | false => exact reads_bind_pure reads (reads_pure false)
  | true => exact reads_bind_pure reads (reads_pure true)

/-- A length that fits its prefix is read back if the limits admit it. -/
theorem reads_readLength (range : Range) (length : Nat) (fits : length < 0x80000000)
    (admitted : range.contains length = true) :
    Reads config (readLength range) (Bytes.bigEndian 4 length) length := by
  have room : Bytes.capacity 4 = 0x100000000 := rfl
  refine reads_bind_pure (reads_readNumber_of_lt config 4 length (by omega)) ?_
  have positive : 2 * length < Bytes.capacity 4 := by omega
  simp only [checkLength, positive, if_true, admitted]
  exact reads_pure length

/-- A long length that fits its prefix is read back if the limits admit it. -/
theorem reads_readLongLength (range : Range) (length : Nat) (fits : length < 0x8000000000000000)
    (admitted : range.contains length = true) :
    Reads config (readLongLength range) (Bytes.bigEndian 8 length) length := by
  have room : Bytes.capacity 8 = 0x10000000000000000 := rfl
  refine reads_bind_pure (reads_readNumber_of_lt config 8 length (by omega)) ?_
  have positive : 2 * length < Bytes.capacity 8 := by omega
  simp only [checkLength, positive, if_true, admitted]
  exact reads_pure length

variable {config}

/-- Results are collected in order. -/
theorem reads_repeated {operation : Op β} (items : List α) (bytes : α → Bytes) (result : α → β)
    (each : ∀ item ∈ items, Reads config operation (bytes item) (result item))
    (collected : List β) :
    Reads config (repeated operation items.length collected) (items.flatMap bytes)
      (collected.reverse ++ items.map result) := by
  induction items generalizing collected with
  | nil => simpa [repeated] using reads_pure collected.reverse
  | cons item rest inductionHypothesis =>
      have later := inductionHypothesis (fun other later => each other (List.mem_cons_of_mem _ later))
        (result item :: collected)
      simp only [List.flatMap_cons, List.length_cons, repeated]
      refine reads_bind (each item List.mem_cons_self) ?_
      simpa using later

/-! ## Operations that can succeed -/

/-- An operation that can fail only does not succeed. -/
theorem not_succeeds_fail (error : Error) : ¬ Succeeds (Step.fail error : Op α) := by
  rintro ⟨before, result, after, succeeded⟩
  cases succeeded

/-- If both succeed in succession, each can. -/
theorem succeeds_bind {operation : Op Unit} {next : Unit → Op β}
    (succeeds : Succeeds (operation >>= next)) : Succeeds operation ∧ Succeeds (next ()) := by
  obtain ⟨before, result, after, succeeded⟩ := succeeds
  rw [Step.bind_apply] at succeeded
  cases ended : operation before with
  | error error between => rw [ended] at succeeded; cases succeeded
  | ok done between =>
      rw [ended] at succeeded
      exact ⟨⟨before, (), between, ended⟩, ⟨between, result, after, succeeded⟩⟩

/-- If something follows a known outcome and succeeds, the outcome is a result. -/
theorem succeeds_lift {outcome : Except Error α} {next : α → Op β}
    (succeeds : Succeeds (Step.lift outcome >>= next)) :
    ∃ result, outcome = .ok result ∧ Succeeds (next result) := by
  cases outcome with
  | ok result => exact ⟨result, rfl, succeeds⟩
  | error error => exact absurd succeeds (not_succeeds_fail error)

/-- Naming the field of a failure has no part in success. -/
theorem succeeds_inField {operation : Op α} {owner name : String}
    (succeeds : Succeeds (Step.inField owner name operation)) : Succeeds operation := by
  obtain ⟨before, result, after, succeeded⟩ := succeeds
  cases ended : operation before with
  | error error between =>
      simp only [Step.inField, ended] at succeeded
      cases succeeded
  | ok done between => exact ⟨before, done, between, ended⟩

/-- If all succeed in succession, each can. -/
theorem succeeds_forM {operation : α → Op Unit} {items : List α}
    (succeeds : Succeeds (items.forM operation)) : ∀ item ∈ items, Succeeds (operation item) := by
  induction items with
  | nil => exact List.forall_mem_nil _
  | cons item rest inductionHypothesis =>
      obtain ⟨first, others⟩ := succeeds_bind succeeds
      intro other listed
      obtain rfl | later := List.mem_cons.mp listed
      · exact first
      · exact inductionHypothesis others other later

/-- A length that can be written fits its prefix. -/
theorem lt_of_writeLength {length : Nat} (succeeds : Succeeds (writeLength length)) :
    length < 0x80000000 := by
  by_cases fits : length < 0x80000000
  · exact fits
  · rw [writeLength, if_neg fits] at succeeds
    exact absurd succeeds (not_succeeds_fail _)

/-- A long length that can be written fits its prefix. -/
theorem lt_of_writeLongLength {length : Nat} (succeeds : Succeeds (writeLongLength length)) :
    length < 0x8000000000000000 := by
  by_cases fits : length < 0x8000000000000000
  · exact fits
  · rw [writeLongLength, if_neg fits] at succeeds
    exact absurd succeeds (not_succeeds_fail _)

/-- A character that can be written is one unit. -/
theorem lt_of_writeChar {char : Char} (succeeds : Succeeds (writeChar char)) :
    char.toNat < 0x10000 := by
  by_cases fits : char.toNat < 0x10000
  · exact fits
  · rw [writeChar, if_neg fits] at succeeds
    exact absurd succeeds (not_succeeds_fail _)

/-! ## Text, octets and characters -/

variable (config)

/-- Text that can be written is read back if the limits admit its length. -/
theorem reads_readString (text : String) (succeeds : Succeeds (writeString text))
    (admitted : ∀ piece ∈ Piece.text text, piece.Admitted config) :
    Reads config readString (Piece.wire (Piece.text text)) text := by
  obtain ⟨written, _⟩ := succeeds_bind succeeds
  have length := reads_readLength config config.stringLengths
    (Text.Utf8.encode text).length (lt_of_writeLength written)
    (admitted (.textLength _) List.mem_cons_self)
  have decoded : Reads config (asText (Text.Utf8.encode text)) [] text := by
    rw [asText, Text.Utf8.decode_encode]
    exact reads_pure text
  have octets := reads_bind_pure (reads_take config (Text.Utf8.encode text)) decoded
  have laid : Piece.wire (Piece.text text)
      = Bytes.bigEndian 4 (Text.Utf8.encode text).length ++ Text.Utf8.encode text := by
    simp [Piece.text, Piece.bytes]
  rw [laid]
  exact reads_limits (reads_bind length octets)

/-- Octets that can be written are read back if the limits admit their number. -/
theorem reads_readBytes (bytes : Bytes) (succeeds : Succeeds (writeBytes bytes))
    (admitted : ∀ piece ∈ Piece.counted bytes, piece.Admitted config) :
    Reads config readBytes (Piece.wire (Piece.counted bytes)) bytes := by
  obtain ⟨written, _⟩ := succeeds_bind succeeds
  have length := reads_readLength config config.byteLengths bytes.length
    (lt_of_writeLength written) (admitted (.byteLength _) List.mem_cons_self)
  have laid : Piece.wire (Piece.counted bytes) = Bytes.bigEndian 4 bytes.length ++ bytes := by
    simp [Piece.counted, Piece.bytes]
  rw [laid]
  exact reads_limits (reads_bind length (reads_take config bytes))

/-- A character that can be written is read back. -/
theorem reads_readChar (char : Char) (succeeds : Succeeds (writeChar char)) :
    Reads config readChar (Bytes.bigEndian 2 char.toNat) char := by
  refine reads_bind_pure (reads_readNumber_of_lt config 2 char.toNat (lt_of_writeChar succeeds)) ?_
  have valid : char.toNat.isValidChar := char.valid
  rw [if_pos valid, Char.ofNat_toNat]
  exact reads_pure char

end Buffer

open Buffer (Reads Succeeds)

variable (config : Config)

/-- A scalar that can be written is read back if the limits admit its length. -/
theorem Leaf.reads_read (plain : Scalar) (succeeds : Succeeds plain.write)
    (admitted : ∀ piece ∈ plain.layout, piece.Admitted config) :
    Reads config plain.leaf.read (Piece.wire plain.layout) plain := by
  have number {α : Type} (width value : Nat) (change : Nat → α) (result : α)
      (same : change (value % Bytes.capacity width) = result) :
      Reads config (do return change (← Buffer.readNumber width))
        (Piece.wire [.number width value]) result := by
    have laid : Piece.wire [.number width value] = Bytes.bigEndian width value := List.append_nil _
    rw [← same, laid]
    exact Buffer.reads_bind_pure (Buffer.reads_readNumber config width value) (Buffer.reads_pure _)
  cases plain with
  | i8 value =>
      exact number 1 _ (fun read => Scalar.i8 (UInt8.ofNat read).toInt8) _ (by simp [Bytes.capacity])
  | u8 value =>
      exact number 1 _ (fun read => Scalar.u8 (UInt8.ofNat read)) _ (by simp [Bytes.capacity])
  | i16 value =>
      exact number 2 _ (fun read => Scalar.i16 (UInt16.ofNat read).toInt16) _ (by simp [Bytes.capacity])
  | u16 value =>
      exact number 2 _ (fun read => Scalar.u16 (UInt16.ofNat read)) _ (by simp [Bytes.capacity])
  | i32 value =>
      exact number 4 _ (fun read => Scalar.i32 (UInt32.ofNat read).toInt32) _ (by simp [Bytes.capacity])
  | i64 value =>
      exact number 8 _ (fun read => Scalar.i64 (UInt64.ofNat read).toInt64) _ (by simp [Bytes.capacity])
  | u64 value =>
      exact number 8 _ (fun read => Scalar.u64 (UInt64.ofNat read)) _ (by simp [Bytes.capacity])
  | f32 bits =>
      exact number 4 _ (fun read => Scalar.f32 (UInt32.ofNat read)) _ (by simp [Bytes.capacity])
  | f64 bits =>
      exact number 8 _ (fun read => Scalar.f64 (UInt64.ofNat read)) _ (by simp [Bytes.capacity])
  | uuid bits =>
      refine number 16 _ (fun read => Scalar.uuid (BitVec.ofNat 128 read)) _ ?_
      have bound : bits.toNat < Bytes.capacity 16 := bits.isLt
      change Scalar.uuid (BitVec.ofNat 128 (bits.toNat % Bytes.capacity 16)) = Scalar.uuid bits
      rw [Nat.mod_eq_of_lt bound, BitVec.ofNat_toNat, BitVec.setWidth_eq]
  | bool truth =>
      have laid : Piece.wire (Scalar.bool truth).layout = (Piece.flag truth).bytes :=
        List.append_nil _
      rw [laid]
      exact Buffer.reads_bind_pure (Buffer.reads_readBool config truth) (Buffer.reads_pure _)
  | char char =>
      have laid : Piece.wire (Scalar.char char).layout = Bytes.bigEndian 2 char.toNat :=
        List.append_nil _
      rw [laid]
      exact Buffer.reads_bind_pure (Buffer.reads_readChar config char succeeds)
        (Buffer.reads_pure _)
  | string text =>
      exact Buffer.reads_bind_pure (Buffer.reads_readString config text succeeds admitted)
        (Buffer.reads_pure _)
  | bytes octets =>
      exact Buffer.reads_bind_pure (Buffer.reads_readBytes config octets succeeds admitted)
        (Buffer.reads_pure _)

/-- A name stands for the member whose name it is, if no other member has that name. -/
theorem Enumeration.fromName_getElem (type : Ty) (names : List String) (distinct : names.Nodup)
    (index : Nat) (known : index < names.length) :
    fromName type names names[index] = some (.member type index) := by
  have first : names.idxOf? names[index] = some index := by
    refine List.idxOf?_eq_some_iff.mpr ⟨known, rfl, fun earlier before same => ?_⟩
    have equal := (List.getElem_inj distinct).mp same
    omega
  simp [fromName, first]

/-- The name of a member that can be written is read back as the member, if no other
    member has that name. -/
theorem Enumeration.reads_read (type : Ty) (names : List String) (distinct : names.Nodup)
    (index : Nat) (known : index < names.length)
    (succeeds : Succeeds (Enumeration.write type names (.member type index)))
    (admitted : ∀ piece ∈ Piece.text (names[index]?.getD ""), piece.Admitted config) :
    Reads config (Enumeration.read type names) (Piece.wire (Piece.text (names[index]?.getD "")))
      (.member type index) := by
  have named : names[index]? = some names[index] := List.getElem?_eq_getElem known
  have found := fromName_getElem type names distinct index known
  simp only [named, Option.getD_some] at admitted ⊢
  rw [write, nameOf, named] at succeeds
  simp only [if_true] at succeeds
  refine Buffer.reads_bind_pure (Buffer.reads_readString config _ succeeds admitted) ?_
  rw [found]
  exact Buffer.reads_pure _

end Wireform
