import Wireform.Proofs.Shape

/-!
# What was read can be written

A reader could be more liberal than the writer that it belongs to: it could accept a flag
that is neither 0 nor 1, text that is no UTF-8, or a number in other octets than its own.
Here it is shown of the readers of leaves that they are not. A reading operation takes
spellings of its results if whatever it accepts is a spelling of what it makes of it, and a
writing operation writes bytes if it succeeds on every writer and appends them.
-/

namespace Wireform

variable {α β : Type}

namespace Buffer

/-- Whatever the operation takes off the front spells its result. -/
def Takes (config : Config) (operation : Op α) (spells : α → Bytes → Prop) : Prop :=
  ∀ bytes result after, operation (reader bytes config) = .ok result after →
    ∃ front rest, bytes = front ++ rest ∧ after = reader rest config ∧ spells result front

/-- The operation succeeds on every writer and appends the bytes. -/
def Writes (operation : Op Unit) (bytes : Bytes) : Prop :=
  ∀ reversed config, operation ⟨.written reversed, config⟩
    = .ok () ⟨.written (bytes.reverse ++ reversed), config⟩

/-! ## Writing -/

/-- An operation writes the same bytes each time. -/
theorem eq_of_writes {operation : Op Unit} {bytes others : Bytes}
    (writes : Writes operation bytes) (writesOthers : Writes operation others) :
    bytes = others := by
  have once := writes [] {}
  rw [writesOthers [] {}] at once
  simpa using once.symm

/-- Doing nothing writes nothing. -/
theorem writes_pure : Writes (pure ()) [] := fun _ _ => rfl

/-- Appending writes. -/
theorem writes_append (bytes : Bytes) : Writes (append bytes) bytes := by
  intro reversed config
  simp only [append, List.reverseAux_eq]

/-- A succession of operations writes the bytes of the first and then of the second. -/
theorem writes_bind {operation : Op Unit} {next : Unit → Op Unit} {first second : Bytes}
    (writesFirst : Writes operation first) (writesSecond : Writes (next ()) second) :
    Writes (operation >>= next) (first ++ second) := by
  intro reversed config
  rw [Step.bind_apply, writesFirst]
  have written := writesSecond (first.reverse ++ reversed) config
  rwa [← List.append_assoc, ← List.reverse_append] at written

/-- What follows a known result writes what it writes. -/
theorem writes_lift {outcome : Except Error α} {next : α → Op Unit} {bytes : Bytes} {result : α}
    (known : outcome = .ok result) (writes : Writes (next result) bytes) :
    Writes (Step.lift outcome >>= next) bytes := by
  subst known
  exact writes

/-- Naming the field of a failure has no part in writing. -/
theorem writes_inField {operation : Op Unit} {bytes : Bytes} (owner name : String)
    (writes : Writes operation bytes) : Writes (Step.inField owner name operation) bytes := by
  intro reversed config
  simp only [Step.inField, writes reversed config]

/-- A short length is written in four octets. -/
theorem writes_writeLength (length : Nat) (fits : length < 0x80000000) :
    Writes (writeLength length) (Bytes.bigEndian 4 length) := by
  rw [writeLength, if_pos fits]
  exact writes_append _

/-- A length is written in eight octets. -/
theorem writes_writeLongLength (length : Nat) (fits : length < 0x8000000000000000) :
    Writes (writeLongLength length) (Bytes.bigEndian 8 length) := by
  rw [writeLongLength, if_pos fits]
  exact writes_append _

/-! ## Taking -/

variable {config : Config}

/-- A result that nothing spells takes nothing. -/
theorem takes_pure {spells : α → Bytes → Prop} (result : α) (spelled : spells result []) :
    Takes config (pure result) spells := by
  intro bytes found after succeeded
  cases succeeded
  exact ⟨[], bytes, rfl, rfl, spelled⟩

/-- What spells a result more loosely is taken all the more. -/
theorem takes_mono {operation : Op α} {spells looser : α → Bytes → Prop}
    (takes : Takes config operation spells)
    (implies : ∀ result front, spells result front → looser result front) :
    Takes config operation looser := by
  intro bytes result after succeeded
  obtain ⟨front, rest, split, left, spelled⟩ := takes bytes result after succeeded
  exact ⟨front, rest, split, left, implies result front spelled⟩

/-- A failure takes nothing. -/
theorem takes_fail {spells : α → Bytes → Prop} (error : Error) :
    Takes config (Step.fail error) spells :=
  fun _ _ _ succeeded => by cases succeeded

/-- A known outcome takes nothing. -/
theorem takes_lift {spells : α → Bytes → Prop} {outcome : Except Error α}
    (known : ∀ result, outcome = .ok result → spells result []) :
    Takes config (Step.lift outcome) spells := by
  cases outcome with
  | ok result => exact takes_pure result (known result rfl)
  | error error => exact takes_fail error

/-- What a succession takes is what the first takes and then what the second takes. -/
theorem takes_bind {operation : Op α} {next : α → Op β} {spells : α → Bytes → Prop}
    {together : β → Bytes → Prop} (first : Takes config operation spells)
    (second : ∀ result front, spells result front →
      Takes config (next result) fun outcome behind => together outcome (front ++ behind)) :
    Takes config (operation >>= next) together := by
  intro bytes result after succeeded
  rw [Step.bind_apply] at succeeded
  cases ended : operation (reader bytes config) with
  | error error between => rw [ended] at succeeded; cases succeeded
  | ok found between =>
      rw [ended] at succeeded
      obtain ⟨front, rest, rfl, rfl, spelled⟩ := first _ _ _ ended
      obtain ⟨behind, left, rfl, rfl, both⟩ := second found front spelled _ _ _ succeeded
      exact ⟨front ++ behind, left, (List.append_assoc _ _ _).symm, rfl, both⟩

/-- What is made of a result of an operation takes what the operation takes. -/
theorem takes_map {operation : Op α} {spells : α → Bytes → Prop} {spelled : β → Bytes → Prop}
    (change : α → β) (takes : Takes config operation spells)
    (changed : ∀ result front, spells result front → spelled (change result) front) :
    Takes config (change <$> operation) spelled := by
  rw [map_eq_pure_bind]
  refine takes_bind takes fun result front holds => takes_pure _ ?_
  rw [List.append_nil]
  exact changed result front holds

/-- As `takes_bind`, where what follows takes nothing. -/
theorem takes_bind_lift {operation : Op α} {next : α → Except Error β}
    {spells : α → Bytes → Prop} {spelled : β → Bytes → Prop}
    (takes : Takes config operation spells)
    (known : ∀ result front, spells result front → ∀ outcome, next result = .ok outcome →
      spelled outcome front) :
    Takes config (operation >>= fun result => Step.lift (next result)) spelled := by
  refine takes_bind takes fun result front holds => takes_lift fun outcome same => ?_
  rw [List.append_nil]
  exact known result front holds outcome same

/-- Naming the field of a failure takes nothing. -/
theorem takes_inField {operation : Op α} {spells : α → Bytes → Prop} (owner name : String)
    (takes : Takes config operation spells) :
    Takes config (Step.inField owner name operation) spells := by
  intro bytes result after succeeded
  unfold Step.inField at succeeded
  cases ended : operation (reader bytes config) with
  | error error between => rw [ended] at succeeded; cases succeeded
  | ok found between =>
      rw [ended] at succeeded
      cases succeeded
      exact takes _ _ _ ended

/-- The limits can be looked up without taking anything. -/
theorem takes_limits {next : Config → Op α} {spells : α → Bytes → Prop}
    (takes : Takes config (next config) spells) : Takes config (limits >>= next) spells := takes

/-- Bytes spell themselves. -/
theorem takes_take (count : Nat) :
    Takes config (take count) fun result front => result = front ∧ front.length = count := by
  intro bytes result after succeeded
  simp only [take, reader, List.splitAt_eq] at succeeded
  split at succeeded
  · next enough =>
      cases succeeded
      exact ⟨bytes.take count, bytes.drop count, (List.take_append_drop _ _).symm, rfl, rfl, enough⟩
  · cases succeeded

/-- A number is in the octets that it would be written in. -/
theorem takes_readNumber (width : Nat) :
    Takes config (readNumber width) fun number front =>
      front = Bytes.bigEndian width number ∧ number < Bytes.capacity width := by
  refine takes_map Bytes.ofBigEndian (takes_take width) ?_
  rintro octets front ⟨rfl, rfl⟩
  exact ⟨(Bytes.bigEndian_ofBigEndian octets).symm, Bytes.ofBigEndian_lt octets⟩

/-- Results that are read one after another are spelled one after another. -/
theorem takes_repeated {operation : Op α} {write : α → Op Unit} {good : α → Prop}
    (takes : Takes config operation fun item front => good item ∧ Writes (write item) front)
    (count : Nat) (collected : List α) :
    Takes config (repeated operation count collected) fun results front =>
      ∃ items, results = collected.reverse ++ items ∧ items.length = count ∧
        (∀ item ∈ items, good item) ∧ Writes (items.forM write) front := by
  induction count generalizing collected with
  | zero =>
      exact takes_pure _ ⟨[], (List.append_nil _).symm, rfl, List.forall_mem_nil _, writes_pure⟩
  | succ count inductionHypothesis =>
      refine takes_bind takes fun item front spelled => ?_
      obtain ⟨holds, written⟩ := spelled
      refine takes_mono (inductionHypothesis (item :: collected)) ?_
      rintro results behind ⟨items, rfl, length, others, writtenBehind⟩
      refine ⟨item :: items, ?_, congrArg (· + 1) length, ?_, writes_bind written writtenBehind⟩
      · rw [List.reverse_cons, List.append_assoc, List.singleton_append]
      · exact List.forall_mem_cons.mpr ⟨holds, others⟩

/-! ## Leaves -/

/-- Only the octets of flags are taken for flags. -/
theorem takes_readBool : Takes config readBool fun flag front => Writes (writeBool flag) front := by
  refine takes_bind (takes_readNumber 1) fun number front spelled => ?_
  obtain ⟨rfl, _⟩ := spelled
  match number with
  | 0 => exact takes_pure false (writes_append _)
  | 1 => exact takes_pure true (writes_append _)
  | number + 2 => exact takes_fail _

/-- A length that passes the check is not negative. -/
theorem takes_checkLength (width : Nat) (range : Range) (number : Nat) :
    Takes config (checkLength width range number) fun length front =>
      front = [] ∧ length = number ∧ 2 * number < Bytes.capacity width := by
  unfold checkLength
  split
  · next positive =>
      split
      · exact takes_pure number ⟨rfl, rfl, positive⟩
      · exact takes_fail _
  · exact takes_fail _

/-- A length that is read would be written in the same octets. -/
theorem takes_readLength (range : Range) :
    Takes config (readLength range) fun length front => Writes (writeLength length) front := by
  refine takes_bind (takes_readNumber 4) fun number front spelled => ?_
  obtain ⟨rfl, _⟩ := spelled
  refine takes_mono (takes_checkLength 4 range number) ?_
  rintro length behind ⟨rfl, rfl, positive⟩
  have room : Bytes.capacity 4 = 0x100000000 := rfl
  rw [List.append_nil]
  exact writes_writeLength _ (by omega)

/-- A long length that is read would be written in the same octets. -/
theorem takes_readLongLength (range : Range) :
    Takes config (readLongLength range) fun length front =>
      Writes (writeLongLength length) front := by
  refine takes_bind (takes_readNumber 8) fun number front spelled => ?_
  obtain ⟨rfl, _⟩ := spelled
  refine takes_mono (takes_checkLength 8 range number) ?_
  rintro length behind ⟨rfl, rfl, positive⟩
  have room : Bytes.capacity 8 = 0x10000000000000000 := rfl
  rw [List.append_nil]
  exact writes_writeLongLength _ (by omega)

/-- Text that is read would be written in the same octets. -/
theorem takes_readString :
    Takes config readString fun text front => Writes (writeString text) front := by
  refine takes_limits (takes_bind (takes_readLength config.stringLengths)
    fun length front counted => ?_)
  refine takes_bind (takes_take length) fun octets behind spelled => ?_
  obtain ⟨rfl, rfl⟩ := spelled
  unfold asText
  split
  · next text decoded =>
      refine takes_pure text ?_
      have same := Text.Utf8.encode_of_decode decoded
      unfold writeString
      rw [same, List.append_nil]
      exact writes_bind counted (writes_append octets)
  · exact takes_fail _

/-- Octets that are read would be written as they are. -/
theorem takes_readBytes :
    Takes config readBytes fun octets front => Writes (writeBytes octets) front := by
  refine takes_limits (takes_bind (takes_readLength config.byteLengths)
    fun length front counted => ?_)
  refine takes_mono (takes_take length) ?_
  rintro octets behind ⟨rfl, rfl⟩
  exact writes_bind counted (writes_append octets)

/-- A character that is read would be written in the same unit. -/
theorem takes_readChar :
    Takes config readChar fun char front => Writes (writeChar char) front := by
  refine takes_bind (takes_readNumber 2) fun unit front spelled => ?_
  obtain ⟨rfl, small⟩ := spelled
  split
  · next valid =>
      refine takes_pure _ ?_
      have same : (Char.ofNat unit).toNat = unit := by
        rw [Char.ofNat, dif_pos valid]
        rfl
      have short : unit < 0x10000 := small
      rw [writeChar, same, if_pos short, List.append_nil]
      exact writes_append _
  · exact takes_fail _

end Buffer

open Buffer (Takes Writes)

variable {config : Config}

/-- A scalar that is read is of the type that was asked for and would be written in the same
    octets. -/
theorem Leaf.takes_read (plain : Leaf) :
    Takes config plain.read fun scalar front => scalar.leaf = plain ∧ Writes scalar.write front := by
  have number (width : Nat) (change : Nat → Scalar)
      (spelled : ∀ number, number < Bytes.capacity width → (change number).leaf = plain ∧
        Writes (change number).write (Bytes.bigEndian width number)) :
      Takes config (do return change (← Buffer.readNumber width))
        fun scalar front => scalar.leaf = plain ∧ Writes scalar.write front := by
    refine Buffer.takes_map change (Buffer.takes_readNumber width) ?_
    rintro number front ⟨rfl, small⟩
    exact spelled number small
  have written (width number same : Nat) (equal : same = number) :
      Writes (Buffer.writeNumber width same) (Bytes.bigEndian width number) :=
    equal ▸ Buffer.writes_append _
  cases plain with
  | bool => exact Buffer.takes_map Scalar.bool Buffer.takes_readBool fun _ _ holds => ⟨rfl, holds⟩
  | char => exact Buffer.takes_map Scalar.char Buffer.takes_readChar fun _ _ holds => ⟨rfl, holds⟩
  | string =>
      exact Buffer.takes_map Scalar.string Buffer.takes_readString fun _ _ holds => ⟨rfl, holds⟩
  | bytes =>
      exact Buffer.takes_map Scalar.bytes Buffer.takes_readBytes fun _ _ holds => ⟨rfl, holds⟩
  | uuid =>
      refine number 16 (fun number => .uuid (BitVec.ofNat 128 number)) fun number small => ?_
      exact ⟨rfl, written 16 number _ (Nat.mod_eq_of_lt small)⟩
  | i8 =>
      refine number 1 (fun number => .i8 (UInt8.ofNat number).toInt8) fun number small => ?_
      exact ⟨rfl, written 1 number _ (Nat.mod_eq_of_lt small)⟩
  | u8 =>
      refine number 1 (fun number => .u8 (UInt8.ofNat number)) fun number small => ?_
      exact ⟨rfl, written 1 number _ (Nat.mod_eq_of_lt small)⟩
  | i16 =>
      refine number 2 (fun number => .i16 (UInt16.ofNat number).toInt16) fun number small => ?_
      exact ⟨rfl, written 2 number _ (Nat.mod_eq_of_lt small)⟩
  | u16 =>
      refine number 2 (fun number => .u16 (UInt16.ofNat number)) fun number small => ?_
      exact ⟨rfl, written 2 number _ (Nat.mod_eq_of_lt small)⟩
  | i32 =>
      refine number 4 (fun number => .i32 (UInt32.ofNat number).toInt32) fun number small => ?_
      exact ⟨rfl, written 4 number _ (Nat.mod_eq_of_lt small)⟩
  | i64 =>
      refine number 8 (fun number => .i64 (UInt64.ofNat number).toInt64) fun number small => ?_
      exact ⟨rfl, written 8 number _ (Nat.mod_eq_of_lt small)⟩
  | u64 =>
      refine number 8 (fun number => .u64 (UInt64.ofNat number)) fun number small => ?_
      exact ⟨rfl, written 8 number _ (Nat.mod_eq_of_lt small)⟩
  | f32 =>
      refine number 4 (fun number => .f32 (UInt32.ofNat number)) fun number small => ?_
      exact ⟨rfl, written 4 number _ (Nat.mod_eq_of_lt small)⟩
  | f64 =>
      refine number 8 (fun number => .f64 (UInt64.ofNat number)) fun number small => ?_
      exact ⟨rfl, written 8 number _ (Nat.mod_eq_of_lt small)⟩

/-- A member that is read would be written by the same name. -/
theorem Enumeration.takes_read (type : Ty) (names : List String) :
    Takes config (Enumeration.read type names) fun value front =>
      (∃ index, value = .member type index) ∧ Writes (Enumeration.write type names value) front := by
  refine Buffer.takes_bind Buffer.takes_readString fun name front spelled => ?_
  cases found : names.idxOf? name with
  | none =>
      simp only [fromName, found]
      exact Buffer.takes_fail _
  | some index =>
      obtain ⟨known, same, _⟩ := List.idxOf?_eq_some_iff.mp found
      have named : names[index]? = some name :=
        (List.getElem?_eq_getElem known).trans (congrArg some same)
      simp only [fromName, found]
      refine Buffer.takes_pure _ ⟨⟨index, rfl⟩, ?_⟩
      rw [List.append_nil, write, nameOf, named]
      simp only [if_true]
      exact spelled

end Wireform
