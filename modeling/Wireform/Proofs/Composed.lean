import Wireform.Buffer.Format
import Wireform.Proofs.Answer

/-!
# What becomes of a buffer

Appending puts bytes behind those that a writer has, and taking takes the first bytes off a
reader. Whatever is composed of the two does no more than that to a buffer: it keeps its
mode and its limits, a writer only grows at its end, and a reader only loses bytes at its
front. This is so however the operation ends, and also where a failure is caught and the
buffer used on.

All formats that come with the buffer are composed like this. A type that writes and reads
itself may do anything, so that it has to be asked of it.
-/

namespace Wireform

variable {α β : Type}

namespace Buffer

/-! ## How a buffer changes -/

/-- What can become of a buffer: it keeps its mode and its limits, a writer has grown at its end,
    and a reader has lost bytes at its front. -/
structure Becomes (before after : Buffer) : Prop where
  mode : after.mode = before.mode
  config : after.config = before.config
  grown : before.mode = .write → ∃ more, after.bytes = before.bytes ++ more
  drained : before.mode = .read → ∃ lost, before.bytes = lost ++ after.bytes

/-- A buffer that is left alone. -/
theorem becomes_refl (buffer : Buffer) : buffer.Becomes buffer where
  mode := rfl
  config := rfl
  grown _ := ⟨[], (List.append_nil _).symm⟩
  drained _ := ⟨[], rfl⟩

/-- What becomes of a buffer in two stages. -/
theorem Becomes.trans {before between after : Buffer} (first : before.Becomes between)
    (second : between.Becomes after) : before.Becomes after where
  mode := second.mode.trans first.mode
  config := second.config.trans first.config
  grown writes := by
    obtain ⟨more, early⟩ := first.grown writes
    obtain ⟨further, late⟩ := second.grown (first.mode.trans writes)
    exact ⟨more ++ further, by rw [late, early, List.append_assoc]⟩
  drained reads := by
    obtain ⟨lost, early⟩ := first.drained reads
    obtain ⟨further, late⟩ := second.drained (first.mode.trans reads)
    exact ⟨lost ++ further, by rw [early, late, List.append_assoc]⟩

/-- Appending grows a writer and leaves a reader alone. -/
theorem becomes_append (bytes : Bytes) (buffer : Buffer) :
    buffer.Becomes (Step.left (append bytes buffer)) := by
  rcases buffer with ⟨reversed | unread, config⟩
  · refine ⟨rfl, rfl, fun _ => ⟨bytes, ?_⟩, fun reads => by cases reads⟩
    simp [append, Step.left, Buffer.bytes, List.reverseAux_eq]
  · exact becomes_refl _

/-- Taking drains a reader that has enough, and leaves all other buffers alone. -/
theorem becomes_take (count : Nat) (buffer : Buffer) :
    buffer.Becomes (Step.left (take count buffer)) := by
  rcases buffer with ⟨reversed | unread, config⟩
  · exact becomes_refl _
  · simp only [take, List.splitAt_eq]
    split
    · exact ⟨rfl, rfl, (fun writes => by cases writes),
        fun _ => ⟨unread.take count, (List.take_append_drop _ _).symm⟩⟩
    · exact becomes_refl _

/-! ## Operations made of others -/

/-- Looks at the buffer. -/
def look (view : Buffer → α) : Op α := fun buffer => .ok (view buffer) buffer

/-- Catches a failure of an operation. The buffer stays as the failure has left it. -/
def attempt (operation : Op α) : Op (Except Error α) := fun buffer =>
  match operation buffer with
  | .ok result after => .ok (.ok result) after
  | .error error after => .ok (.error error) after

/-- The operation is made of appending and taking. It may look at the buffer, fail on its own
    account and catch failures. -/
inductive Composed : {α : Type} → Op α → Prop
  | pure {α : Type} (result : α) : Composed (pure result)
  | fail {α : Type} (error : Error) : Composed (fail error : Op α)
  | look {α : Type} (view : Buffer → α) : Composed (look view)
  | append (bytes : Bytes) : Composed (append bytes)
  | take (count : Nat) : Composed (take count)
  | bind {α β : Type} {operation : Op α} {next : α → Op β} (first : Composed operation)
      (second : ∀ result, Composed (next result)) : Composed (operation >>= next)
  | attempt {α : Type} {operation : Op α} (composed : Composed operation) :
      Composed (attempt operation)

/-- Catching a failure makes no difference to the buffer. -/
theorem left_attempt (operation : Op α) (buffer : Buffer) :
    Step.left (attempt operation buffer) = Step.left (operation buffer) := by
  simp only [attempt]
  cases operation buffer <;> rfl

/-- What becomes of a buffer by an operation that is made of appending and taking. -/
theorem Composed.becomes {operation : Op α} (composed : Composed operation) (buffer : Buffer) :
    buffer.Becomes (Step.left (operation buffer)) := by
  induction composed generalizing buffer with
  | pure result => exact becomes_refl buffer
  | fail error => exact becomes_refl buffer
  | look view => exact becomes_refl buffer
  | append bytes => exact becomes_append bytes buffer
  | take count => exact becomes_take count buffer
  | @bind _ _ operation next _ _ first second =>
      have early := first buffer
      rw [Step.bind_apply]
      cases ended : operation buffer with
      | ok result between =>
          rw [ended] at early
          exact early.trans (second result between)
      | error error between =>
          rw [ended] at early
          exact early
  | attempt _ inductionHypothesis =>
      rw [left_attempt]
      exact inductionHypothesis buffer

/-- Changing a result takes no operation. -/
theorem Composed.map {operation : Op α} (change : α → β) (composed : Composed operation) :
    Composed (change <$> operation) := by
  rw [map_eq_pure_bind]
  exact composed.bind fun result => .pure (change result)

/-- A known outcome takes no operation. -/
theorem composed_lift (outcome : Except Error α) : Composed (Step.lift outcome) := by
  cases outcome with
  | ok result => exact .pure result
  | error error => exact .fail error

/-- A number that is refused or written. -/
theorem composed_ite {condition : Prop} [Decidable condition] {first second : Op α}
    (accepted : Composed first) (refused : Composed second) :
    Composed (if condition then first else second) := by
  split
  · exact accepted
  · exact refused

/-- Writing a number. -/
theorem composed_writeNumber (width number : Nat) : Composed (writeNumber width number) :=
  .append _

/-- Reading a number. -/
theorem composed_readNumber (width : Nat) : Composed (readNumber width) :=
  (Composed.take width).bind fun _ => .pure _

/-- Reading a flag. -/
theorem composed_readBool : Composed readBool := by
  refine (composed_readNumber 1).bind fun number => ?_
  split
  · exact .pure false
  · exact .pure true
  · exact .fail _

/-- Writing a length of four octets. -/
theorem composed_writeLength (length : Nat) : Composed (writeLength length) :=
  composed_ite (composed_writeNumber 4 length) (.fail _)

/-- Writing a length of eight octets. -/
theorem composed_writeLongLength (length : Nat) : Composed (writeLongLength length) :=
  composed_ite (composed_writeNumber 8 length) (.fail _)

/-- Checking a length that was read. -/
theorem composed_checkLength (width : Nat) (range : Range) (number : Nat) :
    Composed (checkLength width range number) :=
  composed_ite (composed_ite (.pure number) (.fail _)) (.fail _)

/-- Reading a length of four octets. -/
theorem composed_readLength (range : Range) : Composed (readLength range) :=
  (composed_readNumber 4).bind fun number => composed_checkLength 4 range number

/-- Reading a length of eight octets. -/
theorem composed_readLongLength (range : Range) : Composed (readLongLength range) :=
  (composed_readNumber 8).bind fun number => composed_checkLength 8 range number

/-- Looking at the limits. -/
theorem composed_limits : Composed limits := .look config

/-- Taking octets for text. -/
theorem composed_asText (bytes : Bytes) : Composed (asText bytes) := by
  unfold asText
  split
  · exact .pure _
  · exact .fail _

/-- Writing text. -/
theorem composed_writeString (text : String) : Composed (writeString text) :=
  (composed_writeLength _).bind fun _ => .append _

/-- Reading text. -/
theorem composed_readString : Composed readString :=
  composed_limits.bind fun _ => (composed_readLength _).bind fun length =>
    (Composed.take length).bind composed_asText

/-- Writing a short text. -/
theorem composed_writeShortString (text : String) : Composed (writeShortString text) :=
  composed_ite ((composed_writeNumber 2 _).bind fun _ => .append _) (.fail _)

/-- Reading a short text. -/
theorem composed_readShortString : Composed readShortString :=
  (composed_readNumber 2).bind fun length => composed_limits.bind fun _ =>
    composed_ite ((Composed.take length).bind composed_asText) (.fail _)

/-- Writing a byte string. -/
theorem composed_writeBytes (octets : Bytes) : Composed (writeBytes octets) :=
  (composed_writeLength _).bind fun _ => .append octets

/-- Reading a byte string. -/
theorem composed_readBytes : Composed readBytes :=
  composed_limits.bind fun _ => (composed_readLength _).bind fun length => .take length

/-- Writing a character. -/
theorem composed_writeChar (char : Char) : Composed (writeChar char) :=
  composed_ite (composed_writeNumber 2 _) (.fail _)

/-- Reading a character. -/
theorem composed_readChar : Composed readChar :=
  (composed_readNumber 2).bind fun _ => composed_ite (.pure _) (.fail _)

/-- Repeating an operation. -/
theorem composed_repeated {operation : Op α} (composed : Composed operation) (count : Nat)
    (collected : List α) : Composed (repeated operation count collected) := by
  induction count generalizing collected with
  | zero => exact .pure collected.reverse
  | succ count inductionHypothesis =>
      exact composed.bind fun result => inductionHypothesis (result :: collected)

/-- An operation on each of a list of items. -/
theorem composed_forM {items : List α} {operation : α → Op Unit}
    (each : ∀ item, Composed (operation item)) : Composed (items.forM operation) := by
  induction items with
  | nil => exact .pure ()
  | cons item rest inductionHypothesis => exact (each item).bind fun _ => inductionHypothesis

end Buffer

open Buffer (Composed)

/-- Writing a scalar. -/
theorem Scalar.composed_write (plain : Scalar) : Composed plain.write := by
  cases plain with
  | char character => exact Buffer.composed_writeChar character
  | string text => exact Buffer.composed_writeString text
  | bytes octets => exact Buffer.composed_writeBytes octets
  | _ => exact Buffer.composed_writeNumber _ _

/-- Reading a scalar. -/
theorem Leaf.composed_read (plain : Leaf) : Composed plain.read := by
  cases plain with
  | bool => exact Buffer.composed_readBool.bind fun _ => .pure _
  | char => exact Buffer.composed_readChar.bind fun _ => .pure _
  | string => exact Buffer.composed_readString.bind fun _ => .pure _
  | bytes => exact Buffer.composed_readBytes.bind fun _ => .pure _
  | _ => exact (Buffer.composed_readNumber _).bind fun _ => .pure _

/-- Writing a value of a leaf type. -/
theorem Leaf.composed_writeValue (plain : Leaf) (value : Value) :
    Composed (plain.writeValue value) := by
  cases value with
  | scalar scalar => exact Buffer.composed_ite scalar.composed_write (.fail _)
  | _ => exact .fail _

/-- Writing a member of an enumeration. -/
theorem Enumeration.composed_write (type : Ty) (names : List String) (value : Value) :
    Composed (write type names value) := by
  unfold write
  split
  · exact Buffer.composed_writeString _
  · exact .fail _

/-- Reading a member of an enumeration. -/
theorem Enumeration.composed_read (type : Ty) (names : List String) :
    Composed (read type names) := by
  refine Buffer.composed_readString.bind fun name => ?_
  split
  · exact .pure _
  · exact .fail _

namespace Format

/-- The types that write and read themselves do so by buffer operations. -/
def Composed : Format → Prop
  | .custom _ layout => (∀ value, Buffer.Composed (layout.write value)) ∧ Buffer.Composed layout.read
  | .list element => element.Composed
  | .set element => element.Composed
  | .queue element => element.Composed
  | .map key value => key.Composed ∧ value.Composed
  | .optional inner => inner.Composed
  | _ => True

/-- Counting and writing items. -/
theorem composed_writeAll {write : Value → Buffer.Op Unit}
    (each : ∀ value, Buffer.Composed (write value)) (items : List Value) :
    Buffer.Composed (writeAll write items) :=
  (Buffer.composed_writeLength _).bind fun _ => Buffer.composed_forM each

/-- Reading as many results as are announced. -/
theorem composed_readAll {read : Buffer.Op α} (composed : Buffer.Composed read) :
    Buffer.Composed (readAll read) :=
  Buffer.composed_limits.bind fun _ => (Buffer.composed_readLength _).bind fun count =>
    Buffer.composed_repeated composed count []

/-- Writing in a format. -/
theorem composed_write (format : Format) (composed : format.Composed) (value : Value) :
    Buffer.Composed (format.write value) := by
  induction format generalizing value with
  | leaf kind => exact kind.composed_writeValue value
  | shortString =>
      cases value with
      | scalar plain =>
          cases plain with
          | string text => exact Buffer.composed_writeShortString text
          | _ => exact .fail _
      | _ => exact .fail _
  | enumeration type names => exact Enumeration.composed_write type names value
  | custom type layout => exact Buffer.composed_ite (composed.1 value) (.fail _)
  | list element inductionHypothesis
  | set element inductionHypothesis
  | queue element inductionHypothesis =>
      cases value with
      | sequence type items => exact composed_writeAll (inductionHypothesis composed) items
      | _ => exact .fail _
  | map key part keys parts =>
      cases value with
      | map type entries =>
          exact (Buffer.composed_writeLength _).bind fun _ => Buffer.composed_forM fun entry =>
            (keys composed.1 entry.1).bind fun _ => parts composed.2 entry.2
      | _ => exact .fail _
  | optional inner inductionHypothesis =>
      cases value with
      | absent type => exact Buffer.composed_writeNumber 1 _
      | present held =>
          exact (Buffer.composed_writeNumber 1 _).bind fun _ => inductionHypothesis composed held
      | _ => exact .fail _

/-- Reading in a format. -/
theorem composed_read (format : Format) (composed : format.Composed) :
    Buffer.Composed format.read := by
  induction format with
  | leaf kind => exact kind.composed_read.bind fun _ => .pure _
  | shortString => exact Buffer.composed_readShortString.bind fun _ => .pure _
  | enumeration type names => exact Enumeration.composed_read type names
  | custom type layout => exact composed.2
  | list element inductionHypothesis
  | set element inductionHypothesis
  | queue element inductionHypothesis =>
      exact (composed_readAll (inductionHypothesis composed)).bind fun _ => .pure _
  | map key part keys parts =>
      refine (composed_readAll ?_).bind fun _ => .pure _
      exact (keys composed.1).bind fun _ => (parts composed.2).bind fun _ => .pure _
  | optional inner inductionHypothesis =>
      refine Buffer.composed_readBool.bind fun present => ?_
      exact Buffer.composed_ite ((inductionHypothesis composed).bind fun _ => .pure _) (.pure _)

end Format

end Wireform
