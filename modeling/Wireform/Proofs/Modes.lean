import Wireform.Proofs.Composed

/-!
# Buffers in the other mode

An operation of the other mode fails before it has done anything, and names the mode that
the buffer is in. Those that put a number into a prefix look at the number first: if there is
no room for it, that is what they fail for in either mode. This concerns texts, byte strings,
counts and characters. The elements of a collection have no part in it, and no operation that
reads looks at anything before the mode.

So a call in the other mode leaves no trace, and whatever calls are made one after another, the
buffer stays in its mode.
-/

namespace Wireform

variable {α β : Type}

/-! ## Operations of the other mode -/

namespace Buffer

/-- In one of the modes an operation fails at once and leaves the buffer alone. The fault that it
    finds with its argument, if any, comes before the mode. -/
def Refuses (mode : Mode) (fault : Option Error) (operation : Op α) : Prop :=
  ∀ buffer : Buffer, buffer.mode = mode →
    operation buffer = .error (fault.getD (.mode mode.name)) buffer

variable {mode : Mode} {fault : Option Error}

/-- Nothing can be appended to a reader. -/
theorem refuses_append (bytes : Bytes) : Refuses .read none (append bytes) := by
  rintro ⟨contents, config⟩ reads
  cases contents with
  | written reversed => cases reads
  | unread rest => rfl

/-- Nothing can be taken off a writer. -/
theorem refuses_take (count : Nat) : Refuses .write none (take count) := by
  rintro ⟨contents, config⟩ writes
  cases contents with
  | written reversed => rfl
  | unread rest => cases writes

/-- A fault that is found in any case. -/
theorem refuses_fail (error : Error) : Refuses mode (some error) (Step.fail error : Op α) :=
  fun _ _ => rfl

/-- What follows a refused operation is never done. -/
theorem refuses_bind {operation : Op α} (next : α → Op β)
    (refuses : Refuses mode fault operation) : Refuses mode fault (operation >>= next) := by
  intro buffer other
  rw [Step.bind_apply, refuses buffer other]

/-- Looking at the limits is not refused. -/
theorem refuses_limits {next : Config → Op α} (refuses : ∀ config, Refuses mode fault (next config)) :
    Refuses mode fault (limits >>= next) := by
  intro buffer other
  rw [Step.bind_apply]
  exact refuses buffer.config buffer other

/-- The fault with a length that is too large for its prefix. -/
def lengthFault (bound length : Nat) : Option Error :=
  if length < bound then none else some (.lengthOverflow length)

/-- A length that is too large is no matter of the mode. -/
theorem lengthFault_ne_mode (bound length : Nat) (name : String) :
    lengthFault bound length ≠ some (.mode name) := by
  unfold lengthFault
  split <;> simp

/-- A length is checked before the mode. -/
theorem refuses_checked (bound length : Nat) {operation : Op α}
    (refuses : Refuses mode none operation) :
    Refuses mode (lengthFault bound length)
      (if length < bound then operation else fail (.lengthOverflow length)) := by
  unfold lengthFault
  split
  · exact refuses
  · exact refuses_fail _

/-- Writing a number to a reader. -/
theorem refuses_writeNumber (width number : Nat) : Refuses .read none (writeNumber width number) :=
  refuses_append _

/-- Reading a number off a writer. -/
theorem refuses_readNumber (width : Nat) : Refuses .write none (readNumber width) :=
  refuses_bind _ (refuses_take width)

/-- Writing a length of four octets to a reader. -/
theorem refuses_writeLength (length : Nat) :
    Refuses .read (lengthFault 0x80000000 length) (writeLength length) :=
  refuses_checked _ _ (refuses_writeNumber 4 length)

/-- Reading a length of four octets off a writer. -/
theorem refuses_readLength (range : Range) : Refuses .write none (readLength range) :=
  refuses_bind _ (refuses_readNumber 4)

/-- Reading text off a writer. -/
theorem refuses_readString : Refuses .write none readString :=
  refuses_limits fun _ => refuses_bind _ (refuses_readLength _)

end Buffer

open Buffer (Refuses lengthFault)

/-- The fault with a scalar that there is no room for: a character of two units, or a text or a byte
    string that is too long for its prefix. -/
def Scalar.fault : Scalar → Option Error
  | .char character =>
      if character.toNat < 0x10000 then none else some (.invalidChar character.toNat)
  | .string text => lengthFault 0x80000000 (Text.Utf8.encode text).length
  | .bytes octets => lengthFault 0x80000000 octets.length
  | _ => none

/-- The fault with a scalar is no matter of the mode. -/
theorem Scalar.fault_ne_mode (plain : Scalar) (name : String) :
    plain.fault ≠ some (.mode name) := by
  cases plain with
  | char character =>
      simp only [fault]
      split <;> simp
  | string text => exact Buffer.lengthFault_ne_mode _ _ name
  | bytes octets => exact Buffer.lengthFault_ne_mode _ _ name
  | _ => exact nofun

/-- Writing a scalar to a reader. -/
theorem Scalar.refuses_write (plain : Scalar) : Refuses .read plain.fault plain.write := by
  cases plain with
  | char character =>
      simp only [fault, write, Buffer.writeChar]
      split
      · exact Buffer.refuses_writeNumber 2 _
      · exact Buffer.refuses_fail _
  | string text => exact Buffer.refuses_bind _ (Buffer.refuses_writeLength _)
  | bytes octets => exact Buffer.refuses_bind _ (Buffer.refuses_writeLength _)
  | _ => exact Buffer.refuses_writeNumber _ _

/-- Reading a scalar off a writer. -/
theorem Leaf.refuses_read (plain : Leaf) : Refuses .write none plain.read := by
  cases plain with
  | bool => exact Buffer.refuses_bind _ (Buffer.refuses_bind _ (Buffer.refuses_readNumber 1))
  | char => exact Buffer.refuses_bind _ (Buffer.refuses_bind _ (Buffer.refuses_readNumber 2))
  | string => exact Buffer.refuses_bind _ Buffer.refuses_readString
  | bytes =>
      exact Buffer.refuses_bind _ (Buffer.refuses_limits fun _ =>
        Buffer.refuses_bind _ (Buffer.refuses_readLength _))
  | _ => exact Buffer.refuses_bind _ (Buffer.refuses_readNumber _)

namespace Format

/-- The value is one that the operation for the format takes. A type that writes itself has an
    operation of its own, about which nothing is known. -/
def Takes : Format → Value → Prop
  | .leaf kind, value => ∃ plain : Scalar, plain.leaf = kind ∧ value = .scalar plain
  | .shortString, value => ∃ text, value = .string text
  | .enumeration type names, value => ∃ index, index < names.length ∧ value = .member type index
  | .custom _ _, _ => False
  | .list _, value => ∃ type items, value = .sequence type items
  | .set _, value => ∃ type items, value = .sequence type items
  | .queue _, value => ∃ type items, value = .sequence type items
  | .map _ _, value => ∃ type entries, value = .map type entries
  | .optional _, value => (∃ type, value = .absent type) ∨ ∃ held, value = .present held

/-- The fault with a value that there is no room for. Of a collection it is the number of its
    elements that counts, and not what these are. -/
def fault : Format → Value → Option Error
  | .leaf _, .scalar plain => plain.fault
  | .shortString, .scalar (.string text) => lengthFault 0x10000 (Text.Utf8.encode text).length
  | .enumeration _ names, .member _ index =>
      lengthFault 0x80000000 (Text.Utf8.encode (names[index]?.getD "")).length
  | .list _, .sequence _ items => lengthFault 0x80000000 items.length
  | .set _, .sequence _ items => lengthFault 0x80000000 items.length
  | .queue _, .sequence _ items => lengthFault 0x80000000 items.length
  | .map _ _, .map _ entries => lengthFault 0x80000000 entries.length
  | _, _ => none

/-- The fault with a value is no matter of the mode. -/
theorem fault_ne_mode (format : Format) (value : Value) (name : String) :
    format.fault value ≠ some (.mode name) := by
  unfold fault
  split
  · exact Scalar.fault_ne_mode _ name
  all_goals first | exact Buffer.lengthFault_ne_mode _ _ name | exact nofun

/-- The format is that of a type that reads itself. -/
def IsCustom : Format → Prop
  | .custom _ _ => True
  | _ => False

/-- Counted items are refused by their number, whatever is to be done with each. -/
theorem refuses_writeAll (write : Value → Buffer.Op Unit) (items : List Value) :
    Refuses .read (lengthFault 0x80000000 items.length) (writeAll write items) :=
  Buffer.refuses_bind _ (Buffer.refuses_writeLength _)

/-- Announced results are refused, whatever is to be read of each. -/
theorem refuses_readAll (read : Buffer.Op α) : Refuses .write none (readAll read) :=
  Buffer.refuses_limits fun _ => Buffer.refuses_bind _ (Buffer.refuses_readLength _)

/-- Writing to a reader. -/
theorem refuses_write (format : Format) (value : Value) (takes : format.Takes value) :
    Refuses .read (format.fault value) (format.write value) := by
  cases format with
  | leaf kind =>
      obtain ⟨plain, rfl, rfl⟩ := takes
      simp only [write, Leaf.writeValue, if_true]
      exact plain.refuses_write
  | shortString =>
      obtain ⟨text, rfl⟩ := takes
      exact Buffer.refuses_checked _ _ (Buffer.refuses_bind _ (Buffer.refuses_writeNumber 2 _))
  | enumeration type names =>
      obtain ⟨index, known, rfl⟩ := takes
      simp only [write, fault, Enumeration.write, Enumeration.nameOf,
        List.getElem?_eq_getElem known, if_true, Option.getD_some]
      exact Buffer.refuses_bind _ (Buffer.refuses_writeLength _)
  | custom type layout => exact takes.elim
  | list element | set element | queue element =>
      obtain ⟨type, items, rfl⟩ := takes
      exact refuses_writeAll element.write items
  | map key part =>
      obtain ⟨type, entries, rfl⟩ := takes
      exact Buffer.refuses_bind _ (Buffer.refuses_writeLength _)
  | optional inner =>
      obtain ⟨type, rfl⟩ | ⟨held, rfl⟩ := takes
      · exact Buffer.refuses_writeNumber 1 _
      · exact Buffer.refuses_bind _ (Buffer.refuses_writeNumber 1 _)

/-- Reading off a writer. -/
theorem refuses_read (format : Format) (plain : ¬ format.IsCustom) :
    Refuses .write none format.read := by
  cases format with
  | leaf kind => exact Buffer.refuses_bind _ kind.refuses_read
  | shortString =>
      exact Buffer.refuses_bind _ (Buffer.refuses_bind _ (Buffer.refuses_readNumber 2))
  | enumeration type names => exact Buffer.refuses_bind _ Buffer.refuses_readString
  | custom type layout => exact absurd trivial plain
  | list element | set element | queue element =>
      exact Buffer.refuses_bind _ (refuses_readAll element.read)
  | map key part => exact Buffer.refuses_bind _ (refuses_readAll _)
  | optional inner =>
      exact Buffer.refuses_bind _ (Buffer.refuses_bind _ (Buffer.refuses_readNumber 1))

end Format

namespace Buffer

/-! ## Uses of a buffer -/

/-- A call of an operation. -/
inductive Use
  | write (format : Format) (value : Value)
  | writeLength (length : Nat)
  | writeLongLength (length : Nat)
  | finish
  | read (format : Format)
  | readLength (range : Range)
  | readLongLength (range : Range)
  | ensureConsumed

namespace Use

/-- The mode that the operation is meant for. -/
def mode : Use → Mode
  | write .. | writeLength _ | writeLongLength _ | finish => .write
  | read _ | readLength _ | readLongLength _ | ensureConsumed => .read

/-- The operation, without what it yields. -/
def perform : Use → Op Unit
  | write format value => format.write value
  | writeLength length => Buffer.writeLength length
  | writeLongLength length => Buffer.writeLongLength length
  | finish => look Buffer.finish >>= fun outcome => Step.lift (outcome.map fun _ => ())
  | read format => (fun _ => ()) <$> format.read
  | readLength range => (fun _ => ()) <$> Buffer.readLength range
  | readLongLength range => (fun _ => ()) <$> Buffer.readLongLength range
  | ensureConsumed => look Buffer.ensureConsumed >>= Step.lift

/-- The call is one of the operations of buffers, with an argument that it takes. -/
def Typed : Use → Prop
  | write format value => format.Takes value
  | read format => ¬ format.IsCustom
  | _ => True

/-- The fault with the argument, if there is one. -/
def fault : Use → Option Error
  | write format value => format.fault value
  | writeLength length => lengthFault 0x80000000 length
  | writeLongLength length => lengthFault 0x8000000000000000 length
  | _ => none

/-- The fault with the argument is no matter of the mode. -/
theorem fault_ne_mode (use : Use) (name : String) : use.fault ≠ some (.mode name) := by
  cases use with
  | write format value => exact format.fault_ne_mode value name
  | writeLength length => exact lengthFault_ne_mode _ length name
  | writeLongLength length => exact lengthFault_ne_mode _ length name
  | _ => exact nofun

/-- What types that write and read themselves take part in the call do so by buffer operations. -/
def Composed : Use → Prop
  | write format _ => format.Composed
  | read format => format.Composed
  | _ => True

/-- A call in the other mode is refused, for a fault of its argument or else for the mode. -/
theorem refused (use : Use) (typed : use.Typed) (buffer : Buffer) (other : buffer.mode ≠ use.mode) :
    use.perform buffer = .error (use.fault.getD (.mode buffer.mode.name)) buffer := by
  have reads (writes : use.mode = .write) : buffer.mode = .read := by
    cases own : buffer.mode with
    | write => exact absurd (own.trans writes.symm) other
    | read => rfl
  have writes (reads : use.mode = .read) : buffer.mode = .write := by
    cases own : buffer.mode with
    | write => rfl
    | read => exact absurd (own.trans reads.symm) other
  cases use with
  | write format value =>
      rw [reads rfl]
      exact format.refuses_write value typed buffer (reads rfl)
  | writeLength length =>
      rw [reads rfl]
      exact refuses_writeLength length buffer (reads rfl)
  | writeLongLength length =>
      rw [reads rfl]
      exact refuses_checked _ _ (refuses_writeNumber 8 length) buffer (reads rfl)
  | finish =>
      have own := reads rfl
      rcases buffer with ⟨written | unread, config⟩
      · cases own
      · rfl
  | read format =>
      rw [writes rfl]
      exact refuses_bind _ (format.refuses_read typed) buffer (writes rfl)
  | readLength range =>
      rw [writes rfl]
      exact refuses_bind _ (refuses_readLength range) buffer (writes rfl)
  | readLongLength range =>
      rw [writes rfl]
      exact refuses_bind _ (refuses_bind _ (refuses_readNumber 8)) buffer (writes rfl)
  | ensureConsumed =>
      have own := writes rfl
      rcases buffer with ⟨written | unread, config⟩
      · rfl
      · cases own

/-- A call in the other mode is refused for the mode exactly if its argument is without fault. -/
theorem refused_for_mode_iff (use : Use) (typed : use.Typed) (buffer : Buffer)
    (other : buffer.mode ≠ use.mode) :
    use.perform buffer = .error (.mode buffer.mode.name) buffer ↔ use.fault = none := by
  rw [use.refused typed buffer other]
  cases found : use.fault with
  | none => simp
  | some fault =>
      simp only [Option.getD_some, EStateM.Result.error.injEq, and_true, reduceCtorEq, iff_false]
      rintro rfl
      exact use.fault_ne_mode _ found

/-- A call is made of appending and taking. -/
theorem composed_perform (use : Use) (composed : use.Composed) : Buffer.Composed use.perform := by
  cases use with
  | write format value => exact format.composed_write composed value
  | writeLength length => exact composed_writeLength length
  | writeLongLength length => exact composed_writeLongLength length
  | finish => exact (Composed.look _).bind fun _ => composed_lift _
  | read format => exact (format.composed_read composed).map _
  | readLength range => exact (composed_readLength range).map _
  | readLongLength range => exact (composed_readLongLength range).map _
  | ensureConsumed => exact (Composed.look _).bind composed_lift

end Use

/-- The buffer after calls that are made one after another, whether they succeed or fail. -/
def after (buffer : Buffer) (uses : List Use) : Buffer :=
  uses.foldl (fun buffer use => Step.left (use.perform buffer)) buffer

/-- What becomes of a buffer by one call. -/
theorem becomes_perform (use : Use) (composed : use.Composed) (buffer : Buffer) :
    buffer.Becomes (Step.left (use.perform buffer)) :=
  (use.composed_perform composed).becomes buffer

/-- What becomes of a buffer by any number of calls. -/
theorem becomes_after (uses : List Use) (composed : ∀ use ∈ uses, use.Composed) (buffer : Buffer) :
    buffer.Becomes (buffer.after uses) := by
  induction uses generalizing buffer with
  | nil => exact becomes_refl buffer
  | cons use rest inductionHypothesis =>
      obtain ⟨first, later⟩ := List.forall_mem_cons.mp composed
      exact (becomes_perform use first buffer).trans (inductionHypothesis later _)

/-- A call of an operation of the other mode fails and leaves the buffer as it is. It names the mode
    of the buffer exactly if its argument has no number for which the wire form has no room, and
    otherwise that number. And whatever calls are made, a buffer keeps its mode, a writer only grows
    at its end, and a reader only loses bytes at its front. -/
theorem other_mode_refused (buffer : Buffer) :
    (∀ use : Use, use.Typed → buffer.mode ≠ use.mode →
      use.perform buffer = .error (use.fault.getD (.mode buffer.mode.name)) buffer ∧
        (use.perform buffer = .error (.mode buffer.mode.name) buffer ↔ use.fault = none)) ∧
    ∀ uses : List Use, (∀ use ∈ uses, use.Composed) → buffer.Becomes (buffer.after uses) :=
  ⟨fun use typed other =>
      ⟨use.refused typed buffer other, use.refused_for_mode_iff typed buffer other⟩,
    fun uses composed => becomes_after uses composed buffer⟩

/-- A list of elements of a type that writes itself, which would leave a mark, is refused by a
    reader for its mode, and the reader can be used on. -/
theorem marking_list_refused :
    let marking : Custom := ⟨fun _ => append [0xFF], readBool >>= fun truth => pure (.bool truth)⟩
    let listing := Use.write (.list (.custom (.leaf .bool) marking))
      (.sequence (.vector .bool) [.bool true, .bool false])
    let buffer := reader [1, 2]
    listing.perform buffer = .error (.mode "read") buffer ∧
      buffer.Becomes (buffer.after [listing, .read (.leaf .bool)]) ∧
      (buffer.after [listing, .read (.leaf .bool)]).bytes = [2] := by
  intro marking listing buffer
  have composed : ∀ use ∈ [listing, .read (.leaf .bool)], use.Composed := by
    simp only [List.forall_mem_cons, List.not_mem_nil, false_implies, implies_true, and_true]
    exact ⟨⟨fun _ => .append _, composed_readBool.bind fun _ => .pure _⟩, trivial⟩
  obtain ⟨refused, becomes⟩ := other_mode_refused buffer
  exact ⟨(refused listing ⟨_, _, rfl⟩ (by decide)).1, becomes _ composed, by decide⟩

/-- A character of two units is refused by a reader for being one, and not for the mode. -/
theorem wide_char_refused_before_mode :
    ¬ ∀ (use : Use) (buffer : Buffer), use.Typed → buffer.mode ≠ use.mode →
      use.perform buffer = .error (.mode buffer.mode.name) buffer := by
  intro always
  have refused := always (.write (.leaf .char) (.scalar (.char '😀'))) (reader [1, 2])
    ⟨.char '😀', rfl, rfl⟩ (by decide)
  have found : (Use.write (.leaf .char) (.scalar (.char '😀'))).perform (reader [1, 2])
      = .error (.invalidChar 0x1F600) (reader [1, 2]) := rfl
  rw [found] at refused
  cases refused

end Buffer

end Wireform
