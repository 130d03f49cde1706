import Wireform.Proofs.Rules
import Wireform.Proofs.Shape

/-!
# Bare causes

Only the engine says of an aggregate that a failure is inside of one of its fields, that it is
met below itself or that it cannot be rebuilt. What operations on a buffer fail for says nothing of
the kind, and neither does what resolution, layers, members and collections fail for; such a cause
is bare. Constructors and custom formats may report what they like. Of formats it has to be asked
that they report bare causes; what constructors report is not covered here.
-/

namespace Wireform

variable {α β : Type}

/-- The failure is neither inside of a field of an aggregate nor about an aggregate as such. -/
def Error.Bare : Error → Prop
  | .field _ _ _ => False
  | .circularReference _ => False
  | .noConstructorAvailable _ => False
  | _ => True

/-- A bare failure has no cause but itself. -/
theorem Error.Bare.rootCause_eq {error : Error} (bare : error.Bare) : error.rootCause = error := by
  cases error with
  | field owner name cause => exact bare.elim
  | _ => rfl

/-- A bare failure is inside of no field. -/
theorem Error.Bare.path_eq {error : Error} (bare : error.Bare) : error.path = [] := by
  cases error with
  | field owner name cause => exact bare.elim
  | _ => rfl

/-- If there is no result it is for a bare cause. -/
def Error.BareIn (outcome : Except Error α) : Prop := ∀ error, outcome = .error error → error.Bare

/-- A result is no failure. -/
theorem Error.bareIn_ok (result : α) : Error.BareIn (.ok result) := nofun

/-- Failing for a bare cause. -/
theorem Error.bareIn_error {error : Error} (bare : error.Bare) :
    Error.BareIn (.error error : Except Error α) := by
  rintro cause ⟨⟩
  exact bare

/-- A result or another bare outcome after one is bare. -/
theorem Error.bareIn_bind {outcome : Except Error α} {next : α → Except Error β}
    (first : Error.BareIn outcome) (second : ∀ result, Error.BareIn (next result)) :
    Error.BareIn (outcome >>= next) := by
  intro error failed
  cases outcome with
  | error cause =>
      cases failed
      exact first _ rfl
  | ok result => exact second result error failed

/-- Bare outcomes one after another are bare. -/
theorem Error.bareIn_mapM {step : α → Except Error β} (each : ∀ item, Error.BareIn (step item))
    (items : List α) : Error.BareIn (items.mapM step) := by
  induction items with
  | nil => exact Error.bareIn_ok _
  | cons item rest inductionHypothesis =>
      rw [List.mapM_cons]
      exact bareIn_bind (each item) fun first =>
        bareIn_bind inductionHypothesis fun others => Error.bareIn_ok _

/-- Changing the result changes no cause. -/
theorem Error.bareIn_map {outcome : Except Error α} (change : α → β) (bare : Error.BareIn outcome) :
    Error.BareIn (change <$> outcome) := by
  cases outcome with
  | ok result => exact Error.bareIn_ok _
  | error cause =>
      exact Error.bareIn_error (bare _ rfl)

/-- A value of the wrong type is a bare cause. -/
theorem Value.bareIn_expect (type : Ty) (value : Value) : Error.BareIn (value.expect type) := by
  unfold expect
  split
  · exact Error.bareIn_ok _
  · exact Error.bareIn_error trivial

namespace Buffer

/-- Whatever the operation fails for is bare, and a writer stays a writer and a reader a
    reader. -/
structure Bare (operation : Op α) : Prop where
  cause : ∀ buffer error after, operation buffer = .error error after → error.Bare
  mode : ∀ buffer, (Step.left (operation buffer)).mode = buffer.mode

/-- A result is no failure. -/
theorem bare_pure (result : α) : Bare (pure result) where
  cause buffer error after failed := by cases failed
  mode _ := rfl

/-- Failing for a bare cause. -/
theorem bare_fail {error : Error} (bare : error.Bare) : Bare (Step.fail error : Op α) where
  cause buffer cause after failed := by
    cases failed
    exact bare
  mode _ := rfl

/-- A succession fails for what one of both fails for. -/
theorem bare_bind {operation : Op α} {next : α → Op β} (first : Bare operation)
    (second : ∀ result, Bare (next result)) : Bare (operation >>= next) := by
  constructor
  · intro buffer error after failed
    rw [Step.bind_apply] at failed
    cases ended : operation buffer with
    | error cause between =>
        rw [ended] at failed
        cases failed
        exact first.cause buffer error _ ended
    | ok result between =>
        rw [ended] at failed
        exact (second result).cause between error after failed
  · intro buffer
    have kept := first.mode buffer
    rw [Step.bind_apply]
    cases ended : operation buffer with
    | error cause between =>
        rw [ended] at kept
        exact kept
    | ok result between =>
        rw [ended] at kept
        exact ((second result).mode between).trans kept

/-- Appending to a reader. -/
theorem bare_append (bytes : Bytes) : Bare (append bytes) := by
  constructor
  · rintro ⟨contents, config⟩ error after failed
    cases contents with
    | written reversed => cases failed
    | unread rest =>
        cases failed
        exact trivial
  · rintro ⟨contents, config⟩
    cases contents <;> rfl

/-- Taking bytes off a writer, or too many. -/
theorem bare_take (count : Nat) : Bare (take count) := by
  constructor
  · rintro ⟨contents, config⟩ error after failed
    cases contents with
    | written reversed =>
        cases failed
        exact trivial
    | unread bytes =>
        simp only [take] at failed
        split at failed
        · cases failed
        · cases failed
          exact trivial
  · rintro ⟨contents, config⟩
    cases contents with
    | written reversed => rfl
    | unread bytes =>
        simp only [take]
        split <;> rfl

/-- Looking at the limits. -/
theorem bare_limits {next : Config → Op α} (bare : ∀ config, Bare (next config)) :
    Bare (limits >>= next) := by
  refine bare_bind ⟨fun buffer error after failed => ?_, fun _ => rfl⟩ bare
  cases failed

/-- Writing a length. -/
theorem bare_writeLength (length : Nat) : Bare (writeLength length) := by
  unfold writeLength
  split
  · exact bare_append _
  · exact bare_fail trivial

/-- Writing a long length. -/
theorem bare_writeLongLength (length : Nat) : Bare (writeLongLength length) := by
  unfold writeLongLength
  split
  · exact bare_append _
  · exact bare_fail trivial

/-- Writing a character. -/
theorem bare_writeChar (char : Char) : Bare (writeChar char) := by
  unfold writeChar
  split
  · exact bare_append _
  · exact bare_fail trivial

/-- Writing text. -/
theorem bare_writeString (text : String) : Bare (writeString text) :=
  bare_bind (bare_writeLength _) fun _ => bare_append _

/-- Writing octets. -/
theorem bare_writeBytes (octets : Bytes) : Bare (writeBytes octets) :=
  bare_bind (bare_writeLength _) fun _ => bare_append _

/-- Reading a number. -/
theorem bare_readNumber (width : Nat) : Bare (readNumber width) :=
  bare_bind (bare_take width) fun bytes => bare_pure (Bytes.ofBigEndian bytes)

/-- Reading a flag. -/
theorem bare_readBool : Bare readBool := by
  refine bare_bind (bare_readNumber 1) fun number => ?_
  split
  · exact bare_pure _
  · exact bare_pure _
  · exact bare_fail trivial

/-- Checking a length. -/
theorem bare_checkLength (width : Nat) (range : Range) (number : Nat) :
    Bare (checkLength width range number) := by
  unfold checkLength
  split
  · split
    · exact bare_pure _
    · exact bare_fail trivial
  · exact bare_fail trivial

/-- Reading a length. -/
theorem bare_readLength (range : Range) : Bare (readLength range) :=
  bare_bind (bare_readNumber 4) fun number => bare_checkLength 4 range number

/-- Reading a long length. -/
theorem bare_readLongLength (range : Range) : Bare (readLongLength range) :=
  bare_bind (bare_readNumber 8) fun number => bare_checkLength 8 range number

/-- Taking octets for text. -/
theorem bare_asText (bytes : Bytes) : Bare (asText bytes) := by
  unfold asText
  split
  · exact bare_pure _
  · exact bare_fail trivial

/-- Reading text. -/
theorem bare_readString : Bare readString :=
  bare_limits fun _ => bare_bind (bare_readLength _) fun length =>
    bare_bind (bare_take length) fun bytes => bare_asText bytes

/-- Reading octets. -/
theorem bare_readBytes : Bare readBytes :=
  bare_limits fun _ => bare_bind (bare_readLength _) fun length => bare_take length

/-- Reading a character. -/
theorem bare_readChar : Bare readChar := by
  refine bare_bind (bare_readNumber 2) fun unit => ?_
  split
  · exact bare_pure _
  · exact bare_fail trivial

end Buffer

open Buffer (Bare)

/-- Writing a scalar. -/
theorem Scalar.bare_write (scalar : Scalar) : Bare scalar.write := by
  cases scalar with
  | char character => exact Buffer.bare_writeChar character
  | string text => exact Buffer.bare_writeString text
  | bytes octets => exact Buffer.bare_writeBytes octets
  | _ => exact Buffer.bare_append _

/-- Reading a scalar. -/
theorem Leaf.bare_read (plain : Leaf) : Bare plain.read := by
  cases plain with
  | bool => exact Buffer.bare_bind Buffer.bare_readBool fun _ => Buffer.bare_pure _
  | char => exact Buffer.bare_bind Buffer.bare_readChar fun _ => Buffer.bare_pure _
  | string => exact Buffer.bare_bind Buffer.bare_readString fun _ => Buffer.bare_pure _
  | bytes => exact Buffer.bare_bind Buffer.bare_readBytes fun _ => Buffer.bare_pure _
  | _ => exact Buffer.bare_bind (Buffer.bare_readNumber _) fun _ => Buffer.bare_pure _

/-- Writing a value of a leaf type. -/
theorem Leaf.bare_writeValue (plain : Leaf) (value : Value) : Bare (plain.writeValue value) := by
  unfold writeValue
  split
  · split
    · exact Scalar.bare_write _
    · exact Buffer.bare_fail trivial
  · exact Buffer.bare_fail trivial

namespace Enumeration

/-- A value that is no member has no name. -/
theorem bareIn_nameOf (type : Ty) (names : List String) (value : Value) :
    Error.BareIn (nameOf type names value) := by
  unfold nameOf
  split
  · split
    · split
      · exact Error.bareIn_ok _
      · exact Error.bareIn_error trivial
    · exact Error.bareIn_error trivial
  · exact Error.bareIn_error trivial

/-- Writing the name of a member. -/
theorem bare_write (type : Ty) (names : List String) (value : Value) :
    Bare (write type names value) := by
  unfold write
  split
  · exact Buffer.bare_writeString _
  · next error failed => exact Buffer.bare_fail (bareIn_nameOf type names value error failed)

/-- Reading the name of a member. -/
theorem bare_read (type : Ty) (names : List String) : Bare (read type names) := by
  refine Buffer.bare_bind Buffer.bare_readString fun name => ?_
  split
  · exact Buffer.bare_pure _
  · exact Buffer.bare_fail trivial

end Enumeration

/-- A custom format reports bare causes and leaves the mode of the buffer as it is. -/
structure Custom.Bare (format : Custom) : Prop where
  write : ∀ value, Buffer.Bare (format.write value)
  read : Buffer.Bare format.read

/-! ## Values and shapes -/

namespace Value

/-- What is no sequence of the type has no elements. -/
theorem bareIn_items (type : Ty) (value : Value) : Error.BareIn (value.items type) := by
  unfold items
  split
  · split
    · exact Error.bareIn_ok _
    · exact Error.bareIn_error trivial
  · exact Error.bareIn_error trivial

/-- What is no map of the type has no entries. -/
theorem bareIn_entries (type : Ty) (value : Value) : Error.BareIn (value.entries type) := by
  unfold entries
  split
  · split
    · exact Error.bareIn_ok _
    · exact Error.bareIn_error trivial
  · exact Error.bareIn_error trivial

/-- What is no option of the type has no value below it. -/
theorem bareIn_project (inner : Ty) (value : Value) : Error.BareIn (value.project inner) := by
  unfold project
  split
  · split
    · exact Error.bareIn_ok _
    · exact Error.bareIn_error trivial
  · split
    · exact Error.bareIn_ok _
    · exact Error.bareIn_error trivial
  · exact Error.bareIn_error trivial

/-- What is no box of the type has no value below it. -/
theorem bareIn_deref (inner : Ty) (value : Value) : Error.BareIn (value.deref inner) := by
  unfold deref
  split
  · split
    · exact Error.bareIn_ok _
    · exact Error.bareIn_error trivial
  · exact Error.bareIn_error trivial

end Value

/-- A layer that cannot be taken off. -/
theorem Layer.bareIn_project (layer : Layer) (value : Value) :
    Error.BareIn (layer.project value) := by
  cases layer with
  | nullable inner => exact Value.bareIn_project inner value
  | pointer inner => exact Error.bareIn_map some (Value.bareIn_deref inner value)

/-- A layer that cannot be put back. -/
theorem Layer.bareIn_rewrap (layer : Layer) (value : Option Value) :
    Error.BareIn (layer.rewrap value) := by
  cases layer with
  | nullable inner =>
      cases value with
      | none => exact Error.bareIn_ok _
      | some value =>
          exact Error.bareIn_map some (Error.bareIn_map Value.present (value.bareIn_expect inner))
  | pointer inner =>
      cases value with
      | none => exact Error.bareIn_ok _
      | some value =>
          exact Error.bareIn_map some (Error.bareIn_map Value.boxed (value.bareIn_expect inner))

namespace Context

/-- Layers that cannot be taken off. -/
theorem bareIn_projectThrough (layers : List Layer) (value : Value) :
    Error.BareIn (projectThrough layers value) := by
  induction layers generalizing value with
  | nil => exact Error.bareIn_ok _
  | cons layer rest inductionHypothesis =>
      refine Error.bareIn_bind (layer.bareIn_project value) fun below => ?_
      cases below with
      | none => exact Error.bareIn_ok _
      | some inner => exact inductionHypothesis inner

/-- Layers that cannot be put back. -/
theorem bareIn_rewrapThrough (layers : List Layer) (value : Option Value) :
    Error.BareIn (rewrapThrough layers value) := by
  induction layers with
  | nil => exact Error.bareIn_ok _
  | cons layer rest inductionHypothesis =>
      exact Error.bareIn_bind inductionHypothesis fun inner => layer.bareIn_rewrap inner

/-- A value that a context does not take back. -/
theorem bareIn_rewrap (context : Context) (value : Option Value) :
    Error.BareIn (context.rewrap value) := by
  refine Error.bareIn_bind (bareIn_rewrapThrough _ value) fun whole => ?_
  cases whole with
  | some whole => exact Error.bareIn_ok _
  | none =>
      exact Error.bareIn_error trivial

end Context

namespace Field

/-- What is no aggregate of the type has no members. -/
theorem bareIn_get (owner : Ty) (field : Field) (value : Value) :
    Error.BareIn (field.get owner value) := by
  unfold get
  split
  · split
    · split
      · exact Error.bareIn_ok _
      · exact Error.bareIn_error trivial
    · exact Error.bareIn_error trivial
  · exact Error.bareIn_error trivial

/-- A value of the wrong type is not assigned. -/
theorem bareIn_set (owner : Ty) (field : Field) (value whole : Value) :
    Error.BareIn (field.set owner value whole) := by
  unfold set
  split
  · split
    · exact Error.bareIn_bind (value.bareIn_expect field.type) fun _ => Error.bareIn_ok _
    · exact Error.bareIn_error trivial
  · exact Error.bareIn_error trivial

end Field

namespace Schema

/-- Elements that make no sequence of the type. -/
theorem bareIn_collect (schema : Schema) (type : Ty) (items : List Value) :
    Error.BareIn (schema.collect type items) := by
  unfold collect
  split
  · next kind element =>
      refine Error.bareIn_bind (Error.bareIn_mapM (Value.bareIn_expect element) items)
        fun checked => Error.bareIn_bind ?_ fun _ => Error.bareIn_ok _
      cases kind with
      | array length =>
          unfold SequenceKind.collect
          dsimp only
          split
          · exact Error.bareIn_ok _
          · exact Error.bareIn_error trivial
      | _ => exact Error.bareIn_ok _
  · split
    · next item _ =>
        exact Error.bareIn_bind (Error.bareIn_mapM (Value.bareIn_expect item) items)
          fun _ => Error.bareIn_ok _
    · exact Error.bareIn_error trivial

/-- Entries that make no map of the type. -/
theorem bareIn_collectEntries (type : Ty) (entries : List (Value × Value)) :
    Error.BareIn (collectEntries type entries) := by
  unfold collectEntries
  split
  · next kind key value =>
      refine Error.bareIn_bind (Error.bareIn_mapM (fun entry => ?_) entries) fun _ =>
        Error.bareIn_ok _
      exact Error.bareIn_bind (Value.bareIn_expect key entry.1) fun _ =>
        Error.bareIn_bind (Value.bareIn_expect value entry.2) fun _ => Error.bareIn_ok _
  · exact Error.bareIn_error trivial

/-- A type that no rule is for. -/
theorem bareIn_shape (schema : Schema) (type : Ty) (marked : Option Ty) :
    Error.BareIn (schema.shape type marked) := by
  unfold shape
  split
  · split
    · exact Error.bareIn_ok _
    · exact Error.bareIn_error trivial
  · split
    · exact Error.bareIn_ok _
    · unfold shapeOfKind
      split
      case h_2 =>
        split
        · exact Error.bareIn_ok _
        · exact Error.bareIn_error trivial
      case h_7 => exact Error.bareIn_error trivial
      case h_8 => exact Error.bareIn_error trivial
      all_goals exact Error.bareIn_ok _

end Schema

end Wireform
