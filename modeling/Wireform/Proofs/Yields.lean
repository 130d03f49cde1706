import Wireform.Proofs.Shape
import Wireform.Proofs.Typing

/-!
# What reading untrusted bytes can come to

Bytes can be wrong in many ways, and a reader has to say so. Some failures are not
theirs, though: a value of the wrong type, a buffer in the wrong mode, a missing codec,
constructor or element type, or a length that was never written tell of code or of
descriptions that do not fit together. `Internal` are the causes of that kind.

An operation yields good results if on every reader it either ends in a good one and
leaves a reader, or fails for a cause that is not internal. An absent value where none is
expected counts as the fault of the bytes only where it can be exposed, that is where a
marker gives a flag to a place whose type has no option to hold the absence.
-/

namespace Wireform

variable {α β : Type}

namespace Error

/-- The cause tells of code or descriptions that do not fit together. -/
def Internal : Error → Prop
  | .mode _ => True
  | .lengthOverflow _ => True
  | .noCodecFound _ => True
  | .noConstructorAvailable _ => True
  | .missingElementType _ => True
  | .typeMismatch _ => True
  | .depthExceeded => True
  | _ => False

/-- The cause is neither internal nor an absent value. -/
def Plain (error : Error) : Prop :=
  match error.rootCause with
  | .unexpectedNull _ => False
  | cause => ¬ cause.Internal

/-- Bytes can be to blame for the failure. -/
def Excused (exposed : Prop) (error : Error) : Prop :=
  ¬ error.rootCause.Internal ∧ ∀ type, error.rootCause = .unexpectedNull type → exposed

end Error

/-- The outcome is a good result or a failure that bytes can be to blame for. -/
def Settled (exposed : Prop) (good : α → Prop) : Except Error α → Prop
  | .ok result => good result
  | .error error => error.Excused exposed

namespace Buffer

/-- On every reader the operation ends in a good result and leaves a reader, or it fails
    with an excuse. -/
def Yields (config : Config) (exposed : Prop) (operation : Op α) (good : α → Prop) : Prop :=
  ∀ bytes, match operation (reader bytes config) with
    | .ok result after => good result ∧ ∃ rest, after = reader rest config
    | .error error _ => error.Excused exposed

variable {config : Config} {exposed : Prop}

/-- A good result is good. -/
theorem yields_pure {good : α → Prop} (result : α) (holds : good result) :
    Yields config exposed (pure result) good :=
  fun bytes => ⟨holds, bytes, rfl⟩

/-- A failure with an excuse has one. -/
theorem yields_fail {good : α → Prop} (error : Error) (excused : error.Excused exposed) :
    Yields config exposed (Step.fail error) good :=
  fun _ => excused

/-- What follows a good result may take it for good. -/
theorem yields_bind {operation : Op α} {next : α → Op β} {good : α → Prop} {better : β → Prop}
    (first : Yields config exposed operation good)
    (second : ∀ result, good result → Yields config exposed (next result) better) :
    Yields config exposed (operation >>= next) better := by
  intro bytes
  have ended := first bytes
  rw [Step.bind_apply]
  cases happened : operation (reader bytes config) with
  | error error after =>
      rw [happened] at ended
      exact ended
  | ok result after =>
      rw [happened] at ended
      obtain ⟨holds, rest, rfl⟩ := ended
      exact second result holds rest

/-- A changed result is good if it was good for being changed. -/
theorem yields_map {operation : Op α} {good : α → Prop} {better : β → Prop} (change : α → β)
    (yields : Yields config exposed operation good)
    (changed : ∀ result, good result → better (change result)) :
    Yields config exposed (change <$> operation) better := by
  rw [map_eq_pure_bind]
  exact yields_bind yields fun result holds => yields_pure _ (changed result holds)

/-- A present result is as good as the result. -/
theorem yields_some {operation : Op α} {good : α → Prop}
    (yields : Yields config exposed operation good) :
    Yields config exposed (some <$> operation)
      fun found => ∃ result, found = some result ∧ good result :=
  yields_map some yields fun result holds => ⟨result, rfl, holds⟩

/-- A known outcome is a good result or a failure with an excuse. -/
theorem yields_lift {outcome : Except Error α} {good : α → Prop}
    (known : Settled exposed good outcome) :
    Yields config exposed (Step.lift outcome) good := by
  cases outcome with
  | ok result => exact yields_pure result known
  | error error => exact yields_fail error known

/-- A failure has the same cause inside a field. -/
theorem yields_inField {operation : Op α} {good : α → Prop} (owner name : String)
    (yields : Yields config exposed operation good) :
    Yields config exposed (Step.inField owner name operation) good := by
  intro bytes
  have ended := yields bytes
  simp only [Step.inField]
  cases happened : operation (reader bytes config) with
  | error error after =>
      rw [happened] at ended
      exact ended
  | ok result after =>
      rw [happened] at ended
      exact ended

/-- What is good enough is good. -/
theorem yields_mono {operation : Op α} {good better : α → Prop}
    (yields : Yields config exposed operation better)
    (implies : ∀ result, better result → good result) : Yields config exposed operation good := by
  intro bytes
  have ended := yields bytes
  cases happened : operation (reader bytes config) with
  | error error after =>
      rw [happened] at ended
      exact ended
  | ok result after =>
      rw [happened] at ended
      exact ⟨implies result ended.1, ended.2⟩

/-- The limits can be looked up. -/
theorem yields_limits {next : Config → Op α} {good : α → Prop}
    (yields : Yields config exposed (next config) good) :
    Yields config exposed (limits >>= next) good := yields

/-- Results are good if each is. -/
theorem yields_repeated {operation : Op α} {good : α → Prop}
    (yields : Yields config exposed operation good) (count : Nat) (collected : List α)
    (before : ∀ result ∈ collected, good result) :
    Yields config exposed (repeated operation count collected)
      fun results => ∀ result ∈ results, good result := by
  induction count generalizing collected with
  | zero =>
      refine yields_pure _ fun result listed => before result ?_
      exact List.mem_reverse.mp listed
  | succ count inductionHypothesis =>
      refine yields_bind yields fun result holds => inductionHypothesis (result :: collected) ?_
      intro other listed
      obtain rfl | earlier := List.mem_cons.mp listed
      · exact holds
      · exact before other earlier

/-! ## Reading -/

/-- A failure that is neither internal nor an absent value has an excuse. -/
theorem excused_of_plain (error : Error) (plain : error.Plain) : error.Excused exposed := by
  unfold Error.Plain at plain
  constructor
  · split at plain
    · exact plain.elim
    · exact plain
  · intro name same
    rw [same] at plain
    exact plain.elim

/-- Taking bytes fails on too few only. -/
theorem yields_take (count : Nat) : Yields config exposed (take count) fun _ => True := by
  intro bytes
  by_cases enough : (bytes.splitAt count).1.length = count
  · simp only [take, reader, enough, if_true]
    exact ⟨trivial, _, rfl⟩
  · simp only [take, reader, enough, if_false]
    exact excused_of_plain _ id

/-- Reading a number fails on too few octets only. -/
theorem yields_readNumber (width : Nat) :
    Yields config exposed (readNumber width) fun _ => True :=
  yields_bind (yields_take width) fun _ _ => yields_pure _ trivial

/-- Reading a flag refuses all but two octets. -/
theorem yields_readBool : Yields config exposed readBool fun _ => True := by
  refine yields_bind (yields_readNumber 1) fun number _ => ?_
  match number with
  | 0 => exact yields_pure false trivial
  | 1 => exact yields_pure true trivial
  | number + 2 => exact yields_fail _ (excused_of_plain _ id)

/-- Checking a length refuses negative ones and those outside the range. -/
theorem yields_checkLength (width : Nat) (range : Range) (number : Nat) :
    Yields config exposed (checkLength width range number) fun _ => True := by
  unfold checkLength
  split
  · split
    · exact yields_pure number trivial
    · exact yields_fail _ (excused_of_plain _ id)
  · exact yields_fail _ (excused_of_plain _ id)

/-- A length is read or refused. -/
theorem yields_readLength (range : Range) :
    Yields config exposed (readLength range) fun _ => True :=
  yields_bind (yields_readNumber 4) fun number _ => yields_checkLength 4 range number

/-- A long length is read or refused. -/
theorem yields_readLongLength (range : Range) :
    Yields config exposed (readLongLength range) fun _ => True :=
  yields_bind (yields_readNumber 8) fun number _ => yields_checkLength 8 range number

/-- Octets are text or refused. -/
theorem yields_asText (bytes : Bytes) : Yields config exposed (asText bytes) fun _ => True := by
  unfold asText
  split
  · exact yields_pure _ trivial
  · exact yields_fail _ (excused_of_plain _ id)

/-- Text is read or refused. -/
theorem yields_readString : Yields config exposed readString fun _ => True :=
  yields_limits (yields_bind (yields_readLength config.stringLengths) fun length _ =>
    yields_bind (yields_take length) fun bytes _ => yields_asText bytes)

/-- Octets are read or refused. -/
theorem yields_readBytes : Yields config exposed readBytes fun _ => True :=
  yields_limits (yields_bind (yields_readLength config.byteLengths) fun length _ =>
    yields_take length)

/-- A character is read or refused. -/
theorem yields_readChar : Yields config exposed readChar fun _ => True := by
  refine yields_bind (yields_readNumber 2) fun unit _ => ?_
  split
  · exact yields_pure _ trivial
  · exact yields_fail _ (excused_of_plain _ id)

end Buffer

open Buffer (Yields)

variable {config : Config} {exposed : Prop}

/-- A scalar that is read is of the type that was asked for. -/
theorem Leaf.yields_read (plain : Leaf) :
    Yields config exposed plain.read fun scalar => scalar.leaf = plain := by
  have number (width : Nat) (change : Nat → Scalar) (leaf : ∀ number, (change number).leaf = plain) :
      Yields config exposed (do return change (← Buffer.readNumber width))
        fun scalar => scalar.leaf = plain :=
    Buffer.yields_bind (Buffer.yields_readNumber width) fun read _ =>
      Buffer.yields_pure _ (leaf read)
  cases plain with
  | bool => exact Buffer.yields_bind Buffer.yields_readBool fun _ _ => Buffer.yields_pure _ rfl
  | char => exact Buffer.yields_bind Buffer.yields_readChar fun _ _ => Buffer.yields_pure _ rfl
  | string => exact Buffer.yields_bind Buffer.yields_readString fun _ _ => Buffer.yields_pure _ rfl
  | bytes => exact Buffer.yields_bind Buffer.yields_readBytes fun _ _ => Buffer.yields_pure _ rfl
  | _ => exact number _ _ fun _ => rfl

/-- A member that is read is one of the enumeration. -/
theorem Enumeration.yields_read {schema : Schema} (type : Ty) (names : List String)
    (described : schema.kind type = .enumeration names) :
    Yields config exposed (Enumeration.read type names) fun value => value.Typed schema type := by
  refine Buffer.yields_bind Buffer.yields_readString fun name _ => ?_
  cases found : names.idxOf? name with
  | none =>
      simp only [fromName, found]
      exact Buffer.yields_fail _ (Buffer.excused_of_plain _ id)
  | some index =>
      obtain ⟨known, _, _⟩ := List.idxOf?_eq_some_iff.mp found
      simp only [fromName, found]
      exact Buffer.yields_pure _ (.member type names described index known)

end Wireform
