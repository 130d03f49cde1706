import Wireform.Proofs.Forward

/-!
# Limits as a filter

Limits are consulted while a value is read, one length at a time, and nothing else in a
decoder depends on them. To say which lengths that are, a survey reads the bytes of
a type without any limits and writes down every length and every count that it meets, in the
order in which it meets them, up to where it ends or fails. A negative number is no length and
is refused as such, so it is not among them.

An operation is filtered by limits if it ends as its survey does as long as the lengths that the
survey has met are admitted, and fails at the first one that is not. With the limits of a
reader that admits everything this says that the survey is the unlimited operation; so
one statement relates both runs, and each rule below is proved once.
-/

namespace Wireform

variable {α β : Type}

/-- What a length on the wire is the length of. -/
inductive LengthKind
  | text
  | bytes
  | collection
deriving DecidableEq

/-- The range that limits have for a kind of length. -/
def LengthKind.range (limits : Config) : LengthKind → Range
  | .text => limits.stringLengths
  | .bytes => limits.byteLengths
  | .collection => limits.collectionLengths

/-- A length or a count that stands on the wire. -/
structure Length where
  kind : LengthKind
  number : Nat
deriving DecidableEq

namespace Length

/-- Limits admit a length if it lies in the range for its kind. -/
def admitted (limits : Config) (length : Length) : Bool :=
  (length.kind.range limits).contains length.number

/-- The first of some lengths that is not admitted. -/
def refused? (limits : Config) (lengths : List Length) : Option Length :=
  lengths.find? fun length => !length.admitted limits

/-- Nothing is refused if and only if all is admitted. -/
theorem refused?_eq_none {limits : Config} {lengths : List Length} :
    refused? limits lengths = none ↔ ∀ length ∈ lengths, length.admitted limits = true := by
  simp [refused?]

/-- Limits that are not set admit every length. -/
theorem refused?_unlimited (remembers : Bool) (lengths : List Length) :
    refused? { cacheCodecs := remembers } lengths = none := by
  refine refused?_eq_none.mpr fun length _ => ?_
  cases length with
  | mk kind number => cases kind <;> rfl

/-- What is refused of lengths in a row is refused of the first ones, or else of the others. -/
theorem refused?_append (limits : Config) (first second : List Length) :
    refused? limits (first ++ second) = (refused? limits first).or (refused? limits second) :=
  List.find?_append

end Length

/-- What is left to read, and the lengths that have been met, in their order. -/
structure Meter where
  unread : Bytes
  met : List Length := []

namespace Meter

/-- Reads without limits and meets no length. -/
def plain (operation : Buffer.Op α) : Step Meter α := fun meter =>
  Step.carry (fun buffer => { meter with unread := buffer.bytes })
    (operation (Buffer.reader meter.unread))

/-- Writes down a length. -/
def meet (length : Length) : Step Meter Unit := fun meter =>
  .ok () { meter with met := meter.met ++ [length] }

/-- Writes a number of `width` octets down as a length unless it is negative. -/
def judge (kind : LengthKind) (width number : Nat) : Step Meter Nat := do
  let length ← plain (Buffer.checkLength width .full number)
  meet ⟨kind, length⟩
  return length

/-- Reads a length of `width` octets. -/
def length (kind : LengthKind) (width : Nat) : Step Meter Nat := do
  judge kind width (← plain (Buffer.readNumber width))

/-- Reads text after its length. -/
def text : Step Meter String := do
  let number ← length .text 4
  plain (do Buffer.asText (← Buffer.take number))

/-- Reads octets after their number. -/
def octets : Step Meter Bytes := do
  let number ← length .bytes 4
  plain (Buffer.take number)

/-- Repeats a step and collects its results in order. -/
def repeated (step : Step Meter α) : (count : Nat) → (collected : List α) → Step Meter (List α)
  | 0, collected => return collected.reverse
  | count + 1, collected => do
      let result ← step
      repeated step count (result :: collected)

/-- Reads what a presence flag announces, if there is to be a flag. -/
def behindFlag (flag : Bool) (step : Step Meter Value) : Step Meter (Option Value) :=
  if flag then do
    if ← plain Buffer.readBool then some <$> step else return none
  else some <$> step

end Meter

/-- What a survey is asked for: a value at a place, or an aggregate by its parts. -/
inductive Query
  | place (context : Context)
  | inside (type : Ty) (description : Aggregate)

/-- Surveys a leaf. -/
def Leaf.survey : Leaf → Step Meter Scalar
  | .string => return .string (← Meter.text)
  | .bytes => return .bytes (← Meter.octets)
  | plain => Meter.plain plain.read

/-- Surveys a value of a shape, given how queries for its parts are met. -/
def Shape.survey (schema : Schema) (type : Ty) (ask : Query → Step Meter Value) :
    Shape → Step Meter Value
  | .leaf plain => return .scalar (← plain.survey)
  | .octets => do
      let octets ← Meter.octets
      return .sequence (Ty.vector .u8) (octets.map Value.u8)
  | .enumeration names => do
      let name ← Meter.text
      match Enumeration.fromName type names name with
      | some value => return value
      | none => Step.fail (.invalidEnumValue type.name name)
  | .sequence element => do
      let count ← Meter.length .collection 8
      let items ← Meter.repeated (ask (.place (Codec.elementPlace element))) count []
      Step.lift (schema.collect type items)
  | .map key value => do
      let count ← Meter.length .collection 4
      let entry : Step Meter (Value × Value) := do
        let first ← ask (.place (Codec.keyPlace key))
        let second ← ask (.place (Codec.valuePlace value))
        return (first, second)
      let entries ← Meter.repeated entry count []
      Step.lift (Schema.collectEntries type entries)
  | .nested => ask (.place (Codec.innerPlace type))
  | .aggregate description => ask (.inside type description)
  | .custom format => Meter.plain format.read

/-- Reads what a query asks for by the descriptions of a schema, without limits, and writes
    down every length. -/
def Schema.survey (schema : Schema) :
    (depth : Nat) → (visited : List Ty) → Query → Step Meter Value
  | 0, _, _ => Step.fail .depthExceeded
  | depth + 1, visited, .place context => do
      let shape ← Step.lift (schema.shape context.unwrapped context.streamableElement)
      let inner ← Meter.behindFlag context.isNullable
        (shape.survey schema context.unwrapped (schema.survey depth visited))
      Step.lift (context.rewrap inner)
  | depth + 1, visited, .inside type description =>
      if visited.contains type then Step.fail (.circularReference type.name)
      else
        Serializer.rebuild
          (fun context => schema.survey depth (type :: visited) (.place context)) type description

/-- The survey of a value of a type at the front of some bytes. -/
def Schema.surveyed (schema : Schema) (type : Ty) (bytes : Bytes) :
    EStateM.Result Error Meter Value :=
  let context := Serializer.root type none
  let step : Step Meter Value := do
    let value ← schema.survey (schema.depth context) [] (.place context)
    Step.lift (value.expect type)
  step { unread := bytes }

/-- The lengths and counts that are met on the way to a value of a type, or to the failure to
    read one. -/
def Schema.lengthsMet (schema : Schema) (type : Ty) (bytes : Bytes) : List Length :=
  (Step.left (schema.surveyed type bytes)).met

/-! ## Operations that know no limits -/

namespace Buffer

/-- The operation comes out alike whatever the limits of the reader. -/
def Limitless (operation : Op α) : Prop :=
  ∀ bytes, ∃ outcome : EStateM.Result Error Bytes α, ∀ limits,
    operation (reader bytes limits) = Step.carry (reader · limits) outcome

/-- A result knows no limits. -/
theorem limitless_pure (result : α) : Limitless (pure result) :=
  fun bytes => ⟨.ok result bytes, fun _ => rfl⟩

/-- A failure knows no limits. -/
theorem limitless_fail (error : Error) : Limitless (Step.fail error : Op α) :=
  fun bytes => ⟨.error error bytes, fun _ => rfl⟩

/-- A succession knows no limits if neither part does. -/
theorem limitless_bind {operation : Op α} {next : α → Op β} (first : Limitless operation)
    (second : ∀ result, Limitless (next result)) : Limitless (operation >>= next) := by
  intro bytes
  obtain ⟨outcome, ended⟩ := first bytes
  cases outcome with
  | error error after =>
      refine ⟨.error error after, fun limits => ?_⟩
      rw [Step.bind_apply, ended limits]
      rfl
  | ok result after =>
      obtain ⟨last, endedNext⟩ := second result after
      refine ⟨last, fun limits => ?_⟩
      rw [Step.bind_apply, ended limits]
      exact endedNext limits

/-- Bytes are taken without regard to limits. -/
theorem limitless_take (count : Nat) : Limitless (take count) := by
  intro bytes
  by_cases enough : (bytes.take count).length = count
  · refine ⟨.ok (bytes.take count) (bytes.drop count), fun limits => ?_⟩
    simp [take, reader, List.splitAt_eq, enough, Step.carry]
  · refine ⟨.error .endOfBuffer bytes, fun limits => ?_⟩
    simp only [take, reader, List.splitAt_eq, if_neg enough]
    rfl

/-- A number is read without regard to limits. -/
theorem limitless_readNumber (width : Nat) : Limitless (readNumber width) :=
  limitless_bind (limitless_take width) fun _ => limitless_pure _

/-- A flag is read without regard to limits. -/
theorem limitless_readBool : Limitless readBool := by
  refine limitless_bind (limitless_readNumber 1) fun number => ?_
  match number with
  | 0 => exact limitless_pure false
  | 1 => exact limitless_pure true
  | number + 2 => exact limitless_fail _

/-- A character is read without regard to limits. -/
theorem limitless_readChar : Limitless readChar := by
  refine limitless_bind (limitless_readNumber 2) fun unit => ?_
  split
  · exact limitless_pure _
  · exact limitless_fail _

/-- Octets are text or not, whatever the limits. -/
theorem limitless_asText (bytes : Bytes) : Limitless (asText bytes) := by
  unfold asText
  split
  · exact limitless_pure _
  · exact limitless_fail _

end Buffer

open Buffer (Limitless)

/-! ## Filtering -/

/-- The operation ends as the survey does if the limits admit all lengths that the survey has
    met since, and fails for the first one that they do not admit. -/
structure Filters (limits : Config) (step : Step Meter α) (operation : Buffer.Op α) : Prop where
  grows : ∀ meter, ∃ added, (Step.left (step meter)).met = meter.met ++ added
  passes : ∀ meter added, (Step.left (step meter)).met = meter.met ++ added →
    Length.refused? limits added = none →
    operation (Buffer.reader meter.unread limits)
      = Step.carry (fun after => Buffer.reader after.unread limits) (step meter)
  refuses : ∀ meter added length, (Step.left (step meter)).met = meter.met ++ added →
    Length.refused? limits added = some length →
    ∃ error stopped, operation (Buffer.reader meter.unread limits) = .error error stopped ∧
      error.rootCause = .lengthExceeded length.number

namespace Filters

variable {limits : Config} {step : Step Meter α} {operation : Buffer.Op α}

/-- A step that meets no length is to end as the operation does. -/
theorem of_silent (silent : ∀ meter, (Step.left (step meter)).met = meter.met)
    (same : ∀ meter, operation (Buffer.reader meter.unread limits)
      = Step.carry (fun after => Buffer.reader after.unread limits) (step meter)) :
    Filters limits step operation where
  grows meter := ⟨[], by rw [silent, List.append_nil]⟩
  passes meter _ _ _ := same meter
  refuses meter added length met refused := by
    have none : added = [] := List.append_right_eq_self.mp (met.symm.trans (silent meter))
    rw [none] at refused
    cases refused

/-- A result meets no length. -/
theorem pure (result : α) : Filters limits (Pure.pure result) (Pure.pure result) :=
  of_silent (fun _ => rfl) fun _ => rfl

/-- A failure meets no length. -/
theorem fail (error : Error) : Filters limits (Step.fail error : Step Meter α) (Step.fail error) :=
  of_silent (fun _ => rfl) fun _ => rfl

/-- A known outcome meets no length. -/
theorem lift (outcome : Except Error α) :
    Filters limits (Step.lift outcome) (Step.lift outcome) := by
  cases outcome with
  | ok result => exact pure result
  | error error => exact fail error

/-- What knows no limits meets no length. -/
theorem plain (limitless : Limitless operation) :
    Filters limits (Meter.plain operation) operation := by
  refine of_silent (fun meter => ?_) fun meter => ?_
  · simp only [Meter.plain]
    cases operation (Buffer.reader meter.unread) <;> rfl
  · obtain ⟨outcome, ended⟩ := limitless meter.unread
    simp only [Meter.plain]
    rw [ended limits, ended {}]
    cases outcome <;> rfl

/-- A succession is filtered by what the first part meets, and then by what the second does. -/
theorem bind {next : α → Step Meter β} {nextOperation : α → Buffer.Op β}
    (first : Filters limits step operation)
    (second : ∀ result, Filters limits (next result) (nextOperation result)) :
    Filters limits (step >>= next) (operation >>= nextOperation) := by
  -- what a run meets splits into what its two parts meet
  have parted (meter : Meter) (added : List Length)
      (met : (Step.left ((step >>= next) meter)).met = meter.met ++ added) :
      (∃ error after, step meter = .error error after ∧ after.met = meter.met ++ added) ∨
      ∃ result after front back, step meter = .ok result after ∧ after.met = meter.met ++ front ∧
        (Step.left (next result after)).met = after.met ++ back ∧ added = front ++ back := by
    rw [Step.bind_apply] at met
    obtain ⟨front, grown⟩ := first.grows meter
    cases ended : step meter with
    | error error after =>
        rw [ended] at met
        exact .inl ⟨error, after, rfl, met⟩
    | ok result after =>
        rw [ended] at met grown
        obtain ⟨back, further⟩ := (second result).grows after
        have whole : meter.met ++ added = meter.met ++ (front ++ back) := by
          rw [← List.append_assoc, ← met, ← (show after.met = meter.met ++ front from grown)]
          exact further
        exact .inr ⟨result, after, front, back, rfl, grown, further, List.append_cancel_left whole⟩
  refine ⟨fun meter => ?_, fun meter added met none => ?_, fun meter added length met refused => ?_⟩
  · obtain ⟨front, grown⟩ := first.grows meter
    rw [Step.bind_apply]
    cases ended : step meter with
    | error error after =>
        rw [ended] at grown
        exact ⟨front, grown⟩
    | ok result after =>
        rw [ended] at grown
        obtain ⟨back, further⟩ := (second result).grows after
        refine ⟨front ++ back, further.trans ?_⟩
        rw [← List.append_assoc]
        exact congrArg (· ++ back) grown
  · obtain ⟨error, after, ended, grown⟩ |
        ⟨result, after, front, back, ended, grown, further, rfl⟩ :=
      parted meter added met
    · have same := first.passes meter added (by rw [ended]; exact grown) none
      rw [Step.bind_apply, Step.bind_apply, same, ended]
      rfl
    · rw [Length.refused?_append, Option.or_eq_none_iff] at none
      have same := first.passes meter front (by rw [ended]; exact grown) none.1
      rw [Step.bind_apply, Step.bind_apply, same, ended]
      exact (second result).passes after back further none.2
  · obtain ⟨error, after, ended, grown⟩ |
        ⟨result, after, front, back, ended, grown, further, rfl⟩ :=
      parted meter added met
    · obtain ⟨cause, stopped, failed, root⟩ :=
        first.refuses meter added length (by rw [ended]; exact grown) refused
      refine ⟨cause, stopped, ?_, root⟩
      rw [Step.bind_apply, failed]
    · have met : (Step.left (step meter)).met = meter.met ++ front := by rw [ended]; exact grown
      rw [Length.refused?_append] at refused
      cases early : Length.refused? limits front with
      | some other =>
          rw [early] at refused
          cases refused
          obtain ⟨cause, stopped, failed, root⟩ := first.refuses meter front length met early
          refine ⟨cause, stopped, ?_, root⟩
          rw [Step.bind_apply, failed]
      | none =>
          rw [early, Option.none_or] at refused
          obtain ⟨cause, stopped, failed, root⟩ :=
            (second result).refuses after back length further refused
          refine ⟨cause, stopped, ?_, root⟩
          rw [Step.bind_apply, first.passes meter front met early, ended]
          exact failed

/-- Changing the result meets no length. -/
theorem map (change : α → β) (filters : Filters limits step operation) :
    Filters limits (change <$> step) (change <$> operation) := by
  rw [map_eq_pure_bind, map_eq_pure_bind]
  exact filters.bind fun result => pure (change result)

/-- Naming the field of a failure meets no length and does not change its cause. -/
theorem inField (owner name : String) (filters : Filters limits step operation) :
    Filters limits (Step.inField owner name step) (Step.inField owner name operation) := by
  have left (meter : Meter) :
      Step.left (Step.inField owner name step meter) = Step.left (step meter) := by
    simp only [Step.inField]
    cases step meter <;> rfl
  refine ⟨fun meter => ?_, fun meter added met none => ?_, fun meter added length met refused => ?_⟩
  · rw [left]
    exact filters.grows meter
  · rw [left] at met
    simp only [Step.inField, filters.passes meter added met none]
    cases step meter <;> rfl
  · rw [left] at met
    obtain ⟨error, stopped, failed, root⟩ := filters.refuses meter added length met refused
    exact ⟨error.inField owner name, stopped, by simp only [Step.inField, failed], root⟩

/-- Repetitions are filtered one after another. -/
theorem repeated (filters : Filters limits step operation) (count : Nat) (collected : List α) :
    Filters limits (Meter.repeated step count collected)
      (Buffer.repeated operation count collected) := by
  induction count generalizing collected with
  | zero => exact pure _
  | succ count inductionHypothesis =>
      exact filters.bind fun result => inductionHypothesis (result :: collected)

/-- A length is judged where it is met: if it is not negative, only the limits can refuse
    it. -/
theorem judge (kind : LengthKind) (width number : Nat) :
    Filters limits (Meter.judge kind width number)
      (Buffer.checkLength width (kind.range limits) number) := by
  by_cases negative : 2 * number < Bytes.capacity width
  · have judged (meter : Meter) : Meter.judge kind width number meter
        = .ok number { meter with met := meter.met ++ [⟨kind, number⟩] } := by
      simp only [Meter.judge, Buffer.checkLength, negative]
      rfl
    have checked (bytes : Bytes) :
        Buffer.checkLength width (kind.range limits) number (Buffer.reader bytes limits)
          = if Length.admitted limits ⟨kind, number⟩ then .ok number (Buffer.reader bytes limits)
            else .error (.lengthExceeded number) (Buffer.reader bytes limits) := by
      cases admits : (kind.range limits).contains number <;>
        simp only [Buffer.checkLength, negative, if_true, Length.admitted, admits] <;> rfl
    refine ⟨fun meter => ⟨_, by rw [judged]; rfl⟩, fun meter added met none => ?_,
      fun meter added length met refused => ?_⟩
    · rw [judged] at met
      obtain rfl : [_] = added := List.append_cancel_left met
      have admitted := Length.refused?_eq_none.mp none ⟨kind, number⟩ List.mem_cons_self
      rw [judged, checked, if_pos admitted]
      rfl
    · rw [judged] at met
      obtain rfl : [_] = added := List.append_cancel_left met
      obtain ⟨exceeds, rfl⟩ : _ ∧ ⟨kind, number⟩ = length := by
        simpa [Length.refused?] using refused
      refine ⟨.lengthExceeded number, Buffer.reader meter.unread limits, ?_, rfl⟩
      rw [checked, if_neg (by simpa using exceeds)]
  · refine of_silent (fun meter => ?_) fun meter => ?_
    · simp only [Meter.judge, Buffer.checkLength, negative]
      rfl
    · simp only [Meter.judge, Buffer.checkLength, negative]
      rfl

/-- A length is read, and judged by the limits for its kind. -/
theorem length (kind : LengthKind) (width : Nat) :
    Filters limits (Meter.length kind width)
      (Buffer.limits >>= fun limits =>
        Buffer.readNumber width >>= Buffer.checkLength width (kind.range limits)) := by
  have read : Filters limits (Meter.length kind width)
      (Buffer.readNumber width >>= Buffer.checkLength width (kind.range limits)) :=
    bind (plain (Buffer.limitless_readNumber width)) fun number => judge kind width number
  exact ⟨read.grows, read.passes, read.refuses⟩

/-- Text is filtered by its length. -/
theorem text : Filters limits Meter.text Buffer.readString := by
  have numbered : Filters limits Meter.text _ := bind (length .text 4) fun number =>
    plain (Buffer.limitless_bind (Buffer.limitless_take number) Buffer.limitless_asText)
  exact numbered

/-- Octets are filtered by their number. -/
theorem octets : Filters limits Meter.octets Buffer.readBytes := by
  have numbered : Filters limits Meter.octets _ := bind (length .bytes 4) fun number =>
    plain (Buffer.limitless_take number)
  exact numbered

/-- What a flag announces is filtered, if it is there. -/
theorem flagged {serializer : Serializer} {depth : Nat} {visited : List Ty} {codec : Codec}
    {step : Step Meter Value} (flag : Bool)
    (below : Filters limits (some <$> step)
      (codec.decode.run (serializer.answer depth visited))) :
    Filters limits (Meter.behindFlag flag step)
      ((codec.flagged flag).decode.run (serializer.answer depth visited)) := by
  cases flag with
  | false => exact below
  | true =>
      rw [Codec.run_decode_flagged]
      refine bind (plain Buffer.limitless_readBool) fun given => ?_
      cases given with
      | true => exact below
      | false => exact pure none

end Filters

/-- A leaf is filtered by its length, if it has one. -/
theorem Leaf.filters_read (limits : Config) (plain : Leaf) :
    Filters limits plain.survey plain.read := by
  have number (width : Nat) (make : Nat → Scalar) :
      Filters limits (Meter.plain (do return make (← Buffer.readNumber width)))
        (do return make (← Buffer.readNumber width)) :=
    .plain (Buffer.limitless_bind (Buffer.limitless_readNumber width) fun _ =>
      Buffer.limitless_pure _)
  cases plain with
  | string => exact Filters.bind Filters.text fun _ => .pure _
  | bytes => exact Filters.bind Filters.octets fun _ => .pure _
  | bool =>
      exact Filters.plain (Buffer.limitless_bind Buffer.limitless_readBool fun _ =>
        Buffer.limitless_pure _)
  | char =>
      exact Filters.plain (Buffer.limitless_bind Buffer.limitless_readChar fun _ =>
        Buffer.limitless_pure _)
  | _ => exact number _ _

/-- A name is filtered by its length. -/
theorem Enumeration.filters_read (schema : Schema) (limits : Config) (type : Ty)
    (names : List String) (ask : Query → Step Meter Value) :
    Filters limits ((Shape.enumeration names).survey schema type ask)
      (Enumeration.read type names) := by
  refine Filters.bind Filters.text fun name => ?_
  cases fromName type names name with
  | some value => exact .pure value
  | none => exact .fail _

end Wireform
