import Wireform.Proofs.Answer
import Wireform.Proofs.Rules

/-!
# Work that does not see whether codecs are remembered

The limits that a buffer carries come with the serializer's choice to remember
codecs or not, and whoever holds the buffer could look at that choice. An operation
is indifferent to it if, stamped the other way, the buffer is worked on in the same
way and comes out stamped that way. A program is indifferent if running it is,
whatever indifferent answers its requests get. Everything built in is indifferent;
of user codecs and custom formats it has to be required.
-/

namespace Wireform

variable {α β : Type}

namespace Buffer

/-- The buffer as a serializer makes it that does or does not remember codecs. -/
def stamped (remembers : Bool) (buffer : Buffer) : Buffer :=
  { buffer with config := { buffer.config with cacheCodecs := remembers } }

/-- An operation does the same to a buffer however it is stamped. -/
def Indifferent (operation : Op α) : Prop :=
  ∀ remembers buffer,
    operation (buffer.stamped remembers) = Step.carry (stamped remembers) (operation buffer)

/-- Yielding a result is indifferent. -/
theorem indifferent_pure (result : α) : Indifferent (pure result) := fun _ _ => rfl

/-- Failing is indifferent. -/
theorem indifferent_fail (error : Error) : Indifferent (Step.fail error : Op α) := fun _ _ => rfl

/-- A result or a failure is indifferent. -/
theorem indifferent_lift (outcome : Except Error α) : Indifferent (Step.lift outcome) := by
  cases outcome with
  | ok result => exact indifferent_pure result
  | error error => exact indifferent_fail error

/-- A succession of indifferent operations is indifferent. -/
theorem indifferent_bind {operation : Op α} {next : α → Op β} (first : Indifferent operation)
    (second : ∀ result, Indifferent (next result)) : Indifferent (operation >>= next) := by
  intro remembers buffer
  rw [Step.bind_apply, Step.bind_apply, first remembers buffer]
  cases operation buffer with
  | ok result after => exact second result remembers after
  | error error after => rfl

/-- What follows a known result need only be indifferent where there is one. -/
theorem indifferent_bind_lift {outcome : Except Error α} {next : α → Op β}
    (second : ∀ result, outcome = .ok result → Indifferent (next result)) :
    Indifferent (Step.lift outcome >>= next) := by
  cases outcome with
  | ok result => exact second result rfl
  | error error => exact indifferent_fail error

/-- Changing the result is indifferent. -/
theorem indifferent_map {operation : Op α} (change : α → β) (indifferent : Indifferent operation) :
    Indifferent (change <$> operation) := by
  rw [map_eq_pure_bind]
  exact indifferent_bind indifferent fun result => indifferent_pure (change result)

/-- Naming the field of a failure is indifferent. -/
theorem indifferent_inField {operation : Op α} (owner name : String)
    (indifferent : Indifferent operation) : Indifferent (Step.inField owner name operation) := by
  intro remembers buffer
  simp only [Step.inField, indifferent remembers buffer]
  cases operation buffer <;> rfl

/-- Appending is indifferent. -/
theorem indifferent_append (bytes : Bytes) : Indifferent (append bytes) := by
  rintro remembers ⟨contents, config⟩
  cases contents <;> rfl

/-- Taking bytes off the front is indifferent. -/
theorem indifferent_take (count : Nat) : Indifferent (take count) := by
  rintro remembers ⟨contents, config⟩
  cases contents with
  | written reversed => rfl
  | unread bytes =>
      by_cases enough : (bytes.splitAt count).1.length = count
      · simp only [take, stamped, if_pos enough]; rfl
      · simp only [take, stamped, if_neg enough]; rfl

/-- What depends on the ranges among the limits only is indifferent. -/
theorem indifferent_limits {next : Config → Op α}
    (ranges : ∀ config remembers, next { config with cacheCodecs := remembers } = next config)
    (indifferent : ∀ config, Indifferent (next config)) : Indifferent (limits >>= next) := by
  intro remembers buffer
  rw [Step.bind_apply, Step.bind_apply]
  simp only [limits]
  rw [← indifferent buffer.config remembers buffer]
  exact congrFun (ranges buffer.config remembers) _

/-- Reading a number is indifferent. -/
theorem indifferent_readNumber (width : Nat) : Indifferent (readNumber width) :=
  indifferent_bind (indifferent_take width) fun bytes => indifferent_pure (Bytes.ofBigEndian bytes)

/-- Reading a flag is indifferent. -/
theorem indifferent_readBool : Indifferent readBool := by
  refine indifferent_bind (indifferent_readNumber 1) fun number => ?_
  split
  · exact indifferent_pure _
  · exact indifferent_pure _
  · exact indifferent_fail _

/-- Writing a length is indifferent. -/
theorem indifferent_writeLength (length : Nat) : Indifferent (writeLength length) := by
  unfold writeLength
  split
  · exact indifferent_append _
  · exact indifferent_fail _

/-- Writing a long length is indifferent. -/
theorem indifferent_writeLongLength (length : Nat) : Indifferent (writeLongLength length) := by
  unfold writeLongLength
  split
  · exact indifferent_append _
  · exact indifferent_fail _

/-- Checking a length is indifferent. -/
theorem indifferent_checkLength (width : Nat) (range : Range) (number : Nat) :
    Indifferent (checkLength width range number) := by
  unfold checkLength
  split
  · split
    · exact indifferent_pure _
    · exact indifferent_fail _
  · exact indifferent_fail _

/-- Reading a length is indifferent. -/
theorem indifferent_readLength (range : Range) : Indifferent (readLength range) :=
  indifferent_bind (indifferent_readNumber 4) fun number => indifferent_checkLength 4 range number

/-- Reading a long length is indifferent. -/
theorem indifferent_readLongLength (range : Range) : Indifferent (readLongLength range) :=
  indifferent_bind (indifferent_readNumber 8) fun number => indifferent_checkLength 8 range number

/-- Taking octets for text is indifferent. -/
theorem indifferent_asText (bytes : Bytes) : Indifferent (asText bytes) := by
  unfold asText
  split
  · exact indifferent_pure _
  · exact indifferent_fail _

/-- Writing text is indifferent. -/
theorem indifferent_writeString (text : String) : Indifferent (writeString text) :=
  indifferent_bind (indifferent_writeLength _) fun _ => indifferent_append _

/-- Reading text is indifferent. -/
theorem indifferent_readString : Indifferent readString :=
  indifferent_limits (fun _ _ => rfl) fun _ =>
    indifferent_bind (indifferent_readLength _) fun length =>
      indifferent_bind (indifferent_take length) fun bytes => indifferent_asText bytes

/-- Writing octets is indifferent. -/
theorem indifferent_writeBytes (octets : Bytes) : Indifferent (writeBytes octets) :=
  indifferent_bind (indifferent_writeLength _) fun _ => indifferent_append _

/-- Reading octets is indifferent. -/
theorem indifferent_readBytes : Indifferent readBytes :=
  indifferent_limits (fun _ _ => rfl) fun _ =>
    indifferent_bind (indifferent_readLength _) fun length => indifferent_take length

/-- Writing a character is indifferent. -/
theorem indifferent_writeChar (char : Char) : Indifferent (writeChar char) := by
  unfold writeChar
  split
  · exact indifferent_append _
  · exact indifferent_fail _

/-- Reading a character is indifferent. -/
theorem indifferent_readChar : Indifferent readChar := by
  refine indifferent_bind (indifferent_readNumber 2) fun number => ?_
  split
  · exact indifferent_pure _
  · exact indifferent_fail _

end Buffer

open Buffer (Indifferent)

/-- Writing a scalar is indifferent. -/
theorem Scalar.indifferent_write (scalar : Scalar) : Indifferent scalar.write := by
  cases scalar with
  | char char => exact Buffer.indifferent_writeChar char
  | string text => exact Buffer.indifferent_writeString text
  | bytes octets => exact Buffer.indifferent_writeBytes octets
  | _ => exact Buffer.indifferent_append _

/-- Reading a scalar is indifferent. -/
theorem Leaf.indifferent_read (leaf : Leaf) : Indifferent leaf.read := by
  cases leaf with
  | bool =>
      exact Buffer.indifferent_bind Buffer.indifferent_readBool fun _ => Buffer.indifferent_pure _
  | char =>
      exact Buffer.indifferent_bind Buffer.indifferent_readChar fun _ => Buffer.indifferent_pure _
  | string =>
      exact Buffer.indifferent_bind Buffer.indifferent_readString fun _ => Buffer.indifferent_pure _
  | bytes =>
      exact Buffer.indifferent_bind Buffer.indifferent_readBytes fun _ => Buffer.indifferent_pure _
  | _ =>
      exact Buffer.indifferent_bind (Buffer.indifferent_readNumber _) fun _ =>
        Buffer.indifferent_pure _

/-- Writing a value of a leaf type is indifferent. -/
theorem Leaf.indifferent_writeValue (leaf : Leaf) (value : Value) :
    Indifferent (leaf.writeValue value) := by
  unfold Leaf.writeValue
  split
  · split
    · exact Scalar.indifferent_write _
    · exact Buffer.indifferent_fail _
  · exact Buffer.indifferent_fail _

/-- Writing the name of a member is indifferent. -/
theorem Enumeration.indifferent_write (type : Ty) (names : List String) (value : Value) :
    Indifferent (Enumeration.write type names value) := by
  unfold Enumeration.write
  split
  · exact Buffer.indifferent_writeString _
  · exact Buffer.indifferent_fail _

/-- Reading the name of a member is indifferent. -/
theorem Enumeration.indifferent_read (type : Ty) (names : List String) :
    Indifferent (Enumeration.read type names) := by
  refine Buffer.indifferent_bind Buffer.indifferent_readString fun name => ?_
  split
  · exact Buffer.indifferent_pure _
  · exact Buffer.indifferent_fail _

/-- A custom format neither writes nor reads differently where codecs are remembered. -/
structure Custom.Indifferent (format : Custom) : Prop where
  write : ∀ value, Buffer.Indifferent (format.write value)
  read : Buffer.Indifferent format.read

/-- Requests that are about the buffer itself. -/
def Request.ofBuffer : Request → Bool
  | .look => true
  | .replace _ => true
  | _ => false

/-- Answers that show and replace the buffer as asked and are indifferent otherwise. -/
structure Request.Indifferently (answer : (request : Request) → Buffer.Op request.Answer) :
    Prop where
  look : ∀ buffer, answer .look buffer = .ok buffer buffer
  replace : ∀ before after, answer (.replace after) before = .ok () after
  others : ∀ request : Request, request.ofBuffer = false → Indifferent (answer request)

/-- Running the program is indifferent, whatever indifferent answers it gets. -/
def Program.Indifferent (program : Program α) : Prop :=
  ∀ answer : (request : Request) → Buffer.Op request.Answer,
    Request.Indifferently answer → Buffer.Indifferent (program.run answer)

namespace Program

/-- A program that yields a result is indifferent. -/
theorem indifferent_pure (result : α) : (pure result : Program α).Indifferent :=
  fun _ _ => Buffer.indifferent_pure result

/-- A program that fails is indifferent. -/
theorem indifferent_fail (error : Error) : (fail error : Program α).Indifferent :=
  fun _ _ => Buffer.indifferent_fail error

/-- A program that does nothing is indifferent. -/
theorem indifferent_lift (outcome : Except Error α) : (lift outcome).Indifferent := by
  cases outcome with
  | ok result => exact indifferent_pure result
  | error error => exact indifferent_fail error

/-- A succession of indifferent programs is indifferent. -/
theorem indifferent_bind {program : Program α} {next : α → Program β}
    (first : program.Indifferent) (second : ∀ result, (next result).Indifferent) :
    (program >>= next).Indifferent := by
  intro answer answers
  rw [run_bind]
  exact Buffer.indifferent_bind (first answer answers) fun result => second result answer answers

/-- Changing the result is indifferent. -/
theorem indifferent_map {program : Program α} (change : α → β)
    (indifferent : program.Indifferent) : (change <$> program).Indifferent := by
  intro answer answers
  rw [run_map]
  exact Buffer.indifferent_map change (indifferent answer answers)

/-- A request that is not about the buffer itself is indifferent. -/
theorem indifferent_perform (request : Request) (other : request.ofBuffer = false) :
    (perform request).Indifferent := by
  intro answer answers
  rw [run_perform]
  exact answers.others request other

/-- An indifferent buffer operation stays so as a program. -/
theorem indifferent_buffer {operation : Buffer.Op α} (indifferent : Buffer.Indifferent operation) :
    (buffer operation).Indifferent := by
  intro answer answers
  rw [run_buffer answer answers.look answers.replace]
  exact indifferent

/-- Encoding values one after another is indifferent. -/
theorem indifferent_encodeEach (context : Context) (items : List Value) :
    (encodeEach context items).Indifferent := by
  induction items with
  | nil => exact indifferent_pure ()
  | cons item rest inductionHypothesis =>
      exact indifferent_bind (indifferent_perform _ rfl) fun _ => inductionHypothesis

/-- Decoding values one after another is indifferent. -/
theorem indifferent_decodeEach (context : Context) (count : Nat) (collected : List Value) :
    (decodeEach context count collected).Indifferent := by
  induction count generalizing collected with
  | zero => exact indifferent_pure _
  | succ count inductionHypothesis =>
      exact indifferent_bind (indifferent_perform _ rfl) fun value =>
        inductionHypothesis (value :: collected)

/-- Encoding entries one after another is indifferent. -/
theorem indifferent_encodeEntries (key value : Context) (entries : List (Value × Value)) :
    (encodeEntries key value entries).Indifferent := by
  induction entries with
  | nil => exact indifferent_pure ()
  | cons entry rest inductionHypothesis =>
      exact indifferent_bind (indifferent_perform _ rfl) fun _ =>
        indifferent_bind (indifferent_perform _ rfl) fun _ => inductionHypothesis

/-- Decoding entries one after another is indifferent. -/
theorem indifferent_decodeEntries (key value : Context) (count : Nat)
    (collected : List (Value × Value)) :
    (decodeEntries key value count collected).Indifferent := by
  induction count generalizing collected with
  | zero => exact indifferent_pure _
  | succ count inductionHypothesis =>
      exact indifferent_bind (indifferent_perform _ rfl) fun first =>
        indifferent_bind (indifferent_perform _ rfl) fun second =>
          inductionHypothesis ((first, second) :: collected)

end Program

/-- A codec neither encodes nor decodes differently where codecs are remembered. -/
structure Codec.Indifferent (codec : Codec) : Prop where
  encode : ∀ value, (codec.encode value).Indifferent
  decode : codec.decode.Indifferent

namespace Codec

/-- Refusing an absent value is indifferent. -/
theorem indifferent_presentOnly (name : String) (encode : Value → Program Unit)
    (indifferent : ∀ value, (encode value).Indifferent) (value : Option Value) :
    (presentOnly name encode value).Indifferent := by
  cases value with
  | none => exact Program.indifferent_fail _
  | some value => exact indifferent value

/-- A codec that works on the buffer alone is as indifferent as its operations. -/
theorem typed_indifferent (type : Ty) (write : Value → Buffer.Op Unit) (read : Buffer.Op Value)
    (writes : ∀ value, Buffer.Indifferent (write value)) (reads : Buffer.Indifferent read) :
    (typed type write read).Indifferent where
  encode := indifferent_presentOnly _ _ fun _ =>
    Program.indifferent_bind (Program.indifferent_lift _) fun value =>
      Program.indifferent_buffer (writes value)
  decode := Program.indifferent_map some (Program.indifferent_buffer reads)

/-- Leaves are indifferent. -/
theorem leaf_indifferent (leaf : Leaf) : (Codec.leaf leaf).Indifferent :=
  typed_indifferent _ _ _ leaf.indifferent_writeValue
    (Buffer.indifferent_bind leaf.indifferent_read fun _ => Buffer.indifferent_pure _)

/-- Vectors of octets are indifferent. -/
theorem octetVector_indifferent : octetVector.Indifferent := by
  refine typed_indifferent _ _ _ (fun value => ?_) ?_
  · split
    · exact Buffer.indifferent_writeBytes _
    · exact Buffer.indifferent_fail _
  · exact Buffer.indifferent_bind Buffer.indifferent_readBytes fun _ => Buffer.indifferent_pure _

/-- Enumerations are indifferent. -/
theorem enumeration_indifferent (type : Ty) (names : List String) :
    (enumeration type names).Indifferent where
  encode := indifferent_presentOnly _ _ fun _ =>
    Program.indifferent_buffer (Enumeration.indifferent_write type names _)
  decode := Program.indifferent_map some
    (Program.indifferent_buffer (Enumeration.indifferent_read type names))

/-- Sequences are indifferent. -/
theorem stream_indifferent (type element : Ty) (collect : List Value → Except Error Value) :
    (stream type element collect).Indifferent where
  encode := indifferent_presentOnly _ _ fun _ =>
    Program.indifferent_bind (Program.indifferent_lift _) fun _ =>
      Program.indifferent_bind
        (Program.indifferent_buffer (Buffer.indifferent_writeLongLength _)) fun _ =>
          Program.indifferent_encodeEach _ _
  decode :=
    Program.indifferent_bind
      (Program.indifferent_buffer
        (Buffer.indifferent_limits (fun _ _ => rfl) fun _ => Buffer.indifferent_readLongLength _))
      fun _ =>
        Program.indifferent_bind (Program.indifferent_decodeEach _ _ _) fun _ =>
          Program.indifferent_map some (Program.indifferent_lift _)

/-- Maps are indifferent. -/
theorem map_indifferent (type key value : Ty) : (map type key value).Indifferent where
  encode := indifferent_presentOnly _ _ fun _ =>
    Program.indifferent_bind (Program.indifferent_lift _) fun _ =>
      Program.indifferent_bind
        (Program.indifferent_buffer (Buffer.indifferent_writeLength _)) fun _ =>
          Program.indifferent_encodeEntries _ _ _
  decode :=
    Program.indifferent_bind
      (Program.indifferent_buffer
        (Buffer.indifferent_limits (fun _ _ => rfl) fun _ => Buffer.indifferent_readLength _))
      fun _ =>
        Program.indifferent_bind (Program.indifferent_decodeEntries _ _ _ _) fun _ =>
          Program.indifferent_map some (Program.indifferent_lift _)

/-- Nested options are indifferent. -/
theorem innerOption_indifferent (type : Ty) : (innerOption type).Indifferent where
  encode := indifferent_presentOnly _ _ fun _ => Program.indifferent_perform _ rfl
  decode := Program.indifferent_map some (Program.indifferent_perform _ rfl)

/-- Aggregates are indifferent. -/
theorem aggregate_indifferent (type : Ty) (description : Aggregate) :
    (aggregate type description).Indifferent where
  encode := indifferent_presentOnly _ _ fun _ => Program.indifferent_perform _ rfl
  decode := Program.indifferent_map some (Program.indifferent_perform _ rfl)

/-- A custom type is as indifferent as its format. -/
theorem custom_indifferent (type : Ty) (format : Custom) (indifferent : format.Indifferent) :
    (custom type format).Indifferent where
  encode := indifferent_presentOnly _ _ fun value => by
    refine Program.indifferent_buffer ?_
    unfold Custom.writeValue
    split
    · exact indifferent.write value
    · exact Buffer.indifferent_fail _
  decode := Program.indifferent_map some (Program.indifferent_buffer indifferent.read)

/-- A presence flag keeps a codec indifferent. -/
theorem nullable_indifferent (inner : Codec) (indifferent : inner.Indifferent) :
    (nullable inner).Indifferent where
  encode value := Program.indifferent_bind
    (Program.indifferent_buffer (Buffer.indifferent_append _)) fun _ => by
      cases value with
      | none => exact Program.indifferent_pure ()
      | some value => exact indifferent.encode (some value)
  decode := Program.indifferent_bind
    (Program.indifferent_buffer Buffer.indifferent_readBool) fun present => by
      cases present with
      | false => exact Program.indifferent_pure none
      | true => exact indifferent.decode

/-- Every built-in codec is indifferent if the custom formats are. -/
theorem builtin_indifferent (schema : Schema)
    (formats : ∀ type format, schema.kind type = .custom format → format.Indifferent) :
    Builtin schema Codec.Indifferent where
  leaf := leaf_indifferent
  octetVector := octetVector_indifferent
  enumeration := enumeration_indifferent
  map := map_indifferent
  stream := stream_indifferent
  innerOption := innerOption_indifferent
  aggregate type description _ := aggregate_indifferent type description
  custom type format described := custom_indifferent type format (formats type format described)
  nullable := nullable_indifferent

end Codec

namespace Serializer

section Aggregates

variable {operation : Context → Buffer.Op Unit} {decode : Context → Buffer.Op Value}

/-- Encoding fields is indifferent if encoding at every place is. -/
theorem indifferent_encodeFields (each : ∀ context, Indifferent (operation context)) (owner : Ty)
    (value : Value) (index : Nat) (fields : List Field) :
    Indifferent (encodeFields operation owner value index fields) := by
  induction fields generalizing index with
  | nil => exact Buffer.indifferent_pure ()
  | cons field rest inductionHypothesis =>
      refine Buffer.indifferent_bind (Buffer.indifferent_inField _ _ ?_) fun _ =>
        inductionHypothesis (index + 1)
      exact Buffer.indifferent_bind (Buffer.indifferent_lift _) fun child => each _

/-- Decoding arguments is indifferent if decoding at every place is. -/
theorem indifferent_decodeArguments (each : ∀ context, Indifferent (decode context)) (owner : Ty)
    (constructor position : Nat) (parameters : List Parameter) :
    Indifferent (decodeArguments decode owner constructor position parameters) := by
  induction parameters generalizing position with
  | nil => exact Buffer.indifferent_pure []
  | cons parameter rest inductionHypothesis =>
      exact Buffer.indifferent_bind (Buffer.indifferent_inField _ _ (each _)) fun argument =>
        Buffer.indifferent_bind (inductionHypothesis (position + 1)) fun others =>
          Buffer.indifferent_pure (argument :: others)

/-- Assigning fields is indifferent if decoding at every place is. -/
theorem indifferent_assignFields (each : ∀ context, Indifferent (decode context)) (owner : Ty)
    (index : Nat) (fields : List Field) (value : Value) :
    Indifferent (assignFields decode owner index fields value) := by
  induction fields generalizing index value with
  | nil => exact Buffer.indifferent_pure value
  | cons field rest inductionHypothesis =>
      refine Buffer.indifferent_bind (Buffer.indifferent_inField _ _ ?_) fun assigned =>
        inductionHypothesis (index + 1) assigned
      exact Buffer.indifferent_bind (each _) fun decoded => Buffer.indifferent_lift _

/-- Rebuilding an aggregate is indifferent by either strategy. -/
theorem indifferent_rebuild (each : ∀ context, Indifferent (decode context)) (owner : Ty)
    (description : Aggregate) : Indifferent (rebuild decode owner description) := by
  unfold rebuild
  split
  · exact Buffer.indifferent_bind (indifferent_decodeArguments each owner _ 0 _) fun _ =>
      Buffer.indifferent_lift _
  · exact indifferent_assignFields each owner 0 _ _
  · exact Buffer.indifferent_fail _

end Aggregates

/-- Answering is indifferent if every codec is. The induction is on how deep requests
    may nest. -/
theorem indifferently_answer {serializer : Serializer} (makes : serializer.Makes Codec.Indifferent)
    (depth : Nat) (visited : List Ty) :
    Request.Indifferently (serializer.answer depth visited) := by
  induction depth generalizing visited with
  | zero =>
      refine ⟨answer_look _ _ _, answer_replace _ _ _, fun request other => ?_⟩
      cases request with
      | look => cases other
      | replace buffer => cases other
      | path => exact fun _ _ => rfl
      | _ => exact Buffer.indifferent_fail _
  | succ depth inductionHypothesis =>
      refine ⟨answer_look _ _ _, answer_replace _ _ _, fun request other => ?_⟩
      cases request with
      | look => cases other
      | replace buffer => cases other
      | path => exact fun _ _ => rfl
      | encode context =>
          simp only [answer]
          split
          · exact Buffer.indifferent_fail _
          · refine Buffer.indifferent_bind_lift fun codec made =>
              Buffer.indifferent_bind (Buffer.indifferent_lift _) fun inner => ?_
            exact (makes.fresh context codec made).encode inner _ (inductionHypothesis visited)
      | decode context =>
          refine Buffer.indifferent_bind_lift fun codec made =>
            Buffer.indifferent_bind ?_ fun inner => Buffer.indifferent_lift _
          exact (makes.fresh context codec made).decode _ (inductionHypothesis visited)
      | encodeFields type description value =>
          simp only [answer]
          split
          · exact Buffer.indifferent_fail _
          · exact indifferent_encodeFields
              (fun context => (inductionHypothesis (type :: visited)).others (.encode context) rfl)
              type value 0 _
      | decodeFields type description =>
          simp only [answer]
          split
          · exact Buffer.indifferent_fail _
          · exact indifferent_rebuild
              (fun context => (inductionHypothesis (type :: visited)).others (.decode context) rfl)
              type description
      | encodeResolved context value =>
          refine Buffer.indifferent_bind_lift fun found resolved => ?_
          cases found with
          | none => exact Buffer.indifferent_pure none
          | some codec =>
              exact Buffer.indifferent_map some
                ((makes.resolved context codec resolved).encode value _ (inductionHypothesis visited))
      | decodeResolved context =>
          refine Buffer.indifferent_bind_lift fun found resolved => ?_
          cases found with
          | none => exact Buffer.indifferent_pure none
          | some codec =>
              exact Buffer.indifferent_map some
                ((makes.resolved context codec resolved).decode _ (inductionHypothesis visited))

end Serializer

end Wireform
