import Wireform.Proofs.Stream

/-!
# Reading from left to right

A reader knows how many bytes are left to it, and an operation could let its result depend
on that. None of those that decoding is made of does. An operation is forward if what it
accepts it accepts on the strength of the bytes that it takes, so that any others may stand
behind them and none of them may be missing, and if what it refuses for another reason than
a lack of bytes it refuses for the same reason with more of them.

Neither the values that are made of the bytes nor how deep requests may nest has a part in
this. All that is asked of a type is that the requests for its parts go by its description:
it is no custom format, and the arguments of its constructor are its fields.
-/

namespace Wireform

variable {α β : Type}

namespace Buffer

/-- The operation fails on the bytes because there are too few of them. -/
def Lacks (config : Config) (operation : Op α) (bytes : Bytes) : Prop :=
  ∃ error after, operation (reader bytes config) = .error error after ∧
    error.rootCause = .endOfBuffer

/-- The operation reads from left to right and never looks ahead. -/
structure Forward (config : Config) (operation : Op α) : Prop where
  /-- A result is made of the bytes that are taken off the front, and of no fewer. -/
  accepted : ∀ bytes result after, operation (reader bytes config) = .ok result after →
    ∃ front rest, bytes = front ++ rest ∧ after = reader rest config ∧
      Reads config operation front result ∧
      ∀ shorter missing, front = shorter ++ missing → missing ≠ [] → Lacks config operation shorter
  /-- A failure for another reason than a lack of bytes is one with more bytes as well. -/
  refused : ∀ bytes error after, operation (reader bytes config) = .error error after →
    error.rootCause ≠ .endOfBuffer → ∀ more, ∃ left,
      operation (reader (bytes ++ more) config) = .error error left

variable {config : Config}

/-- Bytes that end before those that are taken do are too few. -/
theorem lacks_of_isPrefix {operation : Op α} {front rest shorter : Bytes}
    (lacks : ∀ shorter missing, front = shorter ++ missing → missing ≠ [] →
      Lacks config operation shorter)
    (inside : shorter <+: front ++ rest) (short : shorter.length < front.length) :
    Lacks config operation shorter := by
  obtain ⟨missing, split⟩ := List.prefix_of_prefix_length_le inside
    (List.prefix_append front rest) (Nat.le_of_lt short)
  refine lacks shorter missing split.symm ?_
  rintro rfl
  rw [List.append_nil] at split
  exact absurd short (split ▸ Nat.lt_irrefl _)

/-- Nothing is missing from no bytes. -/
theorem forward_pure (result : α) : Forward config (pure result) where
  accepted bytes _ _ succeeded := by
    cases succeeded
    refine ⟨[], bytes, rfl, rfl, reads_pure result, fun shorter missing split some => ?_⟩
    exact absurd (List.append_eq_nil_iff.mp split.symm).2 some
  refused _ _ _ failed := by cases failed

/-- What fails at once fails whatever the bytes. -/
theorem forward_fail (error : Error) : Forward config (Step.fail error : Op α) where
  accepted _ _ _ succeeded := by cases succeeded
  refused bytes _ _ failed _ more := by
    cases failed
    exact ⟨reader (bytes ++ more) config, rfl⟩

/-- A known outcome does not depend on bytes. -/
theorem forward_lift (outcome : Except Error α) : Forward config (Step.lift outcome) := by
  cases outcome with
  | ok result => exact forward_pure result
  | error error => exact forward_fail error

/-- What is missing from a succession is missing from the first or from the second. -/
theorem forward_bind {operation : Op α} {next : α → Op β} (first : Forward config operation)
    (second : ∀ result, Forward config (next result)) : Forward config (operation >>= next) where
  accepted bytes result after succeeded := by
    rw [Step.bind_apply] at succeeded
    cases ended : operation (reader bytes config) with
    | error error between => rw [ended] at succeeded; cases succeeded
    | ok found between =>
        rw [ended] at succeeded
        obtain ⟨front, rest, rfl, rfl, reads, lacks⟩ := first.accepted _ _ _ ended
        obtain ⟨behind, left, rfl, rfl, readsBehind, lacksBehind⟩ :=
          (second found).accepted _ _ _ succeeded
        refine ⟨front ++ behind, left, (List.append_assoc _ _ _).symm, rfl,
          reads_bind reads readsBehind, fun shorter missing split some => ?_⟩
        obtain ⟨extra, rfl, others⟩ | ⟨extra, partly, others⟩ := List.append_eq_append_iff.mp split
        · -- All that the first takes is there, so the second is the one that lacks bytes.
          obtain ⟨error, stopped, failed, cause⟩ := lacksBehind extra missing others some
          refine ⟨error, stopped, ?_, cause⟩
          rw [Step.bind_apply, reads extra]
          exact failed
        · by_cases whole : extra = []
          · rw [whole, List.append_nil] at partly
            rw [whole, List.nil_append] at others
            obtain ⟨error, stopped, failed, cause⟩ := lacksBehind [] behind rfl (others ▸ some)
            refine ⟨error, stopped, ?_, cause⟩
            have alone := reads []
            rw [List.append_nil, partly] at alone
            rw [Step.bind_apply, alone]
            exact failed
          · obtain ⟨error, stopped, failed, cause⟩ := lacks shorter extra partly whole
            refine ⟨error, stopped, ?_, cause⟩
            rw [Step.bind_apply, failed]
  refused bytes error after failed cause more := by
    rw [Step.bind_apply] at failed
    cases ended : operation (reader bytes config) with
    | error other between =>
        rw [ended] at failed
        cases failed
        obtain ⟨left, again⟩ := first.refused _ _ _ ended cause more
        exact ⟨left, by rw [Step.bind_apply, again]⟩
    | ok found between =>
        rw [ended] at failed
        obtain ⟨front, rest, rfl, rfl, reads, _⟩ := first.accepted _ _ _ ended
        obtain ⟨left, again⟩ := (second found).refused _ _ _ failed cause more
        refine ⟨left, ?_⟩
        rw [Step.bind_apply, List.append_assoc, reads]
        exact again

/-- Changing the result takes no bytes. -/
theorem forward_map {operation : Op α} (change : α → β) (forward : Forward config operation) :
    Forward config (change <$> operation) := by
  rw [map_eq_pure_bind]
  exact forward_bind forward fun result => forward_pure (change result)

/-- Naming the field of a failure takes no bytes and does not change its cause. -/
theorem forward_inField {operation : Op α} (owner name : String)
    (forward : Forward config operation) : Forward config (Step.inField owner name operation) where
  accepted bytes result after succeeded := by
    unfold Step.inField at succeeded
    cases ended : operation (reader bytes config) with
    | error error between => rw [ended] at succeeded; cases succeeded
    | ok found between =>
        rw [ended] at succeeded
        cases succeeded
        obtain ⟨front, rest, split, left, reads, lacks⟩ := forward.accepted _ _ _ ended
        refine ⟨front, rest, split, left, reads_inField owner name reads,
          fun shorter missing parted some => ?_⟩
        obtain ⟨error, stopped, failed, cause⟩ := lacks shorter missing parted some
        refine ⟨error.inField owner name, stopped, ?_, cause⟩
        simp only [Step.inField, failed]
  refused bytes error after failed cause more := by
    unfold Step.inField at failed
    cases ended : operation (reader bytes config) with
    | ok found between => rw [ended] at failed; cases failed
    | error inner between =>
        rw [ended] at failed
        cases failed
        obtain ⟨left, again⟩ := forward.refused _ _ _ ended cause more
        exact ⟨left, by simp only [Step.inField, again]⟩

/-- The limits can be looked up without reading. -/
theorem forward_limits {next : Config → Op α} (forward : Forward config (next config)) :
    Forward config (limits >>= next) :=
  ⟨forward.accepted, forward.refused⟩

/-- Bytes are taken together or not at all. -/
theorem forward_take (count : Nat) : Forward config (take count) where
  accepted bytes result after succeeded := by
    simp only [take, reader, List.splitAt_eq] at succeeded
    split at succeeded
    · next enough =>
        cases succeeded
        refine ⟨bytes.take count, bytes.drop count, (List.take_append_drop _ _).symm, rfl, ?_,
          fun shorter missing split some => ?_⟩
        · have reads := reads_take config (bytes.take count)
          rwa [enough] at reads
        · have missed : 0 < missing.length := List.length_pos_iff.mpr some
          have parts := congrArg List.length split
          rw [enough, List.length_append] at parts
          have few : ¬ (shorter.take count).length = count := by
            rw [List.length_take]
            omega
          refine ⟨.endOfBuffer, reader shorter config, ?_, rfl⟩
          simp only [take, reader, List.splitAt_eq, if_neg few]
    · cases succeeded
  refused bytes error after failed cause := by
    simp only [take, reader, List.splitAt_eq] at failed
    split at failed
    · cases failed
    · cases failed
      exact absurd rfl cause

/-- Each repetition reads behind the one before. -/
theorem forward_repeated {operation : Op α} (forward : Forward config operation) (count : Nat)
    (collected : List α) : Forward config (repeated operation count collected) := by
  induction count generalizing collected with
  | zero => exact forward_pure _
  | succ count inductionHypothesis =>
      exact forward_bind forward fun result => inductionHypothesis (result :: collected)

/-! ## Leaves -/

/-- A number is as many octets as it is wide. -/
theorem forward_readNumber (width : Nat) : Forward config (readNumber width) :=
  forward_bind (forward_take width) fun _ => forward_pure _

/-- A flag is judged by its octet. -/
theorem forward_readBool : Forward config readBool := by
  refine forward_bind (forward_readNumber 1) fun number => ?_
  match number with
  | 0 => exact forward_pure false
  | 1 => exact forward_pure true
  | number + 2 => exact forward_fail _

/-- A length is judged before anything that it counts. -/
theorem forward_checkLength (width : Nat) (range : Range) (number : Nat) :
    Forward config (checkLength width range number) := by
  unfold checkLength
  split
  · split
    · exact forward_pure number
    · exact forward_fail _
  · exact forward_fail _

/-- A length is read and judged. -/
theorem forward_readLength (range : Range) : Forward config (readLength range) :=
  forward_bind (forward_readNumber 4) fun number => forward_checkLength 4 range number

/-- A long length is read and judged. -/
theorem forward_readLongLength (range : Range) : Forward config (readLongLength range) :=
  forward_bind (forward_readNumber 8) fun number => forward_checkLength 8 range number

/-- Octets are judged to be text or not once all of them are there. -/
theorem forward_asText (bytes : Bytes) : Forward config (asText bytes) := by
  unfold asText
  split
  · exact forward_pure _
  · exact forward_fail _

/-- Text is its length and as many octets. -/
theorem forward_readString : Forward config readString :=
  forward_limits (forward_bind (forward_readLength config.stringLengths) fun length =>
    forward_bind (forward_take length) forward_asText)

/-- A byte string is its length and as many octets. -/
theorem forward_readBytes : Forward config readBytes :=
  forward_limits (forward_bind (forward_readLength config.byteLengths) forward_take)

/-- A character is judged by its unit. -/
theorem forward_readChar : Forward config readChar := by
  refine forward_bind (forward_readNumber 2) fun unit => ?_
  split
  · exact forward_pure _
  · exact forward_fail _

end Buffer

open Buffer (Forward Lacks)

variable {config : Config}

/-- Every leaf is read forward. -/
theorem Leaf.forward_read (plain : Leaf) : Forward config plain.read := by
  cases plain with
  | bool => exact Buffer.forward_bind Buffer.forward_readBool fun _ => Buffer.forward_pure _
  | char => exact Buffer.forward_bind Buffer.forward_readChar fun _ => Buffer.forward_pure _
  | string => exact Buffer.forward_bind Buffer.forward_readString fun _ => Buffer.forward_pure _
  | bytes => exact Buffer.forward_bind Buffer.forward_readBytes fun _ => Buffer.forward_pure _
  | _ => exact Buffer.forward_bind (Buffer.forward_readNumber _) fun _ => Buffer.forward_pure _

/-- A name is looked up once it has been read. -/
theorem Enumeration.forward_read (type : Ty) (names : List String) :
    Forward config (Enumeration.read type names) := by
  refine Buffer.forward_bind Buffer.forward_readString fun name => ?_
  split
  · exact Buffer.forward_pure _
  · exact Buffer.forward_fail _

/-! ## Codecs -/

/-- Decoding the type goes by its description: it is no custom format, and if it is an
    aggregate that a constructor rebuilds, the arguments are its fields. -/
structure Schema.Legible (schema : Schema) (type : Ty) : Prop where
  own : ∀ format, schema.kind type ≠ .custom format
  mirrors : ∀ description, schema.kind type = .aggregate description →
    ∀ index constructor, description.strategy = .construct index constructor →
      constructor.parameters = description.mirrored

/-- A derived type is legible. -/
theorem Schema.Derived.legible {schema : Schema} {type : Ty} (derived : schema.Derived type) :
    schema.Legible type where
  own := derived.not_custom
  mirrors description described index constructor chosen := by
    obtain ⟨entry, _, _, rebuilds⟩ := derived.describes description described
    simp only [Aggregate.Rebuilds, chosen] at rebuilds
    exact rebuilds.1

namespace Serializer

variable {schema : Schema} (limits : Config)

/-- Whatever stands at a place with markers is read forward. -/
def ForwardAt (config : Config) (schema : Schema) (depth : Nat) (visited : List Ty)
    (declared : Ty) (markers : List Marker) : Prop :=
  ∀ site, Forward limits ((build schema config).answer depth visited
    (.decode (.ofPlace declared markers site none)) : Buffer.Op Value)

/-- The codec of a shape reads forward, if the requests that it makes do. -/
theorem forward_codec (depth : Nat) (visited : List Ty) (type : Ty) (marked : Option Ty)
    (shape : Shape) (shaped : schema.shape type marked = .ok shape) (legible : schema.Legible type)
    (each : ∀ part, schema.Part type part → ForwardAt limits config schema depth visited part [])
    (named : ∀ element, marked = some element →
      ForwardAt limits config schema depth visited element [])
    (nested : ForwardAt limits config schema depth visited type [])
    (fields : ∀ description, schema.kind type = .aggregate description →
      Forward limits ((build schema config).answer depth visited (.decodeFields type description)
        : Buffer.Op Value)) :
    Forward limits
      ((shape.codec schema type).decode.run ((build schema config).answer depth visited)) := by
  have fits := schema.fits_of_shape type marked shape shaped
  cases shape with
  | leaf plain =>
      simp only [Shape.codec, Codec.run_decode_leaf]
      exact Buffer.forward_map some
        (Buffer.forward_bind plain.forward_read fun _ => Buffer.forward_pure _)
  | octets =>
      simp only [Shape.codec, Codec.run_decode_octetVector]
      exact Buffer.forward_map some
        (Buffer.forward_bind Buffer.forward_readBytes fun _ => Buffer.forward_pure _)
  | enumeration names =>
      simp only [Shape.codec, Codec.run_decode_enumeration]
      exact Buffer.forward_map some (Enumeration.forward_read type names)
  | sequence element =>
      obtain ⟨_, declared, described, chosen⟩ := fits
      have elements : ForwardAt limits config schema depth visited element [] := by
        cases marked with
        | some other =>
            cases chosen
            exact named element rfl
        | none =>
            cases chosen
            obtain ⟨kind, rfl⟩ := schema.kind_sequence type element described
            exact each element (.element kind element)
      simp only [Shape.codec, Codec.run_decode_stream]
      refine Buffer.forward_bind (Buffer.forward_limits (Buffer.forward_readLongLength _))
        fun count => ?_
      exact Buffer.forward_bind (Buffer.forward_repeated (elements (.element element)) count [])
        fun items => Buffer.forward_map some (Buffer.forward_lift _)
  | map key value =>
      obtain ⟨kind, rfl⟩ := schema.kind_map type key value fits
      have entry : Forward limits
          (Program.decodeEntry ((build schema config).answer depth visited) (Codec.keyPlace key)
            (Codec.valuePlace value)) := by
        refine Buffer.forward_bind (each key (.key kind key value) (.key key)) fun first => ?_
        exact Buffer.forward_bind (each value (.value kind key value) (.value value)) fun second =>
          Buffer.forward_pure _
      simp only [Shape.codec, Codec.run_decode_map]
      refine Buffer.forward_bind (Buffer.forward_limits (Buffer.forward_readLength _))
        fun count => ?_
      exact Buffer.forward_bind (Buffer.forward_repeated entry count [])
        fun entries => Buffer.forward_map some (Buffer.forward_lift _)
  | nested =>
      simp only [Shape.codec, Codec.run_decode_innerOption]
      exact Buffer.forward_map some (nested (.inner type))
  | aggregate description =>
      simp only [Shape.codec, Codec.run_decode_aggregate]
      exact Buffer.forward_map some (fields description fits)
  | custom format => exact absurd fits (legible.own format)

/-- A presence flag stands in front. -/
theorem forward_flagged (depth : Nat) (visited : List Ty) (flag : Bool) (codec : Codec)
    (below : Forward limits (codec.decode.run ((build schema config).answer depth visited))) :
    Forward limits
      ((codec.flagged flag).decode.run ((build schema config).answer depth visited)) := by
  cases flag with
  | false => exact below
  | true =>
      rw [Codec.run_decode_flagged]
      refine Buffer.forward_bind Buffer.forward_readBool fun given => ?_
      cases given with
      | true => exact below
      | false => exact Buffer.forward_pure none

/-- The arguments that mirror fields are read forward if each is. -/
theorem forward_decodeArguments {operation : Context → Buffer.Op Value} (owner : Ty)
    (constructor position : Nat) (fields : List Field)
    (each : ∀ field ∈ fields, ∀ site,
      Forward limits (operation (.ofPlace field.type field.markers site none))) :
    Forward limits
      (decodeArguments operation owner constructor position (fields.map Field.parameter)) := by
  induction fields generalizing position with
  | nil => exact Buffer.forward_pure _
  | cons field rest inductionHypothesis =>
      refine Buffer.forward_bind (Buffer.forward_inField _ _
        (each field List.mem_cons_self (.parameter owner constructor position))) fun argument => ?_
      exact Buffer.forward_bind (inductionHypothesis (position + 1) fun other later =>
        each other (List.mem_cons_of_mem _ later)) fun others => Buffer.forward_pure _

/-- The fields that are assigned are read forward if each is. -/
theorem forward_assignFields {operation : Context → Buffer.Op Value} (owner : Ty) (index : Nat)
    (fields : List Field) (value : Value)
    (each : ∀ field ∈ fields, ∀ site,
      Forward limits (operation (.ofPlace field.type field.markers site none))) :
    Forward limits (assignFields operation owner index fields value) := by
  induction fields generalizing index value with
  | nil => exact Buffer.forward_pure _
  | cons field rest inductionHypothesis =>
      refine Buffer.forward_bind (Buffer.forward_inField _ _ ?_) fun assigned =>
        inductionHypothesis (index + 1) assigned fun other later =>
          each other (List.mem_cons_of_mem _ later)
      exact Buffer.forward_bind (each field List.mem_cons_self (.field owner index)) fun decoded =>
        Buffer.forward_lift _

/-- An aggregate is rebuilt forward if its fields are read so, whichever way it is rebuilt. -/
theorem forward_rebuild {operation : Context → Buffer.Op Value} (type : Ty)
    (description : Aggregate) (described : schema.kind type = .aggregate description)
    (legible : schema.Legible type)
    (each : ∀ field ∈ description.fields, ∀ site,
      Forward limits (operation (.ofPlace field.type field.markers site none))) :
    Forward limits (rebuild operation type description) := by
  unfold rebuild
  split
  · next index constructor chosen =>
      rw [legible.mirrors description described index constructor chosen]
      exact Buffer.forward_bind
        (forward_decodeArguments limits type index 0 description.fields each) fun arguments =>
          Buffer.forward_lift _
  · exact forward_assignFields limits type 0 description.fields _ each
  · exact Buffer.forward_fail _

/-- Every place of a legible type is read forward, and so are the fields of an aggregate. The
    induction is on how deep requests may nest, for both together; a request that is
    nested too deep is refused whatever the bytes. -/
theorem forward_answer (depth : Nat) :
    (∀ visited declared markers, schema.Throughout schema.Legible declared →
      (∀ element, Marker.element? markers = some element →
        schema.Throughout schema.Legible element) →
      ForwardAt limits config schema depth visited declared markers) ∧
    ∀ visited type description, schema.kind type = .aggregate description →
      schema.Throughout schema.Legible type →
      Forward limits ((build schema config).answer depth visited (.decodeFields type description)
        : Buffer.Op Value) := by
  induction depth with
  | zero =>
      exact ⟨fun _ _ _ _ _ _ => Buffer.forward_fail _, fun _ _ _ _ _ => Buffer.forward_fail _⟩
  | succ depth inductionHypothesis =>
      obtain ⟨places, aggregates⟩ := inductionHypothesis
      constructor
      · intro visited declared markers legible named site
        have unmarked (part : Ty) (legiblePart : schema.Throughout schema.Legible part) :
            ForwardAt limits config schema depth visited part [] := by
          refine places visited part [] legiblePart ?_
          rintro element ⟨⟩
        rw [answer_decode_place]
        cases shaped : schema.shape declared.unwrapped (Marker.element? markers) with
        | error error => exact Buffer.forward_fail error
        | ok shape =>
            have below := forward_codec limits depth visited declared.unwrapped
              (Marker.element? markers) shape shaped legible.unwrapped.self
              (fun part contained => unmarked part (legible.unwrapped.part contained))
              (fun element given => unmarked element (named element given))
              (unmarked declared.unwrapped legible.unwrapped)
              (fun description described =>
                aggregates visited declared.unwrapped description described legible.unwrapped)
            rw [Step.lift_ok, LawfulMonad.pure_bind]
            exact Buffer.forward_bind (forward_flagged limits depth visited _ _ below) fun inner =>
              Buffer.forward_lift _
      · intro visited type description described legible
        simp only [answer]
        split
        · exact Buffer.forward_fail _
        · refine forward_rebuild limits type description described legible.self
            fun field listed => places (type :: visited) field.type field.markers
              (legible.part (.field type description described field listed)) ?_
          intro element named
          exact legible.part (.marked type description described field listed element
            (Marker.streamable_of_element? field.markers element named))

/-- A value of a legible type is taken off a buffer forward. -/
theorem forward_takingFrom (type : Ty) (legible : schema.Throughout schema.Legible type) :
    Forward limits ((build schema config).takingFrom type) := by
  have taken : Forward limits ((build schema config).taking type) := by
    refine (forward_answer limits _).1 [] type [] legible ?_ (.root type)
    rintro element ⟨⟩
  exact Buffer.forward_bind taken fun value => Buffer.forward_lift _

/-- Bytes that stand for a value do not if some are left out at the end, for then there are too
    few, nor if any are added, for those are left over. -/
theorem decoded_forward (type : Ty) (legible : schema.Throughout schema.Legible type)
    (bytes : Bytes) (value : Value)
    (accepted : (build schema config).decoded type bytes = .ok value) :
    (∀ shorter, shorter <+: bytes → shorter ≠ bytes → ∃ error,
      (build schema config).decoded type shorter = .error error ∧
        error.rootCause = .endOfBuffer) ∧
    ∀ more, more ≠ [] →
      (build schema config).decoded type (bytes ++ more) = .error (.extraData more.length) := by
  obtain ⟨after, taken, emptied⟩ := taken_of_decoded (build schema config) type bytes value accepted
  obtain ⟨front, rest, rfl, rfl, reads, lacks⟩ :=
    (forward_takingFrom config type legible).accepted _ _ _ taken
  obtain rfl : rest = [] := by simpa [Buffer.reader] using emptied
  rw [List.append_nil]
  refine ⟨fun shorter inside proper => ?_, fun more some => decoded_of_left (reads more) some⟩
  have short : shorter.length < front.length :=
    Nat.lt_of_le_of_ne inside.length_le fun same => proper (inside.eq_of_length same)
  obtain ⟨error, stopped, failed, cause⟩ :=
    Buffer.lacks_of_isPrefix lacks (inside.trans (List.prefix_append front [])) short
  exact ⟨error, decoded_of_failed failed, cause⟩

/-- Decoding reads from left to right and never looks ahead, whatever the limits of the buffer
    and whatever the serializer remembers. A value that is taken off the front is taken off
    whatever stands behind, and with fewer bytes than it is made of there are too few. What
    is refused for any other reason is refused for it with more bytes as well. So of the
    bytes that stand for a value none can be left out at the end, and none can be added. -/
theorem decodeFrom_forward (schema : Schema) (config limits : Config) (type : Ty)
    (legible : schema.Throughout schema.Legible type) (bytes : Bytes) (memory : Memory)
    (reached : (build schema config).Reached memory) :
    let serializer := build schema config
    (∀ value state,
      serializer.decodeFrom type (Buffer.reader bytes limits) memory = .ok value state →
      ∃ front rest, bytes = front ++ rest ∧ state.buffer = Buffer.reader rest limits ∧
        (∀ more other, serializer.Reached other → ∃ later,
          serializer.decodeFrom type (Buffer.reader (bytes ++ more) limits) other
              = .ok value later ∧
            later.buffer = Buffer.reader (rest ++ more) limits) ∧
        ∀ shorter other, shorter <+: bytes → shorter.length < front.length →
          serializer.Reached other → ∃ error later,
            serializer.decodeFrom type (Buffer.reader shorter limits) other
                = .error error later ∧
              error.rootCause = .endOfBuffer) ∧
    (∀ error state,
      serializer.decodeFrom type (Buffer.reader bytes limits) memory = .error error state →
      error.rootCause ≠ .endOfBuffer → ∀ more other, serializer.Reached other → ∃ later,
        serializer.decodeFrom type (Buffer.reader (bytes ++ more) limits) other
          = .error error later) ∧
    ∀ value later, serializer.decode type bytes memory = .ok value later →
      (∀ shorter other, shorter <+: bytes → shorter ≠ bytes → serializer.Reached other →
        ∃ error after, serializer.decode type shorter other = .error error after ∧
          error.rootCause = .endOfBuffer) ∧
      ∀ more other, more ≠ [] → serializer.Reached other → ∃ after,
        serializer.decode type (bytes ++ more) other = .error (.extraData more.length) after := by
  intro serializer
  have forward : Forward limits (serializer.takingFrom type) :=
    forward_takingFrom limits type legible
  refine ⟨fun value state succeeded => ?_, fun error state failed cause more other again => ?_,
    fun value later accepted => ?_⟩
  · obtain ⟨_, same⟩ := decodeFrom_of_reached schema config type _ memory reached
    obtain ⟨after, taken, rfl⟩ := Step.carry_eq_ok (same.symm.trans succeeded)
    obtain ⟨front, rest, rfl, rfl, reads, lacks⟩ := forward.accepted _ _ _ taken
    refine ⟨front, rest, rfl, rfl, fun more other again => ?_,
      fun shorter other inside short again => ?_⟩
    · obtain ⟨later, same⟩ := decodeFrom_of_reached schema config type
        (Buffer.reader (front ++ rest ++ more) limits) other again
      rw [List.append_assoc, reads] at same
      rw [List.append_assoc]
      exact ⟨_, same, rfl⟩
    · obtain ⟨error, stopped, failed, cause⟩ := Buffer.lacks_of_isPrefix lacks inside short
      obtain ⟨later, same⟩ := decodeFrom_of_reached schema config type
        (Buffer.reader shorter limits) other again
      rw [failed] at same
      exact ⟨error, _, same, cause⟩
  · obtain ⟨_, same⟩ := decodeFrom_of_reached schema config type _ memory reached
    obtain ⟨after, stopped, _⟩ := Step.carry_eq_error (same.symm.trans failed)
    obtain ⟨left, refused⟩ := forward.refused _ _ _ stopped cause more
    obtain ⟨later, same⟩ := decodeFrom_of_reached schema config type
      (Buffer.reader (bytes ++ more) limits) other again
    rw [refused] at same
    exact ⟨_, same⟩
  · obtain ⟨_, same⟩ := decode_of_reached schema config type bytes memory reached
    obtain ⟨fewer, further⟩ := decoded_forward type legible bytes value
      (Step.lift_eq_ok (same.symm.trans accepted))
    refine ⟨fun shorter other inside proper again => ?_, fun more other some again => ?_⟩
    · obtain ⟨error, failed, cause⟩ := fewer shorter inside proper
      obtain ⟨later, same⟩ := decode_of_reached schema config type shorter other again
      exact ⟨error, later, same.trans (congrArg (Step.lift · later) failed), cause⟩
    · obtain ⟨later, same⟩ := decode_of_reached schema config type (bytes ++ more) other again
      exact ⟨later, same.trans (congrArg (Step.lift · later) (further more some))⟩

/-- A plot is taken off the front of other bytes. Its first three bytes are too few to decode
    it, two more are too many, and an octet that is no flag is refused with its field,
    whatever follows. -/
theorem decodeFrom_forward_plot :
    groves.Throughout groves.Legible (.named "Plot") ∧
      (build groves {}).Reached (build groves {}).start ∧
      (∃ value later, (build groves {}).decodeFrom (.named "Plot")
        (Buffer.reader [0, 0, 0, 3, 0, 7, 7]) (build groves {}).start = .ok value later) ∧
      (∃ error later, (build groves {}).decode (.named "Plot") [0, 0, 0]
        (build groves {}).start = .error error later ∧ error.rootCause = .endOfBuffer) ∧
      (∃ later, (build groves {}).decode (.named "Plot") [0, 0, 0, 3, 0, 7, 7]
        (build groves {}).start = .error (.extraData 2) later) ∧
      ∃ later, (build groves {}).decodeFrom (.named "Plot")
          (Buffer.reader [0, 0, 0, 3, 2, 7, 7]) (build groves {}).start
        = .error (.field "Plot" "owner" .invalidBool) later := by
  have legible : groves.Throughout groves.Legible (.named "Plot") :=
    (groves_invertible _ (by decide)).mono fun _ both => both.1.legible
  have fresh : (build groves {}).Reached (build groves {}).start := .start
  obtain ⟨plot, state, taken⟩ := Step.exists_of_succeeded (show Step.succeeded
    ((build groves {}).decodeFrom (.named "Plot") (Buffer.reader [0, 0, 0, 3, 0])
      (build groves {}).start) = true by decide +kernel)
  obtain ⟨value, later, accepted⟩ := Step.exists_of_succeeded (show Step.succeeded
    ((build groves {}).decode (.named "Plot") [0, 0, 0, 3, 0] (build groves {}).start) = true by
      decide +kernel)
  obtain ⟨stopped, refused⟩ := Step.exists_of_failure? (show Step.failure?
    ((build groves {}).decodeFrom (.named "Plot") (Buffer.reader [0, 0, 0, 3, 2])
      (build groves {}).start) = some (.field "Plot" "owner" .invalidBool) by decide +kernel)
  obtain ⟨success, _, complete⟩ := decodeFrom_forward groves {} {} (.named "Plot") legible
    [0, 0, 0, 3, 0] _ fresh
  obtain ⟨_, _, _, _, extended, _⟩ := success plot state taken
  obtain ⟨left, again, _⟩ := extended [7, 7] _ fresh
  obtain ⟨shorter, longer⟩ := complete value later accepted
  obtain ⟨_, refusal, _⟩ := decodeFrom_forward groves {} {} (.named "Plot") legible
    [0, 0, 0, 3, 2] _ fresh
  exact ⟨legible, fresh, ⟨plot, left, again⟩, shorter [0, 0, 0] _ (by decide) (by decide) fresh,
    longer [7, 7] _ (by decide) fresh, refusal _ stopped refused (by decide) [7, 7] _ fresh⟩

end Serializer

end Wireform
