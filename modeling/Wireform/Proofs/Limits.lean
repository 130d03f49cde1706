import Wireform.Proofs.Survey

/-!
# Limits decide what is accepted, and nothing else

Decoding with limits is compared with decoding without any, over the same bytes. The survey
stands between the two: it is the unlimited run, and it knows the lengths that have been met.
If the limits admit all of them, both runs come out alike, down to the bytes that are
left and the path of a failure. If they do not, the limited run fails at the first one that is not
admitted. Ranges may be empty or have any ends; nothing is asked of them.

The types are those whose requests go by their descriptions. A custom format may look its
limits up and do as it likes with them, so it is left out.
-/

namespace Wireform

namespace Serializer

variable {schema : Schema} {config : Config} (limits : Config)

/-- What is read at a place with markers is filtered. -/
def FiltersAt (config : Config) (schema : Schema) (depth : Nat) (visited : List Ty)
    (declared : Ty) (markers : List Marker) : Prop :=
  ∀ site,
    let context := Context.ofPlace declared markers site none
    Filters limits (schema.survey depth visited (.place context))
      ((build schema config).answer depth visited (.decode context) : Buffer.Op Value)

/-- The codec of a shape is filtered, if the requests that it makes are. -/
theorem filters_codec (depth : Nat) (visited : List Ty) (type : Ty) (marked : Option Ty)
    (shape : Shape) (shaped : schema.shape type marked = .ok shape) (legible : schema.Legible type)
    (each : ∀ part, schema.Part type part → FiltersAt limits config schema depth visited part [])
    (named : ∀ element, marked = some element →
      FiltersAt limits config schema depth visited element [])
    (nested : FiltersAt limits config schema depth visited type [])
    (fields : ∀ description, schema.kind type = .aggregate description →
      Filters limits (schema.survey depth visited (.inside type description))
        ((build schema config).answer depth visited (.decodeFields type description)
          : Buffer.Op Value)) :
    Filters limits (some <$> shape.survey schema type (schema.survey depth visited))
      ((shape.codec schema type).decode.run ((build schema config).answer depth visited)) := by
  have fits := schema.fits_of_shape type marked shape shaped
  cases shape with
  | leaf plain =>
      simp only [Shape.codec, Codec.run_decode_leaf]
      exact Filters.map some (Filters.bind (plain.filters_read limits) fun _ => .pure _)
  | octets =>
      simp only [Shape.codec, Codec.run_decode_octetVector]
      exact Filters.map some (Filters.bind Filters.octets fun _ => .pure _)
  | enumeration names =>
      simp only [Shape.codec, Codec.run_decode_enumeration]
      exact Filters.map some (Enumeration.filters_read schema limits type names _)
  | sequence element =>
      obtain ⟨-, declared, described, chosen⟩ := fits
      have elements : FiltersAt limits config schema depth visited element [] := by
        cases marked with
        | some other =>
            cases chosen
            exact named element rfl
        | none =>
            cases chosen
            obtain ⟨kind, rfl⟩ := schema.kind_sequence type element described
            exact each element (.element kind element)
      simp only [Shape.codec, Codec.run_decode_stream, Shape.survey, map_bind]
      refine Filters.bind (Filters.length .collection 8) fun count => ?_
      exact Filters.bind (Filters.repeated (elements (.element element)) count []) fun items =>
        Filters.map some (.lift _)
  | map key value =>
      obtain ⟨kind, rfl⟩ := schema.kind_map type key value fits
      have entry : Filters limits
          (do
            let first ← schema.survey depth visited (.place (Codec.keyPlace key))
            let second ← schema.survey depth visited (.place (Codec.valuePlace value))
            return (first, second))
          (Program.decodeEntry ((build schema config).answer depth visited) (Codec.keyPlace key)
            (Codec.valuePlace value)) := by
        refine Filters.bind (each key (.key kind key value) (.key key)) fun first => ?_
        exact Filters.bind (each value (.value kind key value) (.value value)) fun second => .pure _
      simp only [Shape.codec, Codec.run_decode_map, Shape.survey, map_bind]
      refine Filters.bind (Filters.length .collection 4) fun count => ?_
      exact Filters.bind (Filters.repeated entry count []) fun entries => Filters.map some (.lift _)
  | nested =>
      simp only [Shape.codec, Codec.run_decode_innerOption]
      exact Filters.map some (nested (.inner type))
  | aggregate description =>
      simp only [Shape.codec, Codec.run_decode_aggregate]
      exact Filters.map some (fields description fits)
  | custom format => exact absurd fits (legible.own format)

/-- The arguments that mirror fields are filtered if each is. -/
theorem filters_decodeArguments {step : Context → Step Meter Value}
    {operation : Context → Buffer.Op Value} (owner : Ty) (constructor position : Nat)
    (fields : List Field)
    (each : ∀ field ∈ fields, ∀ site,
      let context := Context.ofPlace field.type field.markers site none
      Filters limits (step context) (operation context)) :
    Filters limits
      (decodeArguments step owner constructor position (fields.map Field.parameter))
      (decodeArguments operation owner constructor position (fields.map Field.parameter)) := by
  induction fields generalizing position with
  | nil => exact .pure _
  | cons field rest inductionHypothesis =>
      refine Filters.bind (Filters.inField _ _
        (each field List.mem_cons_self (.parameter owner constructor position))) fun argument => ?_
      exact Filters.bind (inductionHypothesis (position + 1) fun other later =>
        each other (List.mem_cons_of_mem _ later)) fun others => .pure _

/-- The fields that are assigned are filtered if each is. -/
theorem filters_assignFields {step : Context → Step Meter Value}
    {operation : Context → Buffer.Op Value} (owner : Ty) (index : Nat) (fields : List Field)
    (value : Value)
    (each : ∀ field ∈ fields, ∀ site,
      let context := Context.ofPlace field.type field.markers site none
      Filters limits (step context) (operation context)) :
    Filters limits (assignFields step owner index fields value)
      (assignFields operation owner index fields value) := by
  induction fields generalizing index value with
  | nil => exact .pure _
  | cons field rest inductionHypothesis =>
      refine Filters.bind (Filters.inField _ _ ?_) fun assigned =>
        inductionHypothesis (index + 1) assigned fun other later =>
          each other (List.mem_cons_of_mem _ later)
      exact Filters.bind (each field List.mem_cons_self (.field owner index)) fun decoded =>
        .lift _

/-- An aggregate is filtered if its fields are, whichever way it is rebuilt. -/
theorem filters_rebuild {step : Context → Step Meter Value}
    {operation : Context → Buffer.Op Value} (type : Ty) (description : Aggregate)
    (described : schema.kind type = .aggregate description) (legible : schema.Legible type)
    (each : ∀ field ∈ description.fields, ∀ site,
      let context := Context.ofPlace field.type field.markers site none
      Filters limits (step context) (operation context)) :
    Filters limits (rebuild step type description) (rebuild operation type description) := by
  unfold rebuild
  cases chosen : description.strategy with
  | construct index constructor =>
      simp only [legible.mirrors description described index constructor chosen]
      exact Filters.bind (filters_decodeArguments limits type index 0 description.fields each)
        fun arguments => .lift _
  | assign initial => exact filters_assignFields limits type 0 description.fields initial each
  | unavailable => exact .fail _

/-- Every place of a legible type is filtered, and so are the fields of an aggregate. The
    induction is on how deep requests may nest, for both together. -/
theorem filters_answer (depth : Nat) :
    (∀ visited declared markers, schema.Throughout schema.Legible declared →
      (∀ element, Marker.element? markers = some element →
        schema.Throughout schema.Legible element) →
      FiltersAt limits config schema depth visited declared markers) ∧
    ∀ visited type description, schema.kind type = .aggregate description →
      schema.Throughout schema.Legible type →
      Filters limits (schema.survey depth visited (.inside type description))
        ((build schema config).answer depth visited (.decodeFields type description)
          : Buffer.Op Value) := by
  induction depth with
  | zero => exact ⟨fun _ _ _ _ _ _ => .fail _, fun _ _ _ _ _ => .fail _⟩
  | succ depth inductionHypothesis =>
      obtain ⟨places, aggregates⟩ := inductionHypothesis
      constructor
      · intro visited declared markers legible named site
        have unmarked (part : Ty) (legiblePart : schema.Throughout schema.Legible part) :
            FiltersAt limits config schema depth visited part [] := by
          refine places visited part [] legiblePart ?_
          rintro element ⟨⟩
        have element : (Context.ofPlace declared markers site none).streamableElement
            = Marker.element? markers := Context.streamableElement_make declared markers
        simp only [answer_decode, Schema.survey, element]
        cases shaped : schema.shape (Context.ofPlace declared markers site none).unwrapped
            (Marker.element? markers) with
        | error error => exact .fail error
        | ok shape =>
            have below := filters_codec limits depth visited declared.unwrapped
              (Marker.element? markers) shape shaped legible.unwrapped.self
              (fun part contained => unmarked part (legible.unwrapped.part contained))
              (fun element given => unmarked element (named element given))
              (unmarked declared.unwrapped legible.unwrapped)
              (fun description described =>
                aggregates visited declared.unwrapped description described legible.unwrapped)
            simp only [Step.lift_ok, LawfulMonad.pure_bind]
            exact Filters.bind (Filters.flagged _ below) fun inner => .lift _
      · intro visited type description described legible
        simp only [answer, Schema.survey]
        split
        · exact .fail _
        · refine filters_rebuild limits type description described legible.self
            fun field listed => places (type :: visited) field.type field.markers
              (legible.part (.field type description described field listed)) ?_
          intro element named
          exact legible.part (.marked type description described field listed element
            (Marker.streamable_of_element? field.markers element named))

/-- The value of a legible type is filtered by the lengths that are met on the way to it. -/
theorem filters_takingFrom (type : Ty) (legible : schema.Throughout schema.Legible type) :
    let context := root type none
    Filters limits
      (do
        let value ← schema.survey (schema.depth context) [] (.place context)
        Step.lift (value.expect type))
      ((build schema config).takingFrom type) := by
  intro context
  have taken : Filters limits (schema.survey (schema.depth context) [] (.place context))
      ((build schema config).taking type) := by
    refine (filters_answer limits _).1 [] type [] legible ?_ (.root type)
    rintro element ⟨⟩
  exact Filters.bind taken fun value => .lift _

/-- Decoding ends as the survey does if its limits admit all that is met. -/
theorem decodeFrom_eq_surveyed (schema : Schema) (limits : Config) (type : Ty)
    (legible : schema.Throughout schema.Legible type) (bytes : Bytes) (memory : Memory)
    (reached : (build schema limits).Reached memory)
    (none : Length.refused? limits (schema.lengthsMet type bytes) = none) :
    Step.carry (fun state : Walk.State => state.buffer.bytes)
        ((build schema limits).decodeFrom type (Buffer.reader bytes limits) memory)
      = Step.carry Meter.unread (schema.surveyed type bytes) := by
  obtain ⟨later, taken⟩ := decodeFrom_of_reached schema limits type
    (Buffer.reader bytes limits) memory reached
  have filters : Filters limits _ ((build schema limits).takingFrom type) :=
    filters_takingFrom limits type legible
  have same := filters.passes { unread := bytes } _ (List.nil_append _).symm none
  rw [taken, same, Step.carry_carry, Step.carry_carry]
  rfl

/-- Decoding fails at the first length that is met and not admitted. -/
theorem decodeFrom_refuses (schema : Schema) (limits : Config) (type : Ty)
    (legible : schema.Throughout schema.Legible type) (bytes : Bytes) (memory : Memory)
    (reached : (build schema limits).Reached memory) (length : Length)
    (refused : Length.refused? limits (schema.lengthsMet type bytes) = some length) :
    ∃ error state,
      (build schema limits).decodeFrom type (Buffer.reader bytes limits) memory
          = .error error state ∧
        error.rootCause = .lengthExceeded length.number := by
  obtain ⟨later, taken⟩ := decodeFrom_of_reached schema limits type
    (Buffer.reader bytes limits) memory reached
  have filters : Filters limits _ ((build schema limits).takingFrom type) :=
    filters_takingFrom limits type legible
  obtain ⟨error, stopped, failed, cause⟩ :=
    filters.refuses { unread := bytes } _ length (List.nil_append _).symm refused
  rw [failed] at taken
  exact ⟨error, _, taken, cause⟩

/-- Two ends of steps that look alike are both successes or both failures. -/
theorem ok_of_carry_eq {σ τ υ α : Type} {view : σ → υ} {other : τ → υ}
    {first : EStateM.Result Error σ α} {second : EStateM.Result Error τ α}
    (same : Step.carry view first = Step.carry other second)
    (ok : ∃ result state, first = .ok result state) :
    ∃ result state, second = .ok result state := by
  obtain ⟨result, state, rfl⟩ := ok
  obtain ⟨after, succeeded, _⟩ := Step.carry_eq_ok same.symm
  exact ⟨result, after, succeeded⟩

/-- Limits are a pure filter. Decoding without limits is the survey of the bytes. With limits, it
    fails with the first length or count that has been met and that the range for its kind
    does not admit; if there is none, it ends as without limits, with the same value or
    failure and the same bytes left. So it succeeds exactly if it does without limits and
    everything that is met is admitted. -/
theorem limits_filter (schema : Schema) (limits : Config) (remembers : Bool) (type : Ty)
    (legible : schema.Throughout schema.Legible type) (bytes : Bytes) (memory other : Memory)
    (reached : (build schema limits).Reached memory)
    (reachedOther : (build schema { cacheCodecs := remembers }).Reached other) :
    let limited := build schema limits
    let unlimited := build schema { cacheCodecs := remembers }
    let filtered := limited.decodeFrom type (limited.reader bytes) memory
    let whole := unlimited.decodeFrom type (unlimited.reader bytes) other
    let unread := fun state : Walk.State => state.buffer.bytes
    Step.carry unread whole = Step.carry Meter.unread (schema.surveyed type bytes) ∧
      (∀ length, Length.refused? limits (schema.lengthsMet type bytes) = some length →
        ∃ error state, filtered = .error error state ∧
          error.rootCause = .lengthExceeded length.number) ∧
      (Length.refused? limits (schema.lengthsMet type bytes) = none →
        Step.carry unread filtered = Step.carry unread whole) ∧
      ((∃ value state, filtered = .ok value state) ↔
        (∃ value state, whole = .ok value state) ∧
          ∀ length ∈ schema.lengthsMet type bytes, length.admitted limits = true) := by
  intro limited unlimited filtered whole unread
  have whole_eq : Step.carry unread whole = Step.carry Meter.unread (schema.surveyed type bytes) :=
    decodeFrom_eq_surveyed schema { cacheCodecs := remembers } type legible bytes other reachedOther
      (Length.refused?_unlimited remembers _)
  have refuses := decodeFrom_refuses schema limits type legible bytes memory reached
  have passes (none : Length.refused? limits (schema.lengthsMet type bytes) = none) :
      Step.carry unread filtered = Step.carry unread whole :=
    (decodeFrom_eq_surveyed schema limits type legible bytes memory reached none).trans
      whole_eq.symm
  refine ⟨whole_eq, refuses, passes, fun ok => ?_, fun ⟨ok, admitted⟩ => ?_⟩
  · cases found : Length.refused? limits (schema.lengthsMet type bytes) with
    | none => exact ⟨ok_of_carry_eq (passes found) ok, Length.refused?_eq_none.mp found⟩
    | some length =>
        obtain ⟨value, state, succeeded⟩ := ok
        obtain ⟨error, stopped, failed, _⟩ := refuses length found
        cases succeeded.symm.trans failed
  · exact ok_of_carry_eq (passes (Length.refused?_eq_none.mpr admitted)).symm ok

/-- A plot with an owner of three letters is refused for that length by limits that admit two, and
    is decoded by limits that admit three, even if they admit no collection at all. -/
theorem limits_filter_plot :
    let plot : Bytes := [0, 0, 0, 7, 1, 0, 0, 0, 3, 97, 110, 110]
    let narrow : Config := { stringLengths := .upTo 2 }
    let wide : Config :=
      { stringLengths := .upTo 3, collectionLengths := .ofBounds (.excluded 0) (.excluded 0) }
    groves.Throughout groves.Legible (.named "Plot") ∧
      (build groves narrow).Reached (build groves narrow).start ∧
      (build groves wide).Reached (build groves wide).start ∧
      (build groves {}).Reached (build groves {}).start ∧
      (∃ error state, (build groves narrow).decodeFrom (.named "Plot")
          ((build groves narrow).reader plot) (build groves narrow).start = .error error state ∧
        error.rootCause = .lengthExceeded 3) ∧
      ∃ value state, (build groves wide).decodeFrom (.named "Plot")
        ((build groves wide).reader plot) (build groves wide).start = .ok value state := by
  intro plot narrow wide
  have legible : groves.Throughout groves.Legible (.named "Plot") :=
    (groves_invertible _ (by decide)).mono fun _ both => both.1.legible
  have met : groves.lengthsMet (.named "Plot") plot = [⟨.text, 3⟩] := by decide +kernel
  obtain ⟨-, refuses, -, -⟩ := limits_filter groves narrow true (.named "Plot") legible plot
    _ _ .start .start
  obtain ⟨-, -, -, succeeds⟩ := limits_filter groves wide true (.named "Plot") legible plot
    _ _ .start .start
  refine ⟨legible, .start, .start, .start, refuses ⟨.text, 3⟩ (by rw [met]; decide), ?_⟩
  refine succeeds.mpr ⟨Step.exists_of_succeeded (by decide +kernel), ?_⟩
  rw [met]
  decide

end Serializer

end Wireform
