import Wireform.Proofs.Candour

/-!
# Failures and the way to them

Requests are traced as they are answered, wherever a way leads. So a call that fails does so
at the end of a way from its root, and what it reports is the cause with the names of the
fields on that way around it. A call from outside adds nothing but its own last look at the
buffer: a writer can always hand over what it holds, and a reader may have bytes left.

What a constructor reports is passed on as it is. It may have named fields itself, and then the names
on the way are not all that the path tells.
-/

namespace Wireform

variable {α : Type}

/-! ## Answers -/

namespace Serializer

variable {schema : Schema}

/-- Where no codec is found, the cause is bare. -/
theorem bareIn_freshCodec (config : Config) (context : Context) :
    Error.BareIn ((build schema config).freshCodec context) := by
  rw [freshCodec_build]
  exact Error.bareIn_map _ (schema.bareIn_shape _ _)

section Aggregates

variable {way : Way} (owner : Ty) {names : List String}

/-- Fields are encoded one after another inside of the aggregate. -/
theorem traces_encodeFields {step : Context → Step Scene Unit}
    {operation : Context → Buffer.Op Unit}
    (there : ∀ name ∈ names, Way.Leads schema (.field owner name :: .entered owner :: way))
    (each : ∀ name ∈ names, ∀ context,
      Traces schema (.field owner name :: .entered owner :: way) (step context)
        (operation context))
    (value : Value) (index : Nat) (fields : List Field)
    (parts : ∀ field ∈ fields, field.name ∈ names) :
    Traces schema (.entered owner :: way) (Scene.encodeFields step owner value index fields)
      (encodeFields operation owner value index fields) := by
  induction fields generalizing index with
  | nil => exact .pure ()
  | cons field rest inductionHypothesis =>
      obtain ⟨part, others⟩ := List.forall_mem_cons.mp parts
      refine Traces.bind (Traces.field owner field.name ?_) fun _ =>
        inductionHypothesis (index + 1) others
      exact Traces.bind (.lift (there field.name part) (field.bareIn_get owner value))
        fun child => each field.name part _

/-- Arguments are decoded one after another inside of the aggregate. -/
theorem traces_decodeArguments {step : Context → Step Scene Value}
    {operation : Context → Buffer.Op Value}
    (each : ∀ name ∈ names, ∀ context,
      Traces schema (.field owner name :: .entered owner :: way) (step context)
        (operation context))
    (constructor position : Nat) (parameters : List Parameter)
    (parts : ∀ parameter ∈ parameters, parameter.name ∈ names) :
    Traces schema (.entered owner :: way)
      (Scene.decodeArguments step owner constructor position parameters)
      (decodeArguments operation owner constructor position parameters) := by
  induction parameters generalizing position with
  | nil => exact .pure []
  | cons parameter rest inductionHypothesis =>
      obtain ⟨part, others⟩ := List.forall_mem_cons.mp parts
      exact Traces.bind (Traces.field owner parameter.name (each parameter.name part _))
        fun argument => (inductionHypothesis (position + 1) others).bind fun others =>
          .pure (argument :: others)

/-- Fields are decoded and assigned one after another inside of the aggregate. -/
theorem traces_assignFields {step : Context → Step Scene Value}
    {operation : Context → Buffer.Op Value}
    (there : ∀ name ∈ names, Way.Leads schema (.field owner name :: .entered owner :: way))
    (each : ∀ name ∈ names, ∀ context,
      Traces schema (.field owner name :: .entered owner :: way) (step context)
        (operation context))
    (index : Nat) (fields : List Field) (parts : ∀ field ∈ fields, field.name ∈ names)
    (value : Value) :
    Traces schema (.entered owner :: way) (Scene.assignFields step owner index fields value)
      (assignFields operation owner index fields value) := by
  induction fields generalizing index value with
  | nil => exact .pure value
  | cons field rest inductionHypothesis =>
      obtain ⟨part, others⟩ := List.forall_mem_cons.mp parts
      refine Traces.bind (Traces.field owner field.name ?_) fun assigned =>
        inductionHypothesis (index + 1) others assigned
      exact Traces.bind (each field.name part _) fun decoded =>
        .lift (there field.name part) (field.bareIn_set owner decoded value)

/-- An aggregate is rebuilt by its strategy. What its constructor fails for is raised where it is
    put together, and so is that there is no way to do that. -/
theorem traces_rebuild {step : Context → Step Scene Value}
    {operation : Context → Buffer.Op Value} (description : Aggregate)
    (described : schema.kind owner = .aggregate description) (leads : way.Leads schema)
    (new : owner ∉ way.aggregates)
    (each : ∀ name ∈ description.partNames, ∀ context,
      Traces schema (.field owner name :: .entered owner :: way) (step context)
        (operation context)) :
    Traces schema (.entered owner :: way) (Scene.rebuild step owner description)
      (rebuild operation owner description) := by
  unfold Scene.rebuild rebuild
  cases chosen : description.strategy with
  | construct index constructor =>
      have parts : ∀ parameter ∈ constructor.parameters,
          parameter.name ∈ description.partNames := by
        intro parameter listed
        unfold Aggregate.partNames
        rw [chosen]
        exact List.mem_append_right _ (List.mem_map_of_mem listed)
      refine (traces_decodeArguments owner each index 0 constructor.parameters parts).bind
        fun arguments => Traces.rebuilt owner ?_
      cases built : constructor.build arguments with
      | ok value => exact .pure value
      | error cause =>
          exact .fail (.rejected way owner description index constructor arguments cause leads
            described chosen built)
  | assign initial =>
      exact traces_assignFields owner
        (fun name part => .field owner description name way leads new described part) each 0
        description.fields
        (fun field listed => List.mem_append_left _ (List.mem_map_of_mem listed)) initial
  | unavailable =>
      exact Traces.rebuilt owner
        (.fail (.unavailable way owner description leads described chosen))

end Aggregates

/-- Wherever a way leads, requests are traced as they are answered. The induction is on how deep
    they may nest; each place, and each field with the aggregate it is of, makes the way longer. -/
theorem traced_answer (config : Config)
    (formats : ∀ type format, schema.kind type = .custom format → format.Bare) (depth : Nat)
    (way : Way) (leads : way.Leads schema) :
    let serializer := build schema config
    Request.Traced schema way (serializer.traced depth)
      (serializer.answer depth way.aggregates) := by
  intro serializer
  induction depth generalizing way with
  | zero =>
      refine ⟨fun _ => rfl, fun _ _ => rfl, answer_look _ _ _, answer_replace _ _ _,
        fun request other ordinary => ?_⟩
      cases request with
      | look => cases other
      | replace buffer => cases other
      | path => exact Traces.pure (way.aggregates.reverse.map Ty.name)
      | _ => exact Traces.fail (.bare way _ leads trivial)
  | succ depth inductionHypothesis =>
      refine ⟨fun _ => rfl, fun _ _ => rfl, answer_look _ _ _, answer_replace _ _ _,
        fun request other ordinary => ?_⟩
      cases request with
      | look => cases other
      | replace buffer => cases other
      | path => exact Traces.pure (way.aggregates.reverse.map Ty.name)
      | encodeResolved context value => exact ordinary.elim
      | decodeResolved context => exact ordinary.elim
      | encode context =>
          have there : Way.Leads schema (.place context :: way) := .place context way leads
          have below := inductionHypothesis _ there
          cases holds : context.value with
          | none =>
              simp only [traced, answer, holds]
              exact Traces.place context
                (.fail (.bare _ (.unexpectedNull context.declared.name) there trivial))
          | some value =>
              simp only [traced, answer, holds]
              refine Traces.place context ?_
              refine Traces.bind_lift there (bareIn_freshCodec config context) fun codec made =>
                Traces.bind (.lift there (Context.bareIn_projectThrough _ value)) fun inner => ?_
              exact (candid_freshCodec formats config context codec made).encode inner _ _ _ there
                below
      | decode context =>
          have there : Way.Leads schema (.place context :: way) := .place context way leads
          have below := inductionHypothesis _ there
          refine Traces.place context (Traces.bind_lift there (bareIn_freshCodec config context)
            fun codec made => Traces.bind ?_ fun inner =>
              .lift there (context.bareIn_rewrap inner))
          exact (candid_freshCodec formats config context codec made).decode _ _ _ there below
      | encodeFields type description value =>
          refine Traces.enter type leads fun new => ?_
          have there (name : String) (part : name ∈ description.partNames) :
              Way.Leads schema (.field type name :: .entered type :: way) :=
            .field type description name way leads new ordinary part
          exact traces_encodeFields type there
            (fun name part context => (inductionHypothesis _ (there name part)).others
              (.encode context) rfl trivial)
            value 0 description.fields
            fun field listed => List.mem_append_left _ (List.mem_map_of_mem listed)
      | decodeFields type description =>
          refine Traces.enter type leads fun new => ?_
          refine traces_rebuild type description ordinary leads new fun name part context => ?_
          have there : Way.Leads schema (.field type name :: .entered type :: way) :=
            .field type description name way leads new ordinary part
          exact (inductionHypothesis _ there).others (.decode context) rfl trivial

/-- Appends a value and notes the way. -/
def appendingAlong (serializer : Serializer) (value : Value) : Step Scene Unit :=
  let context := root value.type (some value)
  serializer.traced (serializer.nesting context) (.encode context)

/-- Takes a value of a type off and notes the way. -/
def takingAlong (serializer : Serializer) (type : Ty) : Step Scene Value := do
  let context := root type none
  let value : Value ← serializer.traced (serializer.nesting context) (.decode context)
  Step.lift (value.expect type)

section

variable (config : Config)
  (formats : ∀ type format, schema.kind type = .custom format → format.Bare)

include formats

/-- A value is appended along the way. -/
theorem traces_appending (value : Value) :
    Traces schema [] ((build schema config).appendingAlong value)
      ((build schema config).appending value) :=
  (traced_answer config formats _ [] .root).others (.encode _) rfl trivial

/-- A value is taken off along the way. -/
theorem traces_taking (type : Ty) :
    Traces schema [] ((build schema config).takingAlong type)
      ((build schema config).takingFrom type) :=
  Traces.bind ((traced_answer config formats _ [] .root).others (.decode _) rfl trivial)
    fun value => .lift .root (value.bareIn_expect type)

end

end Serializer

/-! ## Failures -/

/-- The failure tells the way to its cause. -/
structure Way.Tells (schema : Schema) (way : Way) (cause error : Error) : Prop where
  raises : way.Raises schema cause
  /-- There is one name around the cause for each field on the way. -/
  chain : error = cause.within way.fields
  path : error.path = (way.fields.map Prod.snd).reverse ++ cause.path
  /-- The fields are of the aggregates that are being walked around what the failure is about. -/
  owners : error.owners = (way.outside.aggregates.map Ty.name).reverse ++ cause.owners
  rootCause : error.rootCause = cause.rootCause
  /-- Only what a constructor reports may name fields by itself. -/
  plain : (cause.path = [] ∧ cause.owners = [] ∧ cause.rootCause = cause) ∨
    ∃ type rest, way = .rebuilt type :: rest

namespace Way

variable {schema : Schema}

/-- Only what a constructor reports may name fields by itself. -/
theorem Raises.plain {way : Way} {cause : Error} (raises : way.Raises schema cause) :
    (cause.path = [] ∧ cause.owners = [] ∧ cause.rootCause = cause) ∨
      ∃ type rest, way = .rebuilt type :: rest := by
  cases raises with
  | bare _ _ _ bare => exact .inl ⟨bare.path_eq, bare.owners_eq, bare.rootCause_eq⟩
  | circular => exact .inl ⟨rfl, rfl, rfl⟩
  | unavailable => exact .inl ⟨rfl, rfl, rfl⟩
  | rejected => exact .inr ⟨_, _, rfl⟩

/-- A cause within the fields on the way to it tells the way. -/
theorem Raises.tells {way : Way} {cause : Error} (raises : way.Raises schema cause) :
    way.Tells schema cause (cause.within way.fields) := by
  obtain ⟨leads, fields⟩ := raises.outside
  refine ⟨raises, rfl, cause.path_within _, ?_, cause.rootCause_within _, raises.plain⟩
  rw [Error.owners_within, fields, ← leads.owners, List.map_map]

end Way

/-- What is traced from the root fails along a way and tells it. -/
theorem Traces.tells {schema : Schema} {step : Step Scene α} {operation : Buffer.Op α}
    (traces : Traces schema [] step operation) {buffer after : Buffer} {error : Error}
    (failed : operation buffer = .error error after) :
    ∃ cause way, step ⟨buffer, []⟩ = .error cause ⟨after, way⟩ ∧ way.Tells schema cause error := by
  have ends := traces buffer
  rw [failed] at ends
  generalize step ⟨buffer, []⟩ = traced at ends ⊢
  cases ends with
  | error cause _ further raises =>
      rw [List.append_nil] at raises ⊢
      exact ⟨cause, further, rfl, raises.tells⟩

/-- What is traced from the root leaves the mode of the buffer as it is. -/
theorem Traces.mode_eq {schema : Schema} {way : Way} {step : Step Scene α}
    {operation : Buffer.Op α} (traces : Traces schema way step operation) {buffer after : Buffer}
    {result : α} (succeeded : operation buffer = .ok result after) :
    after.mode = buffer.mode := by
  have ends := traces buffer
  rw [succeeded] at ends
  generalize step ⟨buffer, way⟩ = traced at ends
  cases ends with
  | ok _ _ kept => exact kept

namespace Serializer

variable (schema : Schema) (config : Config)

section

variable {schema config}
  (formats : ∀ type format, schema.kind type = .custom format → format.Bare) {memory : Memory}
  (reached : (build schema config).Reached memory)

include formats reached

/-- That a value cannot be appended tells the way to the cause. -/
theorem encodeInto_tells {value : Value} {buffer : Buffer} {error : Error} {after : Walk.State}
    (failed : (build schema config).encodeInto value buffer memory = .error error after) :
    ∃ cause way,
      (build schema config).appendingAlong value ⟨buffer, []⟩ = .error cause ⟨after.buffer, way⟩ ∧
        way.Tells schema cause error := by
  obtain ⟨_, _, same⟩ := encodeInto_eq_appending (builtin_static schema config)
    (builtin_makes schema config) value buffer
    (coherent_of_reached (builtin_static schema config) (builtin_makes schema config) memory
      reached)
  rw [same] at failed
  obtain ⟨left, appending, rfl⟩ := Step.carry_eq_error failed
  exact (traces_appending config formats value).tells appending

/-- That a value cannot be encoded tells the way to the cause. A writer stays a writer, and whatever
    it holds can be handed over, so that this cannot fail on top of it. -/
theorem encode_tells {value : Value} {error : Error} {later : Memory}
    (failed : (build schema config).encode value memory = .error error later) :
    ∃ cause scene,
      (build schema config).appendingAlong value ⟨(build schema config).writer, []⟩
          = .error cause scene ∧ scene.way.Tells schema cause error := by
  obtain ⟨_, same⟩ := encode_of_reached schema config value memory reached
  have encodes : closed (fun _ after => after.finish)
      ((build schema config).appending value (build schema config).writer) = .error error :=
    Step.lift_eq_error (same.symm.trans failed)
  cases ended : (build schema config).appending value (build schema config).writer with
  | ok done after =>
      have writes : after.mode = .write := (traces_appending config formats value).mode_eq ended
      rw [ended] at encodes
      obtain ⟨contents, limits⟩ := after
      cases contents with
      | written reversed => cases encodes
      | unread rest => cases writes
  | error cause after =>
      rw [ended] at encodes
      cases encodes
      obtain ⟨raised, way, along, tells⟩ := (traces_appending config formats value).tells ended
      exact ⟨raised, _, along, tells⟩

/-- That a value cannot be taken off a buffer tells the way to the cause. -/
theorem decodeFrom_tells {type : Ty} {buffer : Buffer} {error : Error} {after : Walk.State}
    (failed : (build schema config).decodeFrom type buffer memory = .error error after) :
    ∃ cause way,
      (build schema config).takingAlong type ⟨buffer, []⟩ = .error cause ⟨after.buffer, way⟩ ∧
        way.Tells schema cause error := by
  obtain ⟨_, same⟩ := decodeFrom_of_reached schema config type buffer memory reached
  rw [same] at failed
  obtain ⟨left, taking, rfl⟩ := Step.carry_eq_error failed
  exact (traces_taking config formats type).tells taking

/-- After a value has been taken off, all that can fail is that there are bytes left. -/
theorem extraData_of_taken {type : Ty} {bytes : Bytes} {value : Value} {error : Error}
    {after : Walk.State} {later : Memory}
    (taken : (build schema config).decodeFrom type ((build schema config).reader bytes) memory
      = .ok value after)
    (failed : (build schema config).decode type bytes memory = .error error later) :
    error = .extraData after.buffer.length := by
  unfold decode at failed
  rw [taken] at failed
  obtain ⟨_, same⟩ := decodeFrom_of_reached schema config type ((build schema config).reader bytes)
    memory reached
  rw [same] at taken
  obtain ⟨left, taking, rfl⟩ := Step.carry_eq_ok taken
  have reads : left.mode = .read := (traces_taking config formats type).mode_eq taking
  obtain ⟨contents, limits⟩ := left
  cases contents with
  | written reversed => cases reads
  | unread rest =>
      cases rest with
      | nil => cases failed
      | cons octet rest => cases failed; rfl

end

/-- Whatever has been asked before, a failure is its cause within the fields on the way to where
    the cause is raised, and nothing else: options, boxes, elements, keys and values put nothing
    around it. That there are bytes left is the only failure to decode that has no such way, and it
    is in no field. -/
theorem failure_tells_way
    (formats : ∀ type format, schema.kind type = .custom format → format.Bare) (memory : Memory)
    (reached : (build schema config).Reached memory) :
    let serializer := build schema config
    (∀ value buffer error after, serializer.encodeInto value buffer memory = .error error after →
      ∃ cause way,
        serializer.appendingAlong value ⟨buffer, []⟩ = .error cause ⟨after.buffer, way⟩ ∧
          way.Tells schema cause error) ∧
    (∀ value error later, serializer.encode value memory = .error error later →
      ∃ cause scene, serializer.appendingAlong value ⟨serializer.writer, []⟩ = .error cause scene ∧
        scene.way.Tells schema cause error) ∧
    (∀ type buffer error after, serializer.decodeFrom type buffer memory = .error error after →
      ∃ cause way, serializer.takingAlong type ⟨buffer, []⟩ = .error cause ⟨after.buffer, way⟩ ∧
        way.Tells schema cause error) ∧
    ∀ type bytes error later, serializer.decode type bytes memory = .error error later →
      (∃ cause scene,
        serializer.takingAlong type ⟨serializer.reader bytes, []⟩ = .error cause scene ∧
          scene.way.Tells schema cause error) ∨
      ∃ value after, serializer.decodeFrom type (serializer.reader bytes) memory = .ok value after ∧
        error = .extraData after.buffer.length ∧ error.path = [] ∧ error.rootCause = error := by
  intro serializer
  refine ⟨fun value buffer error after => encodeInto_tells formats reached,
    fun value error later => encode_tells formats reached,
    fun type buffer error after => decodeFrom_tells formats reached,
    fun type bytes error later failed => ?_⟩
  cases ended : serializer.decodeFrom type (serializer.reader bytes) memory with
  | error cause after =>
      have same : cause = error := by
        unfold decode at failed
        rw [ended] at failed
        cases failed
        rfl
      subst same
      obtain ⟨raised, way, along, tells⟩ := decodeFrom_tells formats reached ended
      exact .inl ⟨raised, _, along, tells⟩
  | ok value after =>
      obtain rfl := extraData_of_taken formats reached ended failed
      exact .inr ⟨value, after, rfl, rfl, rfl, rfl⟩

/-- A schema of an aggregate with a part whose constructor refuses everything, and with a part that
    nothing can rebuild. -/
def parcels : Schema where
  entries :=
    [{ type := .named "Seal",
        definition := .aggregate
          { fields := [⟨"code", .i8, [], 0⟩]
            constructors := [⟨[⟨"code", .i8, []⟩], fun _ => .error (.custom "broken")⟩] } },
      { type := .named "Stamp", definition := .aggregate {} },
      { type := .named "Parcel"
        definition := .aggregate
          { fields := [⟨"seal", .option (.boxed (.named "Seal")), [], 0⟩,
              ⟨"stamp", .named "Stamp", [], 1⟩]
            initial := some (.record (.named "Parcel")
              [.absent (.boxed (.named "Seal")), .record (.named "Stamp") []]) } }]

/-- No parcel writes and reads itself. -/
theorem parcels_bare (type : Ty) (format : Custom)
    (described : parcels.kind type = .custom format) : format.Bare := by
  obtain ⟨entry, found, defined⟩ := parcels.entry_of_kind type (.custom format)
    (by rw [described]; rfl)
  have known := List.mem_of_find?_eq_some found
  simp only [parcels, List.mem_cons, List.not_mem_nil, or_false] at known
  obtain rfl | rfl | rfl := known <;> cases defined

/-- Of a list of one parcel, the failure of the seal names the field that the seal is in, and not
    that of the code, which has been read by then. Without a seal, the stamp is what fails. -/
theorem failure_tells_way_parcel :
    let serializer := build parcels {}
    let type := Ty.vector (.named "Parcel")
    let sealed : Bytes := [0, 0, 0, 0, 0, 0, 0, 1, 1, 7]
    let stamped : Bytes := [0, 0, 0, 0, 0, 0, 0, 1, 0]
    ((∀ type format, parcels.kind type = .custom format → format.Bare) ∧
      serializer.Reached serializer.start) ∧
    (∃ later, serializer.decode type sealed serializer.start
        = .error (.field "Parcel" "seal" (.custom "broken")) later) ∧
    (∃ cause scene,
      serializer.takingAlong type ⟨serializer.reader sealed, []⟩ = .error cause scene ∧
        scene.way.Tells parcels cause (.field "Parcel" "seal" (.custom "broken"))) ∧
    ∃ cause scene,
      serializer.takingAlong type ⟨serializer.reader stamped, []⟩ = .error cause scene ∧
        scene.way.Tells parcels cause
          (.field "Parcel" "stamp" (.noConstructorAvailable "Stamp")) := by
  intro serializer type sealed stamped
  have fails : Step.failure? (serializer.decode type sealed serializer.start)
      = some (.field "Parcel" "seal" (.custom "broken")) := by decide +kernel
  have failsToo : Step.failure? (serializer.decode type stamped serializer.start)
      = some (.field "Parcel" "stamp" (.noConstructorAvailable "Stamp")) := by decide +kernel
  obtain ⟨later, failed⟩ := Step.exists_of_failure? fails
  obtain ⟨_, failedToo⟩ := Step.exists_of_failure? failsToo
  obtain ⟨_, _, _, decodes⟩ := failure_tells_way parcels {} parcels_bare serializer.start .start
  refine ⟨⟨parcels_bare, .start⟩, ⟨later, failed⟩, ?_, ?_⟩
  · obtain told | ⟨_, _, _, impossible, _⟩ := decodes type sealed _ later failed
    · exact told
    · cases impossible
  · obtain told | ⟨_, _, _, impossible, _⟩ := decodes type stamped _ _ failedToo
    · exact told
    · cases impossible

/-- Letters with a stamp that refuses every price but reports it as a failure in its own field. -/
def letters : Schema where
  entries :=
    [{ type := .named "Stamp",
        definition := .aggregate
          { fields := [⟨"price", .i8, [], 0⟩]
            constructors := [⟨[⟨"price", .i8, []⟩],
              fun _ => .error ((Error.custom "odd").inField "Stamp" "price")⟩] } },
      { type := .named "Letter"
        definition := .aggregate
          { fields := [⟨"stamp", .named "Stamp", [], 0⟩]
            initial := some (.record (.named "Letter") [.record (.named "Stamp") [.i8 0]]) } }]

/-- A constructor may name a field by itself. What it reports is passed on: the only field on the way
    to it is the one that the stamp is in, but the path goes on through a field of the stamp's own, and
    what is at the end of the path is not what the constructor has reported. -/
theorem rejection_names_own_field :
    let serializer := build letters {}
    let reported := (Error.custom "odd").inField "Stamp" "price"
    let failure := reported.inField "Letter" "stamp"
    let ending := fun outcome : EStateM.Result Error Scene Value =>
      match outcome with
      | .ok _ _ => none
      | .error cause scene => some (cause, scene.way.fields)
    Step.failure? (serializer.decode (.named "Letter") [7] serializer.start) = some failure ∧
      ending (serializer.takingAlong (.named "Letter") ⟨serializer.reader [7], []⟩)
        = some (reported, [(.named "Letter", "stamp")]) ∧
      failure.path = ["stamp", "price"] ∧ failure.owners = ["Letter", "Stamp"] ∧
      failure.rootCause ≠ reported := by
  decide +kernel

end Serializer

end Wireform
