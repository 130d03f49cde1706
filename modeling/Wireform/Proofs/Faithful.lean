import Wireform.Proofs.Client
import Wireform.Proofs.Layers
import Wireform.Proofs.Vouching

/-!
# Requests are answered faithfully

Where only trusted codecs are made, every request that a serializer serves is answered with a value
of the type that was asked for, by induction on how deep requests may nest. What is remembered has
to be trusted as well. No rule is asked to be blind to values, so that a remembered codec need not
be the one that would be resolved now; it is enough that it is trusted with the type of the place
under which it is found, and every call of a serializer leaves a memory behind of which that is
true.
-/

namespace Wireform

variable {α β : Type}

/-- The walk keeps a property of the memory however it ends, and ends in a good result if it
    succeeds. -/
def Walk.Guards (keeps : Memory → Prop) (walk : Walk α) (good : α → Prop) : Prop :=
  ∀ state, keeps state.memory →
    match walk state with
    | .ok result after => keeps after.memory ∧ good result
    | .error _ after => keeps after.memory

namespace Walk

variable {keeps : Memory → Prop} {good : α → Prop} {better : β → Prop}

/-- A good result is good. -/
theorem guards_pure (result : α) (holds : good result) : Guards keeps (pure result) good :=
  fun _ kept => ⟨kept, holds⟩

/-- A failure leaves the memory as it was. -/
theorem guards_fail (error : Error) : Guards keeps (Step.fail error) good :=
  fun _ kept => kept

/-- A known outcome is good if its result is. -/
theorem guards_lift {outcome : Except Error α}
    (known : ∀ result, outcome = .ok result → good result) :
    Guards keeps (Step.lift outcome) good := by
  cases outcome with
  | ok result => exact guards_pure result (known result rfl)
  | error error => exact guards_fail error

/-- What follows a good result may take it for good. -/
theorem guards_bind {walk : Walk α} {next : α → Walk β} (first : Guards keeps walk good)
    (second : ∀ result, good result → Guards keeps (next result) better) :
    Guards keeps (walk >>= next) better := by
  intro state kept
  have ended := first state kept
  rw [Step.bind_apply]
  cases happened : walk state with
  | error error after =>
      rw [happened] at ended
      exact ended
  | ok result after =>
      rw [happened] at ended
      exact second result ended.2 after ended.1

/-- A changed result is good if it was good for being changed. -/
theorem guards_map {walk : Walk α} (change : α → β) (guards : Guards keeps walk good)
    (changed : ∀ result, good result → better (change result)) :
    Guards keeps (change <$> walk) better := by
  rw [map_eq_pure_bind]
  exact guards_bind guards fun result holds => guards_pure _ (changed result holds)

/-- What is good enough is good. -/
theorem guards_mono {walk : Walk α} {weaker : α → Prop} (guards : Guards keeps walk good)
    (implies : ∀ result, good result → weaker result) : Guards keeps walk weaker := by
  intro state kept
  have ended := guards state kept
  split at ended
  · exact ⟨ended.1, implies _ ended.2⟩
  · exact ended

/-- The name of a field is of no account. -/
theorem guards_inField {walk : Walk α} (owner name : String) (guards : Guards keeps walk good) :
    Guards keeps (Step.inField owner name walk) good := by
  intro state kept
  have ended := guards state kept
  simp only [Step.inField]
  cases happened : walk state with
  | error error after =>
      rw [happened] at ended
      exact ended
  | ok result after =>
      rw [happened] at ended
      exact ended

/-- Descending reports itself and is no concern otherwise. -/
theorem guards_descend {walk : Walk α} (type : Ty)
    (reports : ∀ memory type depth, keeps memory →
      keeps ⟨memory.cache, .descending type depth :: memory.events⟩)
    (guards : Guards keeps walk good) : Guards keeps (descend type walk) good := by
  intro state kept
  unfold descend
  by_cases circular : state.visited.contains type = true
  · rw [if_pos circular]
    exact kept
  · rw [if_neg circular]
    have ended := guards
      ⟨state.buffer, type :: state.visited, ⟨state.memory.cache,
        .descending type.name state.visited.length :: state.memory.events⟩⟩
      (reports state.memory _ _ kept)
    dsimp only at ended ⊢
    generalize walk _ = outcome at ended ⊢
    cases outcome with
    | ok result after => exact ended
    | error error after => exact ended

/-- A program comes to what it vouches for if its requests are answered faithfully. -/
theorem guards_run {admits : Request → Prop} {serve : (request : Request) → Walk request.Answer}
    (served : ∀ request, admits request → Guards keeps (serve request) request.Faithful)
    (program : Program α) (asks : program.Asks admits) (vouches : program.Vouches good) :
    Guards keeps (program.run serve) good := by
  induction program with
  | done result => exact guards_pure result vouches
  | fail error => exact guards_fail error
  | ask request next inductionHypothesis =>
      intro state kept
      have ended := served request asks.1 state kept
      simp only [Program.run]
      cases happened : serve request state with
      | ok answer after =>
          rw [happened] at ended
          exact inductionHypothesis _ (asks.2 _) (vouches.1 answer ended.2) after ended.1
      | error error after =>
          rw [happened] at ended
          exact inductionHypothesis _ (asks.2 _) (vouches.2 error) after ended

/-- A program that asks for placed contexts keeps the memory whatever becomes of it. -/
theorem guards_run_anything {admits : Request → Prop}
    {serve : (request : Request) → Walk request.Answer}
    (served : ∀ request, admits request → Guards keeps (serve request) request.Faithful)
    (program : Program α) (asks : program.Asks admits) :
    Guards keeps (program.run serve) fun _ => True :=
  guards_run served program asks program.vouches_anything

end Walk

/-- A value of the unwrapped type with the stripped layers around it is of the declared type. -/
theorem Context.type_of_rewrap (context : Context) (inner : Option Value) (whole : Value)
    (own : ∀ value, inner = some value → value.type = context.unwrapped)
    (rewrapped : context.rewrap inner = .ok whole) : whole.type = context.declared := by
  have put := context.rewrapThrough_of_rewrap inner whole rewrapped
  exact (Value.layered_type.project_rewrap context.declared inner whole own put).2

/-- The value whose fields are assigned is the initial one. -/
theorem Aggregate.initial_of_strategy (description : Aggregate) (initial : Value)
    (chosen : description.strategy = .assign initial) : description.initial = some initial := by
  unfold strategy at chosen
  split at chosen
  · cases chosen
  · next start =>
      cases chosen
      exact start
  · cases chosen

/-- Assigning a field keeps the type of an aggregate. -/
theorem Field.type_of_set (owner : Ty) (field : Field) (value whole after : Value)
    (assigned : field.set owner value whole = .ok after) : after.type = owner := by
  unfold set at assigned
  split at assigned
  · split at assigned
    · next same =>
        cases expected : value.expect field.type with
        | error error => rw [expected] at assigned; cases assigned
        | ok held =>
            rw [expected] at assigned
            cases assigned
            exact same
    · cases assigned
  · cases assigned

namespace Aggregate

/-- The context at which the field of an aggregate is walked. -/
def fieldContext (owner : Ty) (index : Nat) (field : Field) : Context :=
  (Context.make field.type field.markers).placedAt (.field owner index)

/-- The context at which the parameter of a constructor is walked. -/
def parameterContext (owner : Ty) (constructor position : Nat) (parameter : Parameter) : Context :=
  (Context.make parameter.type parameter.markers).placedAt (.parameter owner constructor position)

end Aggregate

namespace Serializer

open Aggregate (fieldContext parameterContext)

section Aggregates

variable {keeps : Memory → Prop} {good : Value → Prop} {owner : Ty} {description : Aggregate}

/-- Encoding fields keeps the memory if encoding does at every place. -/
theorem guards_encodeFields {walk : Context → Walk Unit} (value : Value)
    (each : ∀ index field, description.fields[index]? = some field → ∀ member,
      Walk.Guards keeps (walk ((fieldContext owner index field).withValue member)) fun _ => True)
    (index : Nat) (fields : List Field) (rest : description.fields.drop index = fields) :
    Walk.Guards keeps (encodeFields walk owner value index fields) fun _ => True := by
  induction fields generalizing index with
  | nil => exact Walk.guards_pure () trivial
  | cons field later inductionHypothesis =>
      obtain ⟨listed, laterRest⟩ := getElem?_of_drop _ index field later rest
      have child : ∀ member, field.get owner value = .ok member → True := fun _ _ => trivial
      have first := Walk.guards_bind (Walk.guards_lift child) fun member _ =>
        each index field listed member
      exact Walk.guards_bind (Walk.guards_inField owner.name field.name first) fun _ _ =>
        inductionHypothesis (index + 1) laterRest

/-- Decoding arguments keeps the memory if decoding does at every place. -/
theorem guards_decodeArguments {walk : Context → Walk Value} (index : Nat)
    (constructor : Constructor)
    (each : ∀ position parameter, constructor.parameters[position]? = some parameter →
      Walk.Guards keeps (walk (parameterContext owner index position parameter)) fun _ => True)
    (position : Nat) (parameters : List Parameter)
    (rest : constructor.parameters.drop position = parameters) :
    Walk.Guards keeps (decodeArguments walk owner index position parameters) fun _ => True := by
  induction parameters generalizing position with
  | nil => exact Walk.guards_pure [] trivial
  | cons parameter later inductionHypothesis =>
      obtain ⟨listed, laterRest⟩ := getElem?_of_drop _ position parameter later rest
      exact Walk.guards_bind
        (Walk.guards_inField owner.name parameter.name (each position parameter listed))
        fun argument _ => Walk.guards_bind (inductionHypothesis (position + 1) laterRest)
          fun others _ => Walk.guards_pure (argument :: others) trivial

/-- Assigning fields comes to a good value if it starts with one and each assignment makes one. -/
theorem guards_assignFields {walk : Context → Walk Value}
    (each : ∀ index field, description.fields[index]? = some field →
      Walk.Guards keeps (walk (fieldContext owner index field)) fun _ => True)
    (sets : ∀ (field : Field) decoded value after,
      field.set owner decoded value = .ok after → good after)
    (index : Nat) (fields : List Field) (rest : description.fields.drop index = fields)
    (value : Value) (own : good value) :
    Walk.Guards keeps (assignFields walk owner index fields value) good := by
  induction fields generalizing index value with
  | nil => exact Walk.guards_pure value own
  | cons field later inductionHypothesis =>
      obtain ⟨listed, laterRest⟩ := getElem?_of_drop _ index field later rest
      have first := Walk.guards_bind (each index field listed) fun decoded _ =>
        Walk.guards_lift (sets field decoded value)
      exact Walk.guards_bind (Walk.guards_inField owner.name field.name first) fun after same =>
        inductionHypothesis (index + 1) laterRest after same

/-- An aggregate that is rebuilt is good, by either strategy, if constructors build good values,
    default construction yields one, and each assignment makes one. -/
theorem guards_rebuild {walk : Context → Walk Value}
    (fields : ∀ index field, description.fields[index]? = some field →
      Walk.Guards keeps (walk (fieldContext owner index field)) fun _ => True)
    (parameters : ∀ index constructor, description.constructors[index]? = some constructor →
      ∀ position parameter, constructor.parameters[position]? = some parameter →
        Walk.Guards keeps (walk (parameterContext owner index position parameter)) fun _ => True)
    (builds : ∀ constructor ∈ description.constructors, ∀ arguments value,
      constructor.build arguments = .ok value → good value)
    (starts : ∀ initial, description.initial = some initial → good initial)
    (sets : ∀ (field : Field) decoded value after,
      field.set owner decoded value = .ok after → good after) :
    Walk.Guards keeps (rebuild walk owner description) good := by
  unfold rebuild
  cases chosen : description.strategy with
  | construct index constructor =>
      have known := description.getElem?_of_strategy index constructor chosen
      exact Walk.guards_bind
        (guards_decodeArguments index constructor (parameters index constructor known) 0 _ rfl)
        fun arguments _ => Walk.guards_lift fun value =>
          builds constructor (List.mem_of_getElem? known) arguments value
  | assign initial =>
      exact guards_assignFields fields sets 0 _ rfl initial
        (starts initial (description.initial_of_strategy initial chosen))
  | unavailable => exact Walk.guards_fail _

end Aggregates

variable {serializer : Serializer}

/-- Every codec that is remembered under a site is trusted with the type of the place that the site
    names. -/
def Vouched (serializer : Serializer) (memory : Memory) : Prop :=
  ∀ site codec, memory.cache.find? site = some codec →
    ∃ context, serializer.schema.contextAt site = some context ∧
      codec.Trusted serializer.schema context.unwrapped

/-- A memory that holds no codec is vouched for. -/
theorem vouched_of_empty (events : List Event) : serializer.Vouched ⟨[], events⟩ :=
  fun _ _ remembered => by cases remembered

/-- Reporting an event changes nothing about what is remembered. -/
theorem vouched_report (memory : Memory) (event : Event) (vouched : serializer.Vouched memory) :
    serializer.Vouched ⟨memory.cache, event :: memory.events⟩ :=
  vouched

/-- The codec that is looked up or resolved for a context is trusted with its type, and so is what
    is remembered afterwards. -/
theorem guards_codecFor (trusts : serializer.Trusts) (context : Context)
    (placed : context.Placed serializer.schema) :
    Walk.Guards serializer.Vouched (serializer.codecFor context)
      fun codec => codec.Trusted serializer.schema context.unwrapped := by
  intro state vouched
  simp only [codecFor]
  cases known : (if serializer.config.cacheCodecs = true then context.site else none) with
  | none =>
      cases made : serializer.freshCodec context with
      | error error => exact vouched
      | ok codec => exact ⟨vouched_report state.memory _ vouched, trusts.fresh context codec made⟩
  | some site =>
      have at_site : context.site = some site := by
        split at known
        · exact known
        · cases known
      have stands := placed site at_site
      cases hit : state.memory.cache.find? site with
      | some codec =>
          obtain ⟨other, elsewhere, trusted⟩ := vouched site codec hit
          cases stands.symm.trans elsewhere
          simp only [Option.bind_some, hit]
          exact ⟨vouched, trusted⟩
      | none =>
          simp only [Option.bind_some, hit]
          cases made : serializer.freshCodec context with
          | error error => exact vouched
          | ok codec =>
              refine ⟨fun other remembered found => ?_, trusts.fresh context codec made⟩
              obtain ⟨rfl, rfl⟩ | earlier := Cache.find?_cons_eq_some found
              · exact ⟨context.bare, stands, trusts.fresh context codec made⟩
              · exact vouched other remembered earlier

/-- Every request is answered faithfully. The induction is on how deep requests may nest; each case
    hands its own requests to the level below. -/
theorem guards_serve (trusts : serializer.Trusts) (upright : serializer.schema.Upright)
    (depth : Nat) (request : Request) (placed : request.Placed serializer.schema) :
    Walk.Guards serializer.Vouched (serializer.serve depth request) request.Faithful := by
  induction depth generalizing request with
  | zero =>
      cases request with
      | look => exact fun _ vouched => ⟨vouched, trivial⟩
      | replace buffer => exact fun _ vouched => ⟨vouched, trivial⟩
      | path => exact fun _ vouched => ⟨vouched, trivial⟩
      | _ => exact Walk.guards_fail _
  | succ depth inductionHypothesis =>
      have decodes (context : Context) (placed : context.Placed serializer.schema) :
          Walk.Guards serializer.Vouched (serializer.serve depth (.decode context)) fun _ => True :=
        Walk.guards_mono (inductionHypothesis (.decode context) placed) fun _ _ => trivial
      have resolved (context : Context) (found : Option Codec)
          (made : serializer.resolve context = .ok found) (codec : Codec)
          (same : found = some codec) :
          codec.Trusted serializer.schema context.unwrapped :=
        trusts.resolved context codec (same ▸ made)
      cases request with
      | look => exact fun _ vouched => ⟨vouched, trivial⟩
      | replace buffer => exact fun _ vouched => ⟨vouched, trivial⟩
      | path => exact fun _ vouched => ⟨vouched, trivial⟩
      | encode context =>
          simp only [serve]
          cases context.value with
          | none => exact Walk.guards_fail _
          | some value =>
              refine Walk.guards_bind (guards_codecFor trusts context placed)
                fun codec trusted => ?_
              have projected : ∀ inner, context.project value = .ok inner → True :=
                fun _ _ => trivial
              exact Walk.guards_bind (Walk.guards_lift projected) fun inner _ =>
                Walk.guards_run_anything inductionHypothesis _ (trusted.placed.encode inner)
      | decode context =>
          simp only [serve]
          refine Walk.guards_bind (guards_codecFor trusts context placed) fun codec trusted => ?_
          refine Walk.guards_bind (Walk.guards_run inductionHypothesis codec.decode
            trusted.placed.decode trusted.vouches) fun inner own => ?_
          exact Walk.guards_lift fun whole => context.type_of_rewrap inner whole own
      | encodeFields type description value =>
          exact Walk.guards_descend type (fun memory _ _ => vouched_report memory _)
            (guards_encodeFields value
              (fun index field listed member => inductionHypothesis (.encode _)
                (Context.field_placed _ type description placed index field listed (some member)))
              0 _ rfl)
      | decodeFields type description =>
          refine Walk.guards_descend type (fun memory _ _ => vouched_report memory _)
            (guards_rebuild ?_ ?_ (upright.builds type description placed)
              (upright.starts type description placed) (fun field => field.type_of_set type))
          · exact fun index field listed => decodes _
              (Context.field_placed _ type description placed index field listed none)
          · exact fun index constructor known position parameter listed => decodes _
              (Context.parameter_placed _ type description placed index position constructor known
                parameter listed)
      | encodeResolved context value =>
          simp only [serve]
          refine Walk.guards_bind (Walk.guards_lift (resolved context)) fun found trusted => ?_
          cases found with
          | none => exact Walk.guards_pure none trivial
          | some codec =>
              exact Walk.guards_map some (Walk.guards_run_anything inductionHypothesis _
                ((trusted codec rfl).placed.encode value)) fun _ _ => trivial
      | decodeResolved context =>
          simp only [serve]
          refine Walk.guards_bind (Walk.guards_lift (resolved context)) fun found trusted => ?_
          cases found with
          | none => exact Walk.guards_pure none fun value impossible => by cases impossible
          | some codec =>
              refine Walk.guards_map some (Walk.guards_run inductionHypothesis codec.decode
                (trusted codec rfl).placed.decode (trusted codec rfl).vouches) ?_
              intro inner own value same
              cases same
              exact own value rfl

end Serializer

/-! ## Calls -/

namespace Call

variable {serializer : Serializer}

/-- What a walk over a buffer of the caller's leaves of the memory. -/
theorem snd_ended (outcome : Except Error α → Buffer.Contents → Outcome)
    (result : EStateM.Result Error Walk.State α) :
    (ended outcome result).2 = (Step.left result).memory := by
  cases result <;> rfl

/-- What a call without a buffer of the caller's leaves of the memory. -/
theorem snd_settled (outcome : Except Error α → Outcome) (result : EStateM.Result Error Memory α) :
    (settled outcome result).2 = Step.left result := by
  cases result <;> rfl

end Call

namespace Serializer

variable (serializer : Serializer) (memory : Memory)

/-- Encoding leaves of the memory what its walk leaves. -/
theorem left_encodeContext (context : Context) :
    Step.left (serializer.encodeContext context memory)
      = (Step.left
          (serializer.walk context (.encode context) serializer.writer memory)).memory := by
  unfold encodeContext
  cases serializer.walk context (.encode context) serializer.writer memory with
  | error error state => rfl
  | ok result state =>
      dsimp only
      cases state.buffer.finish <;> rfl

/-- Insisting on a type leaves the memory alone. -/
theorem left_decodeFrom (type : Ty) (buffer : Buffer) :
    Step.left (serializer.decodeFrom type buffer memory)
      = Step.left (serializer.decodeType type buffer memory) := by
  unfold decodeFrom
  cases serializer.decodeType type buffer memory with
  | error error state => rfl
  | ok value state =>
      dsimp only
      cases value.expect type <;> rfl

/-- Insisting on the end of the input leaves the memory alone. -/
theorem left_decode (type : Ty) (bytes : Bytes) :
    Step.left (serializer.decode type bytes memory)
      = (Step.left (serializer.decodeFrom type (serializer.reader bytes) memory)).memory := by
  unfold decode
  cases serializer.decodeFrom type (serializer.reader bytes) memory with
  | error error state => rfl
  | ok value state =>
      dsimp only
      cases state.buffer.ensureConsumed <;> rfl

end Serializer

/-- A call keeps of the memory what walks and resetting keep. -/
theorem Call.keeps_run {keeps : Memory → Prop} {serializer : Serializer}
    (resets : ∀ memory, keeps (Serializer.reset memory))
    (walks : ∀ context request buffer memory, request.Placed serializer.schema → keeps memory →
      keeps (Step.left (serializer.walk context request buffer memory)).memory)
    (call : Call) (memory : Memory) (placed : call.Placed serializer.schema)
    (kept : keeps memory) : keeps (call.run serializer memory).2 := by
  have root (type : Ty) (value : Option Value) :=
    Serializer.root_placed serializer.schema type value
  have encodes (context : Context) (placed : context.Placed serializer.schema) :
      keeps (Step.left (serializer.encodeContext context memory)) := by
    rw [Serializer.left_encodeContext]
    exact walks context (.encode context) _ memory placed kept
  have decodes (type : Ty) (buffer : Buffer) :
      keeps (Step.left (serializer.decodeType type buffer memory)).memory :=
    walks (Serializer.root type none) (.decode (Serializer.root type none)) buffer memory
      (root type none) kept
  cases call with
  | encode value =>
      simp only [run, snd_settled]
      exact encodes (Serializer.root value.type (some value)) (root value.type (some value))
  | encodeContext context =>
      simp only [run, snd_settled]
      exact encodes context placed
  | encodeInto value contents limits =>
      simp only [run, snd_ended]
      exact walks (Serializer.root value.type (some value))
        (.encode (Serializer.root value.type (some value))) _ memory (root value.type (some value))
        kept
  | decode type bytes =>
      simp only [run, snd_settled, Serializer.left_decode, Serializer.left_decodeFrom]
      exact decodes type (serializer.reader bytes)
  | decodeFrom type contents limits =>
      simp only [run, snd_ended, Serializer.left_decodeFrom]
      exact decodes type (serializer.buffer contents limits)
  | decodeType type contents limits =>
      simp only [run, snd_ended]
      exact decodes type (serializer.buffer contents limits)
  | reset => exact resets memory

namespace Serializer

variable {serializer : Serializer} (trusts : serializer.Trusts)
  (upright : serializer.schema.Upright)

include trusts upright

/-- Every call leaves a memory behind that is vouched for. -/
theorem vouched_run (call : Call) (memory : Memory) (placed : call.Placed serializer.schema)
    (vouched : serializer.Vouched memory) : serializer.Vouched (call.run serializer memory).2 := by
  refine Call.keeps_run (fun _ => vouched_of_empty _) ?_ call memory placed vouched
  intro context request buffer memory placed vouched
  have guarded := guards_serve trusts upright (serializer.nesting context) request placed
    { buffer := buffer, memory := memory } vouched
  unfold walk
  split at guarded
  · next ended => rw [ended]; exact guarded.1
  · next ended => rw [ended]; exact guarded

/-- Whatever earlier calls have left behind is vouched for. -/
theorem vouched_of_reached (memory : Memory) (reached : serializer.Reached memory) :
    serializer.Vouched memory := by
  induction reached with
  | start => exact vouched_of_empty _
  | call memory _ call placed inductionHypothesis =>
      exact vouched_run trusts upright call memory placed inductionHypothesis

/-- What is decoded for a type is of the type. -/
theorem type_of_decodeType (type : Ty) (buffer : Buffer) (memory : Memory)
    (vouched : serializer.Vouched memory) (value : Value) (state : Walk.State)
    (decoded : serializer.decodeType type buffer memory = .ok value state) : value.type = type := by
  have guarded := guards_serve trusts upright (serializer.nesting (root type none))
    (.decode (root type none)) (root_placed _ type none) { buffer := buffer, memory := memory }
    vouched
  change serializer.serve _ _ _ = _ at decoded
  rw [show serializer.serve (serializer.nesting (root type none)) (.decode (root type none))
    { buffer := buffer, memory := memory } = .ok value state from decoded] at guarded
  exact guarded.2

end Serializer

end Wireform
