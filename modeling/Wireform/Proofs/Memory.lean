import Wireform.Proofs.Answer
import Wireform.Proofs.Site

/-!
# What is remembered is what would be resolved

A memory is coherent if every codec that it holds under a site is the one that
would be resolved at that site now. Every step of a walk with static rules keeps
this: a hit yields what a fresh resolution would, a miss stores just that, a failed
resolution stores nothing, and resetting leaves nothing.

From it follows, by induction on how deep requests may nest, that a walk does to
its buffer what the answer without a memory does, whatever was remembered before,
and that it puts the stack of aggregates back.
-/

namespace Wireform

variable {α β : Type}

/-- A walk ends as an operation on its buffer does and puts its stack back. Only its
    memory is its own affair, as long as the memory keeps a property. -/
def Walk.Follows (keeps : Memory → Prop) (visited : List Ty) (walk : Walk α)
    (operation : Buffer.Op α) : Prop :=
  ∀ buffer memory, keeps memory → ∃ later, keeps later ∧
    walk ⟨buffer, visited, memory⟩
      = Step.carry (fun buffer => ⟨buffer, visited, later⟩) (operation buffer)

namespace Walk

variable {keeps : Memory → Prop} {visited : List Ty}

/-- Yielding a result follows yielding it. -/
theorem follows_pure (result : α) :
    Follows keeps visited (pure result) (pure result) :=
  fun _ memory kept => ⟨memory, kept, rfl⟩

/-- Failing follows failing. -/
theorem follows_fail (error : Error) :
    Follows keeps visited (Step.fail error : Walk α) (Step.fail error) :=
  fun _ memory kept => ⟨memory, kept, rfl⟩

/-- A result or a failure follows itself. -/
theorem follows_lift (outcome : Except Error α) :
    Follows keeps visited (Step.lift outcome) (Step.lift outcome) := by
  cases outcome with
  | ok result => exact follows_pure result
  | error error => exact follows_fail error

/-- A succession of walks follows a succession of operations. -/
theorem follows_bind {walk : Walk α} {operation : Buffer.Op α} {next : α → Walk β}
    {nextOperation : α → Buffer.Op β} (first : Follows keeps visited walk operation)
    (second : ∀ result, Follows keeps visited (next result) (nextOperation result)) :
    Follows keeps visited (walk >>= next) (operation >>= nextOperation) := by
  intro buffer memory kept
  obtain ⟨between, keptBetween, ended⟩ := first buffer memory kept
  rw [Step.bind_apply, ended, Step.bind_apply]
  cases operation buffer with
  | ok result after => exact second result after between keptBetween
  | error error after => exact ⟨between, keptBetween, rfl⟩

/-- As `follows_bind`, where what comes first is a result known in advance. -/
theorem follows_bind_lift {walk : Walk α} {outcome : Except Error α} {next : α → Walk β}
    {nextOperation : α → Buffer.Op β} (first : Follows keeps visited walk (Step.lift outcome))
    (second : ∀ result, outcome = .ok result →
      Follows keeps visited (next result) (nextOperation result)) :
    Follows keeps visited (walk >>= next) (Step.lift outcome >>= nextOperation) := by
  cases outcome with
  | ok result =>
      intro buffer memory kept
      obtain ⟨between, keptBetween, ended⟩ := first buffer memory kept
      rw [Step.bind_apply, ended]
      exact second result rfl buffer between keptBetween
  | error error =>
      intro buffer memory kept
      obtain ⟨between, keptBetween, ended⟩ := first buffer memory kept
      rw [Step.bind_apply, ended]
      exact ⟨between, keptBetween, rfl⟩

/-- Changing the results of both changes nothing else. -/
theorem follows_map {walk : Walk α} {operation : Buffer.Op α} (change : α → β)
    (follows : Follows keeps visited walk operation) :
    Follows keeps visited (change <$> walk) (change <$> operation) := by
  rw [map_eq_pure_bind, map_eq_pure_bind]
  exact follows_bind follows fun result => follows_pure (change result)

/-- Naming the field of a failure on both sides keeps them alike. -/
theorem follows_inField {walk : Walk α} {operation : Buffer.Op α} (owner name : String)
    (follows : Follows keeps visited walk operation) :
    Follows keeps visited (Step.inField owner name walk) (Step.inField owner name operation) := by
  intro buffer memory kept
  obtain ⟨later, keptLater, ended⟩ := follows buffer memory kept
  refine ⟨later, keptLater, ?_⟩
  simp only [Step.inField, ended]
  cases operation buffer <;> rfl

/-- Descending follows what is done below the type, or the refusal of a type that is
    being walked already. The stack is put back in either case. -/
theorem follows_descend {walk : Walk α} {operation : Buffer.Op α} (type : Ty)
    (records : ∀ memory event, keeps memory → keeps ⟨memory.cache, event :: memory.events⟩)
    (inside : Follows keeps (type :: visited) walk operation) :
    Follows keeps visited (descend type walk)
      (if visited.contains type then Step.fail (.circularReference type.name)
       else operation) := by
  intro buffer memory kept
  by_cases circular : visited.contains type = true
  · refine ⟨memory, kept, ?_⟩
    simp only [descend, circular, if_true]
    rfl
  · obtain ⟨later, keptLater, ended⟩ := inside buffer _
      (records memory (.descending type.name visited.length) kept)
    refine ⟨later, keptLater, ?_⟩
    simp only [descend, if_neg circular, ended]
    cases operation buffer <;> rfl

/-- A program follows itself if all that it asks for is served as it is answered. -/
theorem follows_run {admits : Request → Prop} {serve : (request : Request) → Walk request.Answer}
    {answer : (request : Request) → Buffer.Op request.Answer}
    (served : ∀ request, admits request → Follows keeps visited (serve request) (answer request))
    (program : Program α) (asks : program.Asks admits) :
    Follows keeps visited (program.run serve) (program.run answer) := by
  induction program with
  | done result => exact follows_pure result
  | fail error => exact follows_fail error
  | ask request next inductionHypothesis =>
      intro buffer memory kept
      obtain ⟨between, keptBetween, ended⟩ := served request asks.1 buffer memory kept
      simp only [Program.run, ended]
      cases answer request buffer with
      | ok answer after => exact inductionHypothesis _ (asks.2 _) after between keptBetween
      | error error after => exact inductionHypothesis _ (asks.2 _) after between keptBetween

end Walk

/-- What is left of a list from a position on starts with what stands there. -/
theorem getElem?_of_drop (items : List α) (index : Nat) (item : α) (later : List α)
    (rest : items.drop index = item :: later) :
    items[index]? = some item ∧ items.drop (index + 1) = later := by
  constructor
  · rw [← Nat.add_zero index, ← List.getElem?_drop, rest]
    rfl
  · rw [← List.drop_drop, rest]
    rfl

/-- The field at a position stands at the site of that position. -/
theorem Context.field_placed (schema : Schema) (owner : Ty) (description : Aggregate)
    (described : schema.kind owner = .aggregate description) (index : Nat) (field : Field)
    (listed : description.fields[index]? = some field) (value : Option Value) :
    ({ Context.make field.type field.markers with
        value := value, site := some (.field owner index) } : Context).Placed schema := by
  intro site placed
  cases placed
  simp only [Schema.contextAt, described, listed, Option.map_some]
  rfl

/-- The parameter at a position stands at the site of that position. -/
theorem Context.parameter_placed (schema : Schema) (owner : Ty) (description : Aggregate)
    (described : schema.kind owner = .aggregate description) (index position : Nat)
    (constructor : Constructor) (known : description.constructors[index]? = some constructor)
    (parameter : Parameter) (listed : constructor.parameters[position]? = some parameter) :
    ((Context.make parameter.type parameter.markers).placedAt
      (.parameter owner index position)).Placed schema := by
  intro site placed
  cases placed
  simp only [Schema.contextAt, described, known, Option.bind_some, listed, Option.map_some]
  rfl

/-- The constructor that matches a number of arguments stands at its position. -/
theorem Aggregate.getElem?_of_matching (count start index : Nat) (constructor : Constructor)
    (constructors : List Constructor)
    (chosen : matching count start constructors = some (index, constructor)) :
    start ≤ index ∧ constructors[index - start]? = some constructor := by
  induction constructors generalizing start with
  | nil => cases chosen
  | cons head rest inductionHypothesis =>
      unfold matching at chosen
      split at chosen
      · cases chosen
        simp
      · obtain ⟨later, found⟩ := inductionHypothesis (start + 1) chosen
        refine ⟨by omega, ?_⟩
        have shifted : index - start = (index - (start + 1)) + 1 := by omega
        rw [shifted, List.getElem?_cons_succ]
        exact found

/-- The constructor that rebuilds an aggregate is one of its constructors. -/
theorem Aggregate.getElem?_of_strategy (description : Aggregate) (index : Nat)
    (constructor : Constructor) (chosen : description.strategy = .construct index constructor) :
    description.constructors[index]? = some constructor := by
  unfold strategy at chosen
  split at chosen
  · next matched =>
      cases chosen
      exact (getElem?_of_matching _ 0 _ _ _ matched).2
  · cases chosen
  · cases chosen

/-- A codec that is found is the one that was put in last or was there before. -/
theorem Cache.find?_cons_eq_some {cache : Cache} {site other : Site} {codec found : Codec}
    (hit : Cache.find? ((site, codec) :: cache) other = some found) :
    site = other ∧ codec = found ∨ cache.find? other = some found := by
  by_cases same : site = other
  · simp only [Cache.find?, List.find?_cons, same, decide_true, Option.map_some,
      Option.some.injEq] at hit
    exact .inl ⟨same, hit⟩
  · simp only [Cache.find?, List.find?_cons, same, decide_false] at hit
    exact .inr hit

namespace Serializer

/-- Every codec that is remembered under a site is the one that would be resolved
    for the place that the site names. -/
def Coherent (serializer : Serializer) (memory : Memory) : Prop :=
  ∀ site codec, memory.cache.find? site = some codec →
    ∃ context, serializer.schema.contextAt site = some context ∧
      serializer.freshCodec context = .ok codec

variable {serializer : Serializer}

/-- A memory that holds no codec is coherent. -/
theorem coherent_of_empty (events : List Event) : serializer.Coherent ⟨[], events⟩ :=
  fun _ _ remembered => by cases remembered

/-- Reporting an event changes nothing about what is remembered. -/
theorem coherent_report (memory : Memory) (event : Event) (coherent : serializer.Coherent memory) :
    serializer.Coherent ⟨memory.cache, event :: memory.events⟩ :=
  coherent

/-- Remembering what was just resolved at a site keeps a memory coherent. -/
theorem coherent_insert (memory : Memory) (events : List Event) (site : Site) (context : Context)
    (codec : Codec) (stands : serializer.schema.contextAt site = some context)
    (fresh : serializer.freshCodec context = .ok codec) (coherent : serializer.Coherent memory) :
    serializer.Coherent ⟨(site, codec) :: memory.cache, events⟩ := by
  intro other remembered found
  obtain ⟨rfl, rfl⟩ | earlier := Cache.find?_cons_eq_some found
  · exact ⟨context, stands, fresh⟩
  · exact coherent other remembered earlier

/-- Looking a codec up and resolving it on a miss yields what resolving it afresh
    yields, and a coherent memory stays coherent. -/
theorem follows_codecFor (static : serializer.Static) (visited : List Ty) (context : Context)
    (placed : context.Placed serializer.schema) :
    Walk.Follows serializer.Coherent visited (serializer.codecFor context)
      (Step.lift (serializer.freshCodec context)) := by
  intro buffer memory coherent
  have fresh_at (site : Site) (at_site : context.site = some site) :
      ∀ other, serializer.schema.contextAt site = some other →
        serializer.freshCodec other = serializer.freshCodec context := by
    intro other stands
    have same : other = context.bare := Option.some.inj (stands.symm.trans (placed site at_site))
    rw [same, ← freshCodec_bare static]
  simp only [codecFor]
  cases known : (if serializer.config.cacheCodecs = true then context.site else none) with
  | none =>
      -- no site to remember anything under
      cases made : serializer.freshCodec context with
      | error error => exact ⟨memory, coherent, rfl⟩
      | ok codec => exact ⟨_, coherent_report memory _ coherent, rfl⟩
  | some site =>
      have at_site : context.site = some site := by
        split at known
        · exact known
        · cases known
      cases hit : memory.cache.find? site with
      | some codec =>
          obtain ⟨other, stands, fresh⟩ := coherent site codec hit
          have made : serializer.freshCodec context = .ok codec := by
            rw [← fresh_at site at_site other stands, fresh]
          refine ⟨memory, coherent, ?_⟩
          simp only [Option.bind_some, hit, made]
          rfl
      | none =>
          simp only [Option.bind_some, hit]
          cases made : serializer.freshCodec context with
          | error error => exact ⟨memory, coherent, rfl⟩
          | ok codec =>
              have stands := placed site at_site
              have fresh := (fresh_at site at_site _ stands).trans made
              exact ⟨_, coherent_insert memory _ site _ codec stands fresh coherent, rfl⟩

section Aggregates

variable {keeps : Memory → Prop} {visited : List Ty} {schema : Schema}

/-- Encoding fields follows if encoding does at every place. The induction keeps
    what is left of the fields together with the position it starts at. -/
theorem follows_encodeFields {walk : Context → Walk Unit} {operation : Context → Buffer.Op Unit}
    (owner : Ty) (value : Value) (description : Aggregate)
    (described : schema.kind owner = .aggregate description)
    (each : ∀ context : Context, context.Placed schema →
      Walk.Follows keeps visited (walk context) (operation context))
    (index : Nat) (fields : List Field) (rest : description.fields.drop index = fields) :
    Walk.Follows keeps visited (encodeFields walk owner value index fields)
      (encodeFields operation owner value index fields) := by
  induction fields generalizing index with
  | nil => exact Walk.follows_pure ()
  | cons field later inductionHypothesis =>
      obtain ⟨listed, laterRest⟩ := getElem?_of_drop _ index field later rest
      refine Walk.follows_bind (Walk.follows_inField _ _ ?_) fun _ =>
        inductionHypothesis (index + 1) laterRest
      exact Walk.follows_bind (Walk.follows_lift _) fun child =>
        each _ (Context.field_placed schema owner description described index field listed
          (some child))

/-- Assigning fields follows if decoding does at every place. -/
theorem follows_assignFields {walk : Context → Walk Value} {operation : Context → Buffer.Op Value}
    (owner : Ty) (description : Aggregate)
    (described : schema.kind owner = .aggregate description)
    (each : ∀ context : Context, context.Placed schema →
      Walk.Follows keeps visited (walk context) (operation context))
    (index : Nat) (fields : List Field) (rest : description.fields.drop index = fields)
    (value : Value) :
    Walk.Follows keeps visited (assignFields walk owner index fields value)
      (assignFields operation owner index fields value) := by
  induction fields generalizing index value with
  | nil => exact Walk.follows_pure value
  | cons field later inductionHypothesis =>
      obtain ⟨listed, laterRest⟩ := getElem?_of_drop _ index field later rest
      refine Walk.follows_bind (Walk.follows_inField _ _ ?_) fun assigned =>
        inductionHypothesis (index + 1) laterRest assigned
      exact Walk.follows_bind
        (each _ (Context.field_placed schema owner description described index field listed none))
        fun decoded => Walk.follows_lift _

/-- Decoding arguments follows if decoding does at every place. -/
theorem follows_decodeArguments {walk : Context → Walk Value}
    {operation : Context → Buffer.Op Value} (owner : Ty) (description : Aggregate)
    (described : schema.kind owner = .aggregate description) (index : Nat)
    (constructor : Constructor) (known : description.constructors[index]? = some constructor)
    (each : ∀ context : Context, context.Placed schema →
      Walk.Follows keeps visited (walk context) (operation context))
    (position : Nat) (parameters : List Parameter)
    (rest : constructor.parameters.drop position = parameters) :
    Walk.Follows keeps visited (decodeArguments walk owner index position parameters)
      (decodeArguments operation owner index position parameters) := by
  induction parameters generalizing position with
  | nil => exact Walk.follows_pure []
  | cons parameter later inductionHypothesis =>
      obtain ⟨listed, laterRest⟩ := getElem?_of_drop _ position parameter later rest
      refine Walk.follows_bind (Walk.follows_inField _ _ ?_) fun argument =>
        Walk.follows_bind (inductionHypothesis (position + 1) laterRest) fun others =>
          Walk.follows_pure (argument :: others)
      exact each _ (Context.parameter_placed schema owner description described index position
        constructor known parameter listed)

/-- Rebuilding an aggregate follows by either strategy. -/
theorem follows_rebuild {walk : Context → Walk Value} {operation : Context → Buffer.Op Value}
    (owner : Ty) (description : Aggregate)
    (described : schema.kind owner = .aggregate description)
    (each : ∀ context : Context, context.Placed schema →
      Walk.Follows keeps visited (walk context) (operation context)) :
    Walk.Follows keeps visited (rebuild walk owner description)
      (rebuild operation owner description) := by
  unfold rebuild
  cases chosen : description.strategy with
  | construct index constructor =>
      have known := description.getElem?_of_strategy index constructor chosen
      exact Walk.follows_bind
        (follows_decodeArguments owner description described index constructor known each 0 _ rfl)
        fun arguments => Walk.follows_lift _
  | assign initial =>
      exact follows_assignFields owner description described each 0 _ rfl initial
  | unavailable => exact Walk.follows_fail _

end Aggregates

/-- Serving a request follows answering it without a memory. The induction is on how
    deep requests may nest; each case hands its own requests to the level below. -/
theorem follows_serve (static : serializer.Static)
    (makes : serializer.Makes (Codec.Placed serializer.schema)) (depth : Nat) (visited : List Ty)
    (request : Request) (placed : request.Placed serializer.schema) :
    Walk.Follows serializer.Coherent visited (serializer.serve depth request)
      (serializer.answer depth visited request) := by
  induction depth generalizing visited request with
  | zero =>
      cases request with
      | look => exact fun _ memory coherent => ⟨memory, coherent, rfl⟩
      | replace buffer => exact fun _ memory coherent => ⟨memory, coherent, rfl⟩
      | path => exact fun _ memory coherent => ⟨memory, coherent, rfl⟩
      | _ => exact Walk.follows_fail _
  | succ depth inductionHypothesis =>
      cases request with
      | look => exact fun _ memory coherent => ⟨memory, coherent, rfl⟩
      | replace buffer => exact fun _ memory coherent => ⟨memory, coherent, rfl⟩
      | path => exact fun _ memory coherent => ⟨memory, coherent, rfl⟩
      | encode context =>
          simp only [serve, answer]
          cases context.value with
          | none => exact Walk.follows_fail _
          | some value =>
              refine Walk.follows_bind_lift (follows_codecFor static visited context placed)
                fun codec made => Walk.follows_bind (Walk.follows_lift _) fun inner => ?_
              exact Walk.follows_run (inductionHypothesis visited) _
                ((makes.fresh context codec made).encode inner)
      | decode context =>
          simp only [serve, answer]
          refine Walk.follows_bind_lift (follows_codecFor static visited context placed)
            fun codec made => Walk.follows_bind ?_ fun inner => Walk.follows_lift _
          exact Walk.follows_run (inductionHypothesis visited) _
            (makes.fresh context codec made).decode
      | encodeFields type description value =>
          exact Walk.follows_descend type coherent_report
            (follows_encodeFields type value description placed
              (fun context standing => inductionHypothesis (type :: visited) (.encode context) standing)
              0 description.fields rfl)
      | decodeFields type description =>
          exact Walk.follows_descend type coherent_report
            (follows_rebuild type description placed
              fun context standing => inductionHypothesis (type :: visited) (.decode context) standing)
      | encodeResolved context value =>
          simp only [serve, answer]
          refine Walk.follows_bind_lift (Walk.follows_lift _) fun found resolved => ?_
          cases found with
          | none => exact Walk.follows_pure none
          | some codec =>
              exact Walk.follows_map some (Walk.follows_run (inductionHypothesis visited) _
                ((makes.resolved context codec resolved).encode value))
      | decodeResolved context =>
          simp only [serve, answer]
          refine Walk.follows_bind_lift (Walk.follows_lift _) fun found resolved => ?_
          cases found with
          | none => exact Walk.follows_pure none
          | some codec =>
              exact Walk.follows_map some (Walk.follows_run (inductionHypothesis visited) _
                (makes.resolved context codec resolved).decode)

end Serializer

end Wireform
