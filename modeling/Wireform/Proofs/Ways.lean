import Wireform.Proofs.Causes
import Wireform.Proofs.Nesting

/-!
# The way to a failure

What a failure says about fields is put around its cause while the walk is given up. `traced`
answers requests as `answer` does, but it reports causes as they are, and it notes where it is: at
which places, inside of which aggregates, in which of their fields, and whether it is about to
put an aggregate together. The stack of aggregates is what of this are aggregates that have been
entered. The note is undone where something has been walked to its end and is left alone where it
failed, so that it is the way from the root to the site of the failure.

Leaving the places out of a way, the fields on it are the names that the failure carries. A way
leads from field to field only through an aggregate that has just been entered and is not entered
further out. Options, boxes, elements, keys and values are places and add no name. Three
failures are about an aggregate and not about anything inside of it: that it is met below itself,
that there is no way to put it together, and that its constructor refuses the arguments. They
carry the names of the fields around the aggregate.

Nothing is said of rules of a user's: a codec may look at the failure of a request and report
another one.
-/

namespace Wireform

variable {α β : Type}

namespace Error

/-- The failure seen from outside of fields of aggregates, the innermost first. -/
def within (fields : List (Ty × String)) (cause : Error) : Error :=
  fields.foldl (fun error field => error.inField field.1.name field.2) cause

/-- The names of the aggregates that the enclosing fields are of, outermost first. -/
def owners : Error → List String
  | .field owner _ cause => owner :: cause.owners
  | _ => []

/-- A bare failure is inside of no aggregate. -/
theorem Bare.owners_eq {error : Error} (bare : error.Bare) : error.owners = [] := by
  cases error with
  | field owner name cause => exact bare.elim
  | _ => rfl

/-- Fields around fields. -/
theorem within_append (inner outer : List (Ty × String)) (cause : Error) :
    cause.within (inner ++ outer) = (cause.within inner).within outer :=
  List.foldl_append

/-- Fields change nothing about what went wrong. -/
theorem rootCause_within (fields : List (Ty × String)) (cause : Error) :
    (cause.within fields).rootCause = cause.rootCause := by
  induction fields generalizing cause with
  | nil => rfl
  | cons inner outer inductionHypothesis => exact inductionHypothesis _

/-- The path goes through the fields, the outermost first. -/
theorem path_within (fields : List (Ty × String)) (cause : Error) :
    (cause.within fields).path = (fields.map Prod.snd).reverse ++ cause.path := by
  induction fields generalizing cause with
  | nil => rfl
  | cons inner outer inductionHypothesis =>
      rw [List.map_cons, List.reverse_cons, List.append_assoc]
      exact inductionHypothesis _

/-- The owners are those of the fields, the outermost first. -/
theorem owners_within (fields : List (Ty × String)) (cause : Error) :
    (cause.within fields).owners = (fields.map (Ty.name ∘ Prod.fst)).reverse ++ cause.owners := by
  induction fields generalizing cause with
  | nil => rfl
  | cons inner outer inductionHypothesis =>
      rw [List.map_cons, List.reverse_cons, List.append_assoc]
      exact inductionHypothesis _

end Error

/-! ## Ways -/

/-- Where a walk is, relative to where it is besides. -/
inductive Stop
  /-- At a place: the root, a field, a parameter, an element, a key, the value of a key or an
      option below another one. -/
  | place (context : Context)
  /-- Inside of an aggregate. -/
  | entered (type : Ty)
  /-- In a field of an aggregate, or in the parameter that it is decoded for. -/
  | field (owner : Ty) (name : String)
  /-- Before an aggregate that it is inside of already. -/
  | refused (type : Ty)
  /-- At putting an aggregate together. -/
  | rebuilt (type : Ty)

/-- The stops of a walk, the last one first. -/
abbrev Way := List Stop

namespace Stop

/-- The aggregate that is entered at a stop. -/
def aggregate? : Stop → Option Ty
  | .entered type => some type
  | _ => none

/-- The field that a stop is in, with the aggregate it is of. -/
def field? : Stop → Option (Ty × String)
  | .field owner name => some (owner, name)
  | _ => none

end Stop

namespace Way

/-- The aggregates that are being walked, innermost first. -/
def aggregates (way : Way) : List Ty := way.filterMap Stop.aggregate?

/-- The fields that a way goes through, innermost first. -/
def fields (way : Way) : List (Ty × String) := way.filterMap Stop.field?

/-- The fields of a longer way. -/
theorem fields_append (further way : Way) :
    (further ++ way).fields = further.fields ++ way.fields :=
  List.filterMap_append

/-- The way up to what a failure is about. If that is an aggregate as such, the way ends before
    it. -/
def outside : Way → Way
  | .refused _ :: way => way
  | .rebuilt _ :: .entered _ :: way => way
  | way => way

end Way

/-- The names under which the parts of an aggregate are encoded or decoded. -/
def Aggregate.partNames (description : Aggregate) : List String :=
  description.fields.map Field.name ++
    match description.strategy with
    | .construct _ constructor => constructor.parameters.map Parameter.name
    | _ => []

/-- The way leads from place to place, and from one aggregate to the next through one of its
    parts. No aggregate is entered twice. -/
inductive Way.Leads (schema : Schema) : Way → Prop
  | root : Leads schema []
  | place (context : Context) (way : Way) (before : Leads schema way) :
      Leads schema (.place context :: way)
  | field (owner : Ty) (description : Aggregate) (name : String) (way : Way)
      (before : Leads schema way) (new : owner ∉ way.aggregates)
      (described : schema.kind owner = .aggregate description)
      (part : name ∈ description.partNames) :
      Leads schema (.field owner name :: .entered owner :: way)

/-- The cause is raised at the end of the way: a bare one anywhere, and one about an aggregate
    where the aggregate is refused or put together. -/
inductive Way.Raises (schema : Schema) : Way → Error → Prop
  | bare (way : Way) (cause : Error) (leads : Leads schema way) (bare : cause.Bare) :
      Raises schema way cause
  | circular (way : Way) (type : Ty) (leads : Leads schema way) (known : type ∈ way.aggregates) :
      Raises schema (.refused type :: way) (.circularReference type.name)
  | unavailable (way : Way) (type : Ty) (description : Aggregate) (leads : Leads schema way)
      (described : schema.kind type = .aggregate description)
      (unavailable : description.strategy = .unavailable) :
      Raises schema (.rebuilt type :: .entered type :: way) (.noConstructorAvailable type.name)
  | rejected (way : Way) (type : Ty) (description : Aggregate) (index : Nat)
      (constructor : Constructor) (arguments : List Value) (cause : Error)
      (leads : Leads schema way) (described : schema.kind type = .aggregate description)
      (chosen : description.strategy = .construct index constructor)
      (rejects : constructor.build arguments = .error cause) :
      Raises schema (.rebuilt type :: .entered type :: way) cause

namespace Way

variable {schema : Schema}

/-- A way is inside of the aggregates that its fields are of. -/
theorem Leads.owners {way : Way} (leads : way.Leads schema) :
    way.fields.map Prod.fst = way.aggregates := by
  induction leads with
  | root => rfl
  | place context way before inductionHypothesis => exact inductionHypothesis
  | field owner description name way before new described part inductionHypothesis =>
      exact congrArg (owner :: ·) inductionHypothesis

/-- A way that leads somewhere leads there from nowhere else. -/
theorem Leads.outside_eq {way : Way} (leads : way.Leads schema) : way.outside = way := by
  cases leads <;> rfl

/-- What a failure is about is at the end of a way that leads there, and the fields on the way
    are those that the failure is in. -/
theorem Raises.outside {way : Way} {cause : Error} (raises : way.Raises schema cause) :
    way.outside.Leads schema ∧ way.fields = way.outside.fields := by
  cases raises with
  | bare _ _ leads _ =>
      rw [leads.outside_eq]
      exact ⟨leads, rfl⟩
  | circular _ _ leads _ => exact ⟨leads, rfl⟩
  | unavailable _ _ _ leads _ _ => exact ⟨leads, rfl⟩
  | rejected _ _ _ _ _ _ _ leads _ _ _ => exact ⟨leads, rfl⟩

end Way

/-! ## Traced walks -/

/-- A buffer and the way on which it is worked on. -/
structure Scene where
  buffer : Buffer
  way : Way := []

namespace Scene

/-- Works on the buffer. -/
def work (operation : Buffer.Op α) : Step Scene α := fun scene =>
  Step.carry (fun buffer => ⟨buffer, scene.way⟩) (operation scene.buffer)

/-- Makes a step at a further stop. The way back is taken only if nothing failed. -/
def through (stop : Stop) (step : Step Scene α) : Step Scene α := fun scene =>
  match step { scene with way := stop :: scene.way } with
  | .ok result after => .ok result { after with way := scene.way }
  | .error error after => .error error after

/-- Makes a step inside of an aggregate, unless it is being walked already. -/
def enter (type : Ty) (step : Step Scene α) : Step Scene α := fun scene =>
  if scene.way.aggregates.contains type then
    through (.refused type) (Step.fail (.circularReference type.name)) scene
  else through (.entered type) step scene

/-- Encodes the fields of an aggregate in order, each at its site. -/
def encodeFields (encode : Context → Step Scene Unit) (owner : Ty) (value : Value) :
    (index : Nat) → List Field → Step Scene Unit
  | _, [] => return ()
  | index, field :: rest => do
      through (.field owner field.name) do
        let child ← Step.lift (field.get owner value)
        encode (((Context.make field.type field.markers).withValue child).placedAt
          (.field owner index))
      encodeFields encode owner value (index + 1) rest

/-- Decodes the arguments of a constructor in order, each at its site. -/
def decodeArguments (decode : Context → Step Scene Value) (owner : Ty) (constructor : Nat) :
    (position : Nat) → List Parameter → Step Scene (List Value)
  | _, [] => return []
  | position, parameter :: rest => do
      let argument ← through (.field owner parameter.name)
        (decode ((Context.make parameter.type parameter.markers).placedAt
          (.parameter owner constructor position)))
      let others ← decodeArguments decode owner constructor (position + 1) rest
      return argument :: others

/-- Decodes the fields of an aggregate in order, each at its site, and assigns them. -/
def assignFields (decode : Context → Step Scene Value) (owner : Ty) :
    (index : Nat) → List Field → Value → Step Scene Value
  | _, [], value => return value
  | index, field :: rest, value => do
      let value ← through (.field owner field.name) do
        let decoded ← decode ((Context.make field.type field.markers).placedAt
          (.field owner index))
        Step.lift (field.set owner decoded value)
      assignFields decode owner (index + 1) rest value

/-- Rebuilds an aggregate by its strategy. -/
def rebuild (decode : Context → Step Scene Value) (owner : Ty) (description : Aggregate) :
    Step Scene Value :=
  match description.strategy with
  | .construct index constructor => do
      let arguments ← decodeArguments decode owner index 0 constructor.parameters
      through (.rebuilt owner) (Step.lift (constructor.build arguments))
  | .assign initial => assignFields decode owner 0 description.fields initial
  | .unavailable => through (.rebuilt owner) (Step.fail (.noConstructorAvailable owner.name))

end Scene

/-- Answers a request like `answer`, reports causes without fields and notes the way. -/
def Serializer.traced (serializer : Serializer) :
    (depth : Nat) → (request : Request) → Step Scene request.Answer
  | _, .look => fun scene => .ok scene.buffer scene
  | _, .replace buffer => fun scene => .ok () { scene with buffer := buffer }
  | _, .path => fun scene => .ok (scene.way.aggregates.reverse.map Ty.name) scene
  | 0, .encode _ => Step.fail .depthExceeded
  | 0, .decode _ => Step.fail .depthExceeded
  | 0, .encodeFields _ _ _ => Step.fail .depthExceeded
  | 0, .decodeFields _ _ => Step.fail .depthExceeded
  | 0, .encodeResolved _ _ => Step.fail .depthExceeded
  | 0, .decodeResolved _ => Step.fail .depthExceeded
  | depth + 1, .encode context =>
      Scene.through (.place context)
        (match context.value with
        | none => Step.fail (.unexpectedNull context.declared.name)
        | some value => do
            let codec ← Step.lift (serializer.freshCodec context)
            let inner ← Step.lift (context.project value)
            (codec.encode inner).run (serializer.traced depth))
  | depth + 1, .decode context =>
      Scene.through (.place context) do
        let codec ← Step.lift (serializer.freshCodec context)
        let inner ← codec.decode.run (serializer.traced depth)
        Step.lift (context.rewrap inner)
  | depth + 1, .encodeFields type description value =>
      Scene.enter type
        (Scene.encodeFields (fun context => serializer.traced depth (.encode context)) type value 0
          description.fields)
  | depth + 1, .decodeFields type description =>
      Scene.enter type
        (Scene.rebuild (fun context => serializer.traced depth (.decode context)) type description)
  | depth + 1, .encodeResolved context value => do
      match ← Step.lift (serializer.resolve context) with
      | none => return none
      | some codec => some <$> (codec.encode value).run (serializer.traced depth)
  | depth + 1, .decodeResolved context => do
      match ← Step.lift (serializer.resolve context) with
      | none => return none
      | some codec => some <$> codec.decode.run (serializer.traced depth)

/-- An operation with its failures seen from before a stop. -/
def Stop.around (stop : Stop) (operation : Buffer.Op α) : Buffer.Op α := fun buffer =>
  match operation buffer with
  | .ok result after => .ok result after
  | .error error after => .error (error.within (Way.fields [stop])) after

/-- A failure before a stop is no other than one at it, unless it is in a field. -/
theorem Stop.around_eq (stop : Stop) (none : stop.field? = none) (operation : Buffer.Op α) :
    stop.around operation = operation := by
  have fields : Way.fields [stop] = [] := by simp [Way.fields, none]
  funext buffer
  unfold around
  rw [fields]
  cases operation buffer <;> rfl

/-- A failure at a field is one in the field. -/
theorem Stop.around_field (owner : Ty) (name : String) (operation : Buffer.Op α) :
    (Stop.field owner name).around operation = Step.inField owner.name name operation := by
  funext buffer
  unfold around Step.inField
  cases operation buffer <;> rfl

/-- A traced step and an operation end alike: with one result and the way back where it was, or
    with a cause at the end of a longer way and the cause within the fields on what is longer. The
    buffer is the same and in the given mode. -/
inductive Scene.Ends (schema : Schema) (way : Way) (mode : Mode) :
    EStateM.Result Error Scene α → EStateM.Result Error Buffer α → Prop
  | ok (result : α) (buffer : Buffer) (kept : buffer.mode = mode) :
      Ends schema way mode (.ok result ⟨buffer, way⟩) (.ok result buffer)
  | error (cause : Error) (buffer : Buffer) (further : Way)
      (raises : Way.Raises schema (further ++ way) cause) :
      Ends schema way mode (.error cause ⟨buffer, further ++ way⟩)
        (.error (cause.within further.fields) buffer)

/-- On the way the step shows where the operation fails, and what for. -/
def Traces (schema : Schema) (way : Way) (step : Step Scene α) (operation : Buffer.Op α) : Prop :=
  ∀ buffer, Scene.Ends schema way buffer.mode (step ⟨buffer, way⟩) (operation buffer)

namespace Traces

variable {schema : Schema} {way : Way}

/-- A result is where it was. -/
theorem pure (result : α) : Traces schema way (pure result) (pure result) :=
  fun buffer => .ok result buffer rfl

/-- Failing at the end of the way for a cause that is raised there. -/
theorem fail {cause : Error} (raises : way.Raises schema cause) :
    Traces schema way (Step.fail cause : Step Scene α) (Step.fail cause) :=
  fun buffer => .error cause buffer [] raises

/-- A known outcome whose cause is bare. -/
theorem lift {outcome : Except Error α} (leads : way.Leads schema)
    (bare : Error.BareIn outcome) : Traces schema way (Step.lift outcome) (Step.lift outcome) := by
  cases outcome with
  | ok result => exact pure result
  | error cause => exact fail (.bare way cause leads (bare cause rfl))

/-- Work on the buffer that fails for bare causes. -/
theorem work {operation : Buffer.Op α} (leads : way.Leads schema)
    (bare : Buffer.Bare operation) : Traces schema way (Scene.work operation) operation := by
  intro buffer
  have kept := bare.mode buffer
  unfold Scene.work
  cases ended : operation buffer with
  | ok result after =>
      rw [ended] at kept
      exact .ok result after kept
  | error cause after =>
      exact .error cause after [] (.bare way cause leads (bare.cause buffer cause after ended))

/-- One step after another. -/
theorem bind {step : Step Scene α} {operation : Buffer.Op α} {next : α → Step Scene β}
    {nextOperation : α → Buffer.Op β} (first : Traces schema way step operation)
    (second : ∀ result, Traces schema way (next result) (nextOperation result)) :
    Traces schema way (step >>= next) (operation >>= nextOperation) := by
  intro buffer
  have ends := first buffer
  rw [Step.bind_apply, Step.bind_apply]
  generalize step ⟨buffer, way⟩ = traced at ends ⊢
  generalize operation buffer = outcome at ends ⊢
  cases ends with
  | ok result after kept =>
      rw [← kept]
      exact second result after
  | error cause after further raises => exact .error cause after further raises

/-- What follows a known result need only be traced where there is one. -/
theorem bind_lift {outcome : Except Error α} {next : α → Step Scene β}
    {nextOperation : α → Buffer.Op β} (leads : way.Leads schema) (bare : Error.BareIn outcome)
    (second : ∀ result, outcome = .ok result →
      Traces schema way (next result) (nextOperation result)) :
    Traces schema way (Step.lift outcome >>= next) (Step.lift outcome >>= nextOperation) := by
  cases outcome with
  | ok result => exact second result rfl
  | error cause => exact fail (.bare way cause leads (bare cause rfl))

/-- Changing the result. -/
theorem map {step : Step Scene α} {operation : Buffer.Op α} (change : α → β)
    (traces : Traces schema way step operation) :
    Traces schema way (change <$> step) (change <$> operation) := by
  rw [map_eq_pure_bind, map_eq_pure_bind]
  exact traces.bind fun result => pure (change result)

/-- What is traced at a further stop is traced from before it, and a failure is in the field that
    the stop is in. -/
theorem through (stop : Stop) {step : Step Scene α} {operation : Buffer.Op α}
    (traces : Traces schema (stop :: way) step operation) :
    Traces schema way (Scene.through stop step) (stop.around operation) := by
  intro buffer
  have ends := traces buffer
  unfold Scene.through Stop.around
  generalize step ⟨buffer, stop :: way⟩ = traced at ends ⊢
  generalize operation buffer = outcome at ends ⊢
  cases ends with
  | ok result after kept => exact .ok result after kept
  | error cause after further raises =>
      have longer : further ++ stop :: way = (further ++ [stop]) ++ way := by simp
      have within : (cause.within further.fields).within (Way.fields [stop])
          = cause.within (Way.fields (further ++ [stop])) := by
        rw [Way.fields_append, Error.within_append]
      simp only [within]
      rw [longer] at raises ⊢
      exact .error cause after (further ++ [stop]) raises

/-- What is traced at a place is traced from before it. -/
theorem place (context : Context) {step : Step Scene α} {operation : Buffer.Op α}
    (traces : Traces schema (.place context :: way) step operation) :
    Traces schema way (Scene.through (.place context) step) operation := by
  rw [← Stop.around_eq (.place context) rfl operation]
  exact traces.through

/-- What is traced in a field is traced from outside of it with the field named. -/
theorem field (owner : Ty) (name : String) {step : Step Scene α} {operation : Buffer.Op α}
    (traces : Traces schema (.field owner name :: way) step operation) :
    Traces schema way (Scene.through (.field owner name) step)
      (Step.inField owner.name name operation) := by
  rw [← Stop.around_field]
  exact traces.through

/-- What is traced at putting an aggregate together is traced from inside of it. -/
theorem rebuilt (owner : Ty) {step : Step Scene α} {operation : Buffer.Op α}
    (traces : Traces schema (.rebuilt owner :: way) step operation) :
    Traces schema way (Scene.through (.rebuilt owner) step) operation := by
  rw [← Stop.around_eq (.rebuilt owner) rfl operation]
  exact traces.through

/-- What is traced inside of an aggregate is traced from outside of it. The aggregate is refused
    if it is being walked. -/
theorem enter (type : Ty) {step : Step Scene α} {operation : Buffer.Op α}
    (leads : way.Leads schema)
    (inside : type ∉ way.aggregates → Traces schema (.entered type :: way) step operation) :
    Traces schema way (Scene.enter type step)
      (if way.aggregates.contains type then Step.fail (.circularReference type.name)
       else operation) := by
  intro buffer
  by_cases known : type ∈ way.aggregates
  · have refused : Traces schema way
        (Scene.through (.refused type) (Step.fail (.circularReference type.name) : Step Scene α))
        (Stop.around (.refused type) (Step.fail (.circularReference type.name))) :=
      (fail (.circular way type leads known)).through
    rw [Stop.around_eq (.refused type) rfl] at refused
    simpa [Scene.enter, known] using refused buffer
  · have entered : Traces schema way (Scene.through (.entered type) step)
        (Stop.around (.entered type) operation) := (inside known).through
    rw [Stop.around_eq (.entered type) rfl] at entered
    simpa [Scene.enter, known] using entered buffer

end Traces

end Wireform
