import Wireform.Proofs.Answer

/-!
# Reports are not looked at

A walk adds to the events in its memory and never looks at them. Two walks whose memories differ in
what had been reported before they began are the same walk, step by step, down to the codecs that
they remember and to what they report themselves.

This is an instance of two steps that agree through a view of their states: whatever the one does,
the other does to what is seen of the state. There is one rule for each construction that walks are
made of. Only where memory is touched, in looking up codecs and in descending, does it matter that
the view leaves out what was reported before.
-/

namespace Wireform

variable {σ τ α β : Type}

namespace Step

/-- Whatever the step does to a state, the other does to what is seen of it. -/
def Agrees (view : σ → τ) (step : Step σ α) (other : Step τ α) : Prop :=
  ∀ state, other (view state) = carry view (step state)

variable {view : σ → τ} {step : Step σ α} {other : Step τ α}

/-- Yielding a result agrees with yielding it. -/
theorem agrees_pure (result : α) : Agrees view (pure result) (pure result) := fun _ => rfl

/-- Failing agrees with failing. -/
theorem agrees_fail (error : Error) : Agrees (α := α) view (fail error) (fail error) := fun _ => rfl

/-- A known outcome agrees with itself. -/
theorem agrees_lift (outcome : Except Error α) : Agrees view (lift outcome) (lift outcome) := by
  cases outcome with
  | ok result => exact agrees_pure result
  | error error => exact agrees_fail error

/-- Successions agree if the first steps and all that may follow them do. -/
theorem agrees_bind {next : α → Step σ β} {nextOther : α → Step τ β}
    (first : Agrees view step other) (second : ∀ result, Agrees view (next result) (nextOther result)) :
    Agrees view (step >>= next) (other >>= nextOther) := by
  intro state
  rw [bind_apply, bind_apply, first state]
  cases step state with
  | ok result after => exact second result after
  | error error after => rfl

/-- Changing the results of both keeps them in agreement. -/
theorem agrees_map (change : α → β) (agrees : Agrees view step other) :
    Agrees view (change <$> step) (change <$> other) := by
  rw [map_eq_pure_bind, map_eq_pure_bind]
  exact agrees_bind agrees fun result => agrees_pure (change result)

/-- Naming the field of a failure on both sides keeps them in agreement. -/
theorem agrees_inField (owner name : String) (agrees : Agrees view step other) :
    Agrees view (inField owner name step) (inField owner name other) := by
  intro state
  simp only [inField, agrees state]
  cases step state <;> rfl

/-- Programs agree if all their requests are served in agreement, failed ones included. -/
theorem agrees_run {serve : (request : Request) → Step σ request.Answer}
    {serveOther : (request : Request) → Step τ request.Answer}
    (served : ∀ request, Agrees view (serve request) (serveOther request)) (program : Program α) :
    Agrees view (program.run serve) (program.run serveOther) := by
  induction program with
  | done result => exact agrees_pure result
  | fail error => exact agrees_fail error
  | ask request next inductionHypothesis =>
      intro state
      simp only [Program.run, served request state]
      cases serve request state with
      | ok answer after => exact inductionHypothesis (.ok answer) after
      | error error after => exact inductionHypothesis (.error error) after

end Step

namespace Serializer

open Step

/-! ## Aggregates -/

section Aggregates

variable {view : σ → τ}

/-- Fields are encoded in agreement if values are. -/
theorem agrees_encodeFields {encode : Context → Step σ Unit} {other : Context → Step τ Unit}
    (each : ∀ context, Agrees view (encode context) (other context)) (owner : Ty) (value : Value)
    (index : Nat) (fields : List Field) :
    Agrees view (encodeFields encode owner value index fields)
      (encodeFields other owner value index fields) := by
  induction fields generalizing index with
  | nil => exact agrees_pure ()
  | cons field rest inductionHypothesis =>
      refine agrees_bind (agrees_inField _ _ ?_) fun _ => inductionHypothesis (index + 1)
      exact agrees_bind (agrees_lift _) fun child => each _

variable {decode : Context → Step σ Value} {other : Context → Step τ Value}

/-- Arguments are decoded in agreement if values are. -/
theorem agrees_decodeArguments (each : ∀ context, Agrees view (decode context) (other context))
    (owner : Ty) (constructor position : Nat) (parameters : List Parameter) :
    Agrees view (decodeArguments decode owner constructor position parameters)
      (decodeArguments other owner constructor position parameters) := by
  induction parameters generalizing position with
  | nil => exact agrees_pure []
  | cons parameter rest inductionHypothesis =>
      refine agrees_bind (agrees_inField _ _ (each _)) fun argument => ?_
      exact agrees_bind (inductionHypothesis (position + 1)) fun others => agrees_pure _

/-- Fields are assigned in agreement if values are decoded so. -/
theorem agrees_assignFields (each : ∀ context, Agrees view (decode context) (other context))
    (owner : Ty) (index : Nat) (fields : List Field) (value : Value) :
    Agrees view (assignFields decode owner index fields value)
      (assignFields other owner index fields value) := by
  induction fields generalizing index value with
  | nil => exact agrees_pure value
  | cons field rest inductionHypothesis =>
      refine agrees_bind (agrees_inField _ _ ?_) fun assigned =>
        inductionHypothesis (index + 1) assigned
      exact agrees_bind (each _) fun decoded => agrees_lift _

/-- Aggregates are rebuilt in agreement if values are decoded so, by either strategy and without
    one. -/
theorem agrees_rebuild (each : ∀ context, Agrees view (decode context) (other context))
    (owner : Ty) (description : Aggregate) :
    Agrees view (rebuild decode owner description) (rebuild other owner description) := by
  unfold rebuild
  cases description.strategy with
  | construct index constructor =>
      exact agrees_bind (agrees_decodeArguments each owner index 0 _) fun arguments => agrees_lift _
  | assign initial => exact agrees_assignFields each owner 0 _ initial
  | unavailable => exact agrees_fail _

end Aggregates

end Serializer

/-! ## Earlier events -/

/-- The memory with earlier events behind those that it holds. -/
def Memory.since (earlier : List Event) (memory : Memory) : Memory :=
  ⟨memory.cache, memory.events ++ earlier⟩

/-- The state of a walk with earlier events in its memory. -/
def Walk.State.since (earlier : List Event) (state : Walk.State) : Walk.State :=
  { state with memory := state.memory.since earlier }

namespace Serializer

open Step

variable (serializer : Serializer) (earlier : List Event)

/-- Earlier events have no part in descending. -/
theorem agrees_descend (type : Ty) {walk other : Walk α}
    (agrees : Agrees (Walk.State.since earlier) walk other) :
    Agrees (Walk.State.since earlier) (Walk.descend type walk) (Walk.descend type other) := by
  intro state
  by_cases circular : state.visited.contains type = true
  · simp only [Walk.descend, Walk.State.since, circular, if_true]
    rfl
  · have inside := agrees { state with
        visited := type :: state.visited
        memory := { state.memory with
          events := .descending type.name state.visited.length :: state.memory.events } }
    simp only [Walk.State.since, Memory.since, List.cons_append] at inside
    simp only [Walk.descend, Walk.State.since, Memory.since, circular, inside]
    cases walk _ <;> rfl

/-- Earlier events have no part in which codec is looked up or resolved, and none in what is
    remembered of it. -/
theorem agrees_codecFor (context : Context) :
    Agrees (Walk.State.since earlier) (serializer.codecFor context) (serializer.codecFor context) := by
  intro state
  simp only [codecFor, Walk.State.since, Memory.since]
  split
  · rfl
  · cases serializer.freshCodec context <;> rfl

/-- Earlier events have no part in how requests are served. The induction is on how deep requests
    may nest; each case hands its own requests to the level below. -/
theorem agrees_serve (depth : Nat) (request : Request) :
    Agrees (Walk.State.since earlier) (serializer.serve depth request)
      (serializer.serve depth request) := by
  induction depth generalizing request with
  | zero =>
      cases request with
      | look => exact fun _ => rfl
      | replace buffer => exact fun _ => rfl
      | path => exact fun _ => rfl
      | _ => exact agrees_fail _
  | succ depth inductionHypothesis =>
      cases request with
      | look => exact fun _ => rfl
      | replace buffer => exact fun _ => rfl
      | path => exact fun _ => rfl
      | encode context =>
          simp only [serve]
          cases context.value with
          | none => exact agrees_fail _
          | some value =>
              refine agrees_bind (serializer.agrees_codecFor earlier context) fun codec =>
                agrees_bind (agrees_lift _) fun inner => ?_
              exact agrees_run inductionHypothesis (codec.encode inner)
      | decode context =>
          refine agrees_bind (serializer.agrees_codecFor earlier context) fun codec =>
            agrees_bind ?_ fun inner => agrees_lift _
          exact agrees_run inductionHypothesis codec.decode
      | encodeFields type description value =>
          exact agrees_descend earlier type (agrees_encodeFields
            (fun context => inductionHypothesis (.encode context)) type value 0 _)
      | decodeFields type description =>
          exact agrees_descend earlier type (agrees_rebuild
            (fun context => inductionHypothesis (.decode context)) type description)
      | encodeResolved context value =>
          simp only [serve]
          refine agrees_bind (agrees_lift _) fun found => ?_
          cases found with
          | none => exact agrees_pure none
          | some codec => exact agrees_map some (agrees_run inductionHypothesis (codec.encode value))
      | decodeResolved context =>
          simp only [serve]
          refine agrees_bind (agrees_lift _) fun found => ?_
          cases found with
          | none => exact agrees_pure none
          | some codec => exact agrees_map some (agrees_run inductionHypothesis codec.decode)

/-- Decoding a described type does the same whatever had been reported before. -/
theorem decodeType_since (type : Ty) (buffer : Buffer) (memory : Memory) :
    serializer.decodeType type buffer (memory.since earlier)
      = carry (Walk.State.since earlier) (serializer.decodeType type buffer memory) :=
  serializer.agrees_serve earlier _ _ { buffer := buffer, memory := memory }

end Serializer

end Wireform
