import Wireform.Serializer

/-!
# Answers without a memory

A walk remembers codecs and reports events, but neither should show in what it
does to its buffer. `answer` serves the same requests as `serve` and keeps nothing:
every codec is resolved afresh, nothing is reported, and the stack of aggregates is
an argument in place of a part of the state. The only state is the buffer.

A walk follows an operation on its buffer if it ends as the operation does, leaves
the same buffer and puts the stack back, whatever happens to its memory meanwhile.
The rules below say which constructions keep this; that walks follow their answers
is proved from them once for all serializers.
-/

namespace Wireform

variable {σ τ α β : Type}

namespace Step

/-- The same end of a step with the state seen through a function. -/
def carry (view : σ → τ) : EStateM.Result Error σ α → EStateM.Result Error τ α
  | .ok result state => .ok result (view state)
  | .error error state => .error error (view state)

/-- A success seen through a function is a success. -/
theorem carry_eq_ok {view : σ → τ} {outcome : EStateM.Result Error σ α} {result : α} {seen : τ}
    (carried : carry view outcome = .ok result seen) :
    ∃ state, outcome = .ok result state ∧ view state = seen := by
  cases outcome with
  | ok found state => cases carried; exact ⟨state, rfl, rfl⟩
  | error error state => cases carried

/-- A failure seen through a function is a failure. -/
theorem carry_eq_error {view : σ → τ} {outcome : EStateM.Result Error σ α} {error : Error}
    {seen : τ} (carried : carry view outcome = .error error seen) :
    ∃ state, outcome = .error error state ∧ view state = seen := by
  cases outcome with
  | ok found state => cases carried
  | error cause state => cases carried; exact ⟨state, rfl, rfl⟩

/-- A state that is seen through two functions is seen through both in turn. -/
theorem carry_carry {υ : Type} (view : σ → τ) (further : τ → υ)
    (outcome : EStateM.Result Error σ α) :
    carry further (carry view outcome) = carry (further ∘ view) outcome := by
  cases outcome <;> rfl

/-- A succession of steps on a given state. -/
theorem bind_apply (step : Step σ α) (next : α → Step σ β) (state : σ) :
    (step >>= next) state =
      match step state with
      | .ok result after => next result after
      | .error error after => .error error after := by
  change EStateM.bind step next state = _
  unfold EStateM.bind
  cases step state <;> rfl

/-- A successful result is handed on at once. -/
@[simp] theorem lift_ok (result : α) : (lift (.ok result) : Step σ α) = pure result := rfl

/-- Only a known result is a success. -/
theorem lift_eq_ok {outcome : Except Error α} {result : α} {state after : σ}
    (lifted : lift outcome state = .ok result after) : outcome = .ok result := by
  cases outcome with
  | ok found => cases lifted; rfl
  | error error => cases lifted

/-- Only a known failure is one. -/
theorem lift_eq_error {outcome : Except Error α} {error : Error} {state after : σ}
    (lifted : lift outcome state = .error error after) : outcome = .error error := by
  cases outcome with
  | ok found => cases lifted
  | error cause => cases lifted; rfl

/-- A known result is a success, and nothing else is. -/
theorem exists_lift_eq_ok (outcome : Except Error α) (result : α) (state : σ) :
    (∃ after, lift outcome state = .ok result after) ↔ outcome = .ok result := by
  constructor
  · rintro ⟨after, lifted⟩
    exact lift_eq_ok lifted
  · rintro rfl
    exact ⟨state, rfl⟩

/-- The state that a step has left behind, however it ended. -/
def left : EStateM.Result Error σ α → σ
  | .ok _ state => state
  | .error _ state => state

/-- Whether a step came to a result. -/
def succeeded : EStateM.Result Error σ α → Bool
  | .ok _ _ => true
  | .error _ _ => false

/-- A step that came to a result has one. -/
theorem exists_of_succeeded {outcome : EStateM.Result Error σ α}
    (succeeds : succeeded outcome = true) : ∃ result state, outcome = .ok result state := by
  cases outcome with
  | ok result state => exact ⟨result, state, rfl⟩
  | error error state => cases succeeds

/-- What a step came to, if it succeeded. -/
def result? : EStateM.Result Error σ α → Option α
  | .ok result _ => some result
  | .error _ _ => none

/-- A step that came to a result is a success with it. -/
theorem exists_of_result? {outcome : EStateM.Result Error σ α} {result : α}
    (comes : result? outcome = some result) : ∃ state, outcome = .ok result state := by
  cases outcome with
  | ok found state => cases comes; exact ⟨state, rfl⟩
  | error error state => cases comes

/-- Why a step failed, if it did. -/
def failure? : EStateM.Result Error σ α → Option Error
  | .ok _ _ => none
  | .error error _ => some error

/-- A step that failed for a reason is a failure for it. -/
theorem exists_of_failure? {outcome : EStateM.Result Error σ α} {error : Error}
    (fails : failure? outcome = some error) : ∃ state, outcome = .error error state := by
  cases outcome with
  | ok result state => cases fails
  | error cause state => cases fails; exact ⟨state, rfl⟩

end Step

namespace Program

/-- A program that makes one request is answered like the request. -/
@[simp] theorem run_perform (serve : (request : Request) → Step σ request.Answer)
    (request : Request) : (perform request).run serve = serve request := by
  funext state
  simp only [perform, run]
  cases serve request state <;> rfl

/-- A result or a failure stays what it is. -/
@[simp] theorem run_lift (serve : (request : Request) → Step σ request.Answer)
    (outcome : Except Error α) : (lift outcome).run serve = Step.lift outcome := by
  cases outcome <;> rfl

/-- Running a succession of programs is running one after the other. The requests
of the first are answered before the second starts. -/
@[simp] theorem run_bind (serve : (request : Request) → Step σ request.Answer)
    (program : Program α) (next : α → Program β) :
    (program >>= next).run serve = program.run serve >>= fun result => (next result).run serve := by
  change (program.bind next).run serve = _
  induction program with
  | done result => rfl
  | fail error => rfl
  | ask request answered inductionHypothesis =>
      funext state
      rw [Step.bind_apply]
      simp only [bind, run, inductionHypothesis]
      cases serve request state <;> exact Step.bind_apply _ _ _

/-- Changing the result of a program changes the result of its run. -/
@[simp] theorem run_map (serve : (request : Request) → Step σ request.Answer)
    (change : α → β) (program : Program α) :
    (change <$> program).run serve = change <$> program.run serve := by
  rw [map_eq_pure_bind, map_eq_pure_bind, run_bind]
  rfl

/-- A buffer operation asks for the buffer, works on it and puts it back. Where the
buffer is part of a state, the rest of the state stays as it is. -/
theorem run_buffer_within (serve : (request : Request) → Step σ request.Answer)
    (view : σ → Buffer) (put : Buffer → σ → σ)
    (look : ∀ state, serve .look state = .ok (view state) state)
    (replace : ∀ after state, serve (.replace after) state = .ok () (put after state))
    (operation : Buffer.Op α) (state : σ) :
    (buffer operation).run serve state
      = Step.carry (fun after => put after state) (operation (view state)) := by
  rw [buffer, run_bind, run_perform, Step.bind_apply, look]
  cases ended : operation (view state) with
  | ok result after =>
      simp only [ended]
      rw [run_bind, run_perform, Step.bind_apply, replace]
      rfl
  | error error after =>
      simp only [ended]
      rw [run_bind, run_perform, Step.bind_apply, replace]
      rfl

/-- Served by anything that does as it is asked and has no other state, a buffer operation is the
operation itself. -/
theorem run_buffer (serve : (request : Request) → Buffer.Op request.Answer)
    (look : ∀ buffer, serve .look buffer = .ok buffer buffer)
    (replace : ∀ before after, serve (.replace after) before = .ok () after)
    (operation : Buffer.Op α) : (buffer operation).run serve = operation := by
  funext before
  rw [run_buffer_within serve id (fun after _ => after) look fun after state => replace state after]
  simp only [id_eq]
  cases operation before <;> rfl

end Program

namespace Serializer

/-- Answers a request without looking at or changing any memory, inside the given
aggregate types, with requests nested at most `depth` deep below it. -/
def answer (serializer : Serializer) :
    (depth : Nat) → (visited : List Ty) → (request : Request) → Buffer.Op request.Answer
  | _, _, .look => fun buffer => .ok buffer buffer
  | _, _, .replace buffer => fun _ => .ok () buffer
  | _, visited, .path => fun buffer => .ok (visited.reverse.map Ty.name) buffer
  | 0, _, .encode _ => Step.fail .depthExceeded
  | 0, _, .decode _ => Step.fail .depthExceeded
  | 0, _, .encodeFields _ _ _ => Step.fail .depthExceeded
  | 0, _, .decodeFields _ _ => Step.fail .depthExceeded
  | 0, _, .encodeResolved _ _ => Step.fail .depthExceeded
  | 0, _, .decodeResolved _ => Step.fail .depthExceeded
  | depth + 1, visited, .encode context =>
      match context.value with
      | none => Step.fail (.unexpectedNull context.declared.name)
      | some value => do
          let codec ← Step.lift (serializer.freshCodec context)
          let inner ← Step.lift (context.project value)
          (codec.encode inner).run (serializer.answer depth visited)
  | depth + 1, visited, .decode context => do
      let codec ← Step.lift (serializer.freshCodec context)
      let inner ← codec.decode.run (serializer.answer depth visited)
      Step.lift (context.rewrap inner)
  | depth + 1, visited, .encodeFields type aggregate value =>
      if visited.contains type then Step.fail (.circularReference type.name)
      else
        encodeFields (fun context => serializer.answer depth (type :: visited) (.encode context))
          type value 0 aggregate.fields
  | depth + 1, visited, .decodeFields type aggregate =>
      if visited.contains type then Step.fail (.circularReference type.name)
      else
        rebuild (fun context => serializer.answer depth (type :: visited) (.decode context))
          type aggregate
  | depth + 1, visited, .encodeResolved context value => do
      match ← Step.lift (serializer.resolve context) with
      | none => return none
      | some codec => some <$> (codec.encode value).run (serializer.answer depth visited)
  | depth + 1, visited, .decodeResolved context => do
      match ← Step.lift (serializer.resolve context) with
      | none => return none
      | some codec => some <$> codec.decode.run (serializer.answer depth visited)

/-- Looking at the buffer shows it as it is, at any depth. -/
@[simp] theorem answer_look (serializer : Serializer) (depth : Nat) (visited : List Ty)
    (buffer : Buffer) : serializer.answer depth visited .look buffer = .ok buffer buffer := by
  cases depth <;> rfl

/-- Another buffer takes the place of the present one, at any depth. -/
@[simp] theorem answer_replace (serializer : Serializer) (depth : Nat) (visited : List Ty)
    (before after : Buffer) :
    serializer.answer depth visited (.replace after) before = .ok () after := by
  cases depth <;> rfl

/-- A buffer operation is answered by the operation itself. -/
@[simp] theorem run_buffer_answer (serializer : Serializer) (depth : Nat) (visited : List Ty)
    (operation : Buffer.Op α) :
    (Program.buffer operation).run (serializer.answer depth visited) = operation :=
  Program.run_buffer _ (serializer.answer_look depth visited)
    (serializer.answer_replace depth visited) operation

end Serializer

end Wireform
