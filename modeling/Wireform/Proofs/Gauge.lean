import Wireform.Proofs.Memory
import Wireform.Proofs.Shape

/-!
# Gauged walks

How deep a walk nests does not show in what it does to its buffer. A gauge goes along with
the buffer and records it: how many requests to encode or decode were inside each other, which
stacks of aggregates were walked, and whether a request was refused because no more of
them were allowed. `gauged` answers requests as `answer` does and keeps the gauge.

What is to be shown of a gauge is that it stays within bounds that are known beforehand. A
gauged step is measured by a bound on the nesting, together with a condition under which
nothing is refused; under the same condition a larger allowance must come out alike, so
that the allowance is seen to have no part in the outcome.
-/

namespace Wireform

variable {α β : Type}

/-- A buffer and what is known of the walk that works on it. -/
structure Gauge where
  buffer : Buffer
  /-- How many requests to encode or decode have been inside each other at most. -/
  nested : Nat := 0
  /-- The stacks of aggregate types that have been entered, each innermost first. -/
  entered : List (List Ty) := []
  /-- Whether a request came when no more of them were allowed. -/
  refused : Bool := false

namespace Gauge

/-- Records a request that is inside of as many as the level says, itself included. -/
def reach (level : Nat) : Step Gauge Unit := fun gauge =>
  .ok () { gauge with nested := max gauge.nested level }

/-- Records a stack of aggregates that is entered. -/
def enter (stack : List Ty) : Step Gauge Unit := fun gauge =>
  .ok () { gauge with entered := stack :: gauge.entered }

/-- Refuses a request because no more of them are allowed, and records that. -/
def refuse : Step Gauge α := fun gauge =>
  .error .depthExceeded { gauge with refused := true }

end Gauge

/-- Answers a request like `answer`, as the one inside of `level` others, and keeps a gauge. -/
def Serializer.gauged (serializer : Serializer) :
    (depth : Nat) → (visited : List Ty) → (level : Nat) → (request : Request) →
      Step Gauge request.Answer
  | _, _, _, .look => fun gauge => .ok gauge.buffer gauge
  | _, _, _, .replace buffer => fun gauge => .ok () { gauge with buffer := buffer }
  | _, visited, _, .path => fun gauge => .ok (visited.reverse.map Ty.name) gauge
  | 0, _, _, .encode _ => Gauge.refuse
  | 0, _, _, .decode _ => Gauge.refuse
  | 0, _, _, .encodeFields _ _ _ => Gauge.refuse
  | 0, _, _, .decodeFields _ _ => Gauge.refuse
  | 0, _, _, .encodeResolved _ _ => Gauge.refuse
  | 0, _, _, .decodeResolved _ => Gauge.refuse
  | depth + 1, visited, level, .encode context => do
      Gauge.reach (level + 1)
      match context.value with
      | none => Step.fail (.unexpectedNull context.declared.name)
      | some value => do
          let codec ← Step.lift (serializer.freshCodec context)
          let inner ← Step.lift (context.project value)
          (codec.encode inner).run (serializer.gauged depth visited (level + 1))
  | depth + 1, visited, level, .decode context => do
      Gauge.reach (level + 1)
      let codec ← Step.lift (serializer.freshCodec context)
      let inner ← codec.decode.run (serializer.gauged depth visited (level + 1))
      Step.lift (context.rewrap inner)
  | depth + 1, visited, level, .encodeFields type aggregate value =>
      if visited.contains type then Step.fail (.circularReference type.name)
      else do
        Gauge.enter (type :: visited)
        encodeFields
          (fun context => serializer.gauged depth (type :: visited) level (.encode context))
          type value 0 aggregate.fields
  | depth + 1, visited, level, .decodeFields type aggregate =>
      if visited.contains type then Step.fail (.circularReference type.name)
      else do
        Gauge.enter (type :: visited)
        rebuild (fun context => serializer.gauged depth (type :: visited) level (.decode context))
          type aggregate
  | depth + 1, visited, level, .encodeResolved context value => do
      match ← Step.lift (serializer.resolve context) with
      | none => return none
      | some codec => some <$> (codec.encode value).run (serializer.gauged depth visited level)
  | depth + 1, visited, level, .decodeResolved context => do
      match ← Step.lift (serializer.resolve context) with
      | none => return none
      | some codec => some <$> codec.decode.run (serializer.gauged depth visited level)

/-- From one gauge to another the nesting has grown to a bound at most, no stack with a type
    twice has been entered, and nothing has been refused if that is not to be. -/
structure Gauge.Within (bound : Nat) (enough : Prop) (before after : Gauge) : Prop where
  nested : after.nested ≤ max before.nested bound
  entered : ∀ stack ∈ after.entered, stack ∈ before.entered ∨ stack.Nodup
  refused : enough → after.refused = before.refused

namespace Gauge.Within

variable {bound other : Nat} {enough more : Prop} {before between after : Gauge}

/-- A gauge is within any bounds of itself. -/
theorem refl (gauge : Gauge) : Within bound enough gauge gauge :=
  ⟨Nat.le_max_left _ _, fun _ among => .inl among, fun _ => rfl⟩

/-- What stays within bounds twice has stayed within them. -/
theorem trans (first : Within bound enough before between)
    (second : Within bound enough between after) : Within bound enough before after := by
  refine ⟨?_, fun stack among => ?_, fun holds => ?_⟩
  · have earlier := first.nested
    have later := second.nested
    omega
  · obtain earlier | distinct := second.entered stack among
    · exact first.entered stack earlier
    · exact .inr distinct
  · exact (second.refused holds).trans (first.refused holds)

/-- What is within bounds is within wider ones. -/
theorem mono (within : Within bound enough before after) (wider : bound ≤ other)
    (implies : more → enough) : Within other more before after := by
  refine ⟨?_, within.entered, fun holds => within.refused (implies holds)⟩
  have nested := within.nested
  omega

end Gauge.Within

/-- The gauged step does to its buffer what the operation does and stays within a bound. If
    there is depth enough it refuses nothing, and the operation that has been allowed more
    comes out alike. -/
def Measured (bound : Nat) (enough : Prop) (step : Step Gauge α)
    (operation longer : Buffer.Op α) : Prop :=
  ∀ gauge, Step.carry Gauge.buffer (step gauge) = operation gauge.buffer ∧
    Gauge.Within bound enough gauge (Step.left (step gauge)) ∧
    (enough → longer gauge.buffer = operation gauge.buffer)

namespace Measured

variable {bound other : Nat} {enough more : Prop} {step : Step Gauge α}
  {operation longer : Buffer.Op α}

/-- A result needs no depth. -/
theorem pure (result : α) : Measured bound enough (pure result) (pure result) (pure result) :=
  fun gauge => ⟨rfl, .refl gauge, fun _ => rfl⟩

/-- A failure needs no depth. -/
theorem fail (error : Error) :
    Measured bound enough (Step.fail error : Step Gauge α) (Step.fail error) (Step.fail error) :=
  fun gauge => ⟨rfl, .refl gauge, fun _ => rfl⟩

/-- A known outcome needs no depth. -/
theorem lift (outcome : Except Error α) :
    Measured bound enough (Step.lift outcome) (Step.lift outcome) (Step.lift outcome) := by
  cases outcome with
  | ok result => exact pure result
  | error error => exact fail error

/-- A succession stays within the bound that both stay within. -/
theorem bind {next : α → Step Gauge β} {nextOperation nextLonger : α → Buffer.Op β}
    (first : Measured bound enough step operation longer)
    (second : ∀ result,
      Measured bound enough (next result) (nextOperation result) (nextLonger result)) :
    Measured bound enough (step >>= next) (operation >>= nextOperation)
      (longer >>= nextLonger) := by
  intro gauge
  obtain ⟨carried, within, alike⟩ := first gauge
  simp only [Step.bind_apply]
  cases ended : step gauge with
  | error error after =>
      rw [ended] at carried within
      rw [← carried] at alike ⊢
      refine ⟨rfl, within, fun holds => ?_⟩
      rw [alike holds]
      rfl
  | ok result after =>
      rw [ended] at carried within
      rw [← carried] at alike ⊢
      obtain ⟨carriedNext, withinNext, alikeNext⟩ := second result after
      refine ⟨carriedNext, within.trans withinNext, fun holds => ?_⟩
      rw [alike holds]
      exact alikeNext holds

/-- What follows a known outcome is measured if it is measured for the result, if there is
    one. -/
theorem lift_bind {outcome : Except Error α} {next : α → Step Gauge β}
    {nextOperation nextLonger : α → Buffer.Op β}
    (each : ∀ result, outcome = .ok result →
      Measured bound enough (next result) (nextOperation result) (nextLonger result)) :
    Measured bound enough (Step.lift outcome >>= next) (Step.lift outcome >>= nextOperation)
      (Step.lift outcome >>= nextLonger) := by
  cases outcome with
  | ok result => exact each result rfl
  | error error => exact fail error

/-- Naming the field of a failure needs no depth. -/
theorem inField (owner name : String) (measured : Measured bound enough step operation longer) :
    Measured bound enough (Step.inField owner name step) (Step.inField owner name operation)
      (Step.inField owner name longer) := by
  intro gauge
  obtain ⟨carried, within, alike⟩ := measured gauge
  simp only [Step.inField]
  cases ended : step gauge with
  | error error after =>
      rw [ended] at carried within
      rw [← carried] at alike ⊢
      exact ⟨rfl, within, fun holds => by rw [alike holds]⟩
  | ok result after =>
      rw [ended] at carried within
      rw [← carried] at alike ⊢
      exact ⟨rfl, within, fun holds => by rw [alike holds]⟩

/-- What stays within bounds stays within wider ones. -/
theorem mono (measured : Measured bound enough step operation longer) (wider : bound ≤ other)
    (implies : more → enough) : Measured other more step operation longer := by
  intro gauge
  obtain ⟨carried, within, alike⟩ := measured gauge
  exact ⟨carried, within.mono wider implies, fun holds => alike (implies holds)⟩

/-- Recording what is within the bound changes nothing else. -/
theorem reach {level : Nat} (inside : level ≤ bound)
    (measured : Measured bound enough step operation longer) :
    Measured bound enough (do Gauge.reach level; step) operation longer := by
  intro gauge
  obtain ⟨carried, within, alike⟩ := measured { gauge with nested := max gauge.nested level }
  have recorded : Gauge.Within bound enough gauge
      { gauge with nested := max gauge.nested level } := by
    refine ⟨?_, fun _ among => .inl among, fun _ => rfl⟩
    simp only
    omega
  exact ⟨carried, recorded.trans within, alike⟩

/-- Recording a stack without repetitions changes nothing else. -/
theorem enter {stack : List Ty} (distinct : stack.Nodup)
    (measured : Measured bound enough step operation longer) :
    Measured bound enough (do Gauge.enter stack; step) operation longer := by
  intro gauge
  obtain ⟨carried, within, alike⟩ := measured { gauge with entered := stack :: gauge.entered }
  have recorded : Gauge.Within bound enough gauge
      { gauge with entered := stack :: gauge.entered } := by
    refine ⟨Nat.le_max_left _ _, fun other among => ?_, fun _ => rfl⟩
    obtain rfl | earlier := List.mem_cons.mp among
    · exact .inr distinct
    · exact .inl earlier
  exact ⟨carried, recorded.trans within, alike⟩

/-- A refusal has recorded itself, which is within bounds where there is not depth enough. -/
theorem refuse (short : ¬ enough) (longer : Buffer.Op α) :
    Measured bound enough (Gauge.refuse : Step Gauge α) (Step.fail .depthExceeded) longer :=
  fun _ => ⟨rfl, ⟨Nat.le_max_left _ _, fun _ among => .inl among, fun holds => absurd holds short⟩,
    fun holds => absurd holds short⟩

/-- A program stays within the bounds that all requests it makes stay within. -/
theorem run {admits : Request → Prop} {serve : (request : Request) → Step Gauge request.Answer}
    {answer further : (request : Request) → Buffer.Op request.Answer}
    (served : ∀ request, admits request →
      Measured bound enough (serve request) (answer request) (further request))
    (program : Program α) (asks : program.Asks admits) :
    Measured bound enough (program.run serve) (program.run answer) (program.run further) := by
  induction program with
  | done result => exact pure result
  | fail error => exact fail error
  | ask request next inductionHypothesis =>
      intro gauge
      obtain ⟨carried, within, alike⟩ := served request asks.1 gauge
      simp only [Program.run]
      cases ended : serve request gauge with
      | error error after =>
          rw [ended] at carried within
          rw [← carried] at alike ⊢
          obtain ⟨carriedNext, withinNext, alikeNext⟩ := inductionHypothesis _ (asks.2 _) after
          refine ⟨carriedNext, within.trans withinNext, fun holds => ?_⟩
          rw [alike holds]
          exact alikeNext holds
      | ok result after =>
          rw [ended] at carried within
          rw [← carried] at alike ⊢
          obtain ⟨carriedNext, withinNext, alikeNext⟩ := inductionHypothesis _ (asks.2 _) after
          refine ⟨carriedNext, within.trans withinNext, fun holds => ?_⟩
          rw [alike holds]
          exact alikeNext holds

end Measured

/-! ## Aggregates -/

namespace Serializer

variable {bound : Nat} {enough : Prop}

/-- The fields of an aggregate stay within the bounds that each of them stays within. -/
theorem measured_encodeFields {step : Context → Step Gauge Unit}
    {operation longer : Context → Buffer.Op Unit} (owner : Ty) (value : Value) (index : Nat)
    (fields : List Field)
    (each : ∀ field ∈ fields, ∀ site child,
      let context := Context.ofPlace field.type field.markers site (some child)
      Measured bound enough (step context) (operation context) (longer context)) :
    Measured bound enough (encodeFields step owner value index fields)
      (encodeFields operation owner value index fields)
      (encodeFields longer owner value index fields) := by
  induction fields generalizing index with
  | nil => exact .pure ()
  | cons field rest inductionHypothesis =>
      refine Measured.bind (Measured.inField _ _ ?_) fun _ =>
        inductionHypothesis (index + 1) fun other later => each other (List.mem_cons_of_mem _ later)
      exact Measured.bind (.lift _) fun child =>
        each field List.mem_cons_self (.field owner index) child

/-- The arguments of a constructor stay within the bounds that each of them stays within. -/
theorem measured_decodeArguments {step : Context → Step Gauge Value}
    {operation longer : Context → Buffer.Op Value} (owner : Ty) (constructor position : Nat)
    (parameters : List Parameter)
    (each : ∀ parameter ∈ parameters, ∀ site,
      let context := Context.ofPlace parameter.type parameter.markers site none
      Measured bound enough (step context) (operation context) (longer context)) :
    Measured bound enough (decodeArguments step owner constructor position parameters)
      (decodeArguments operation owner constructor position parameters)
      (decodeArguments longer owner constructor position parameters) := by
  induction parameters generalizing position with
  | nil => exact .pure []
  | cons parameter rest inductionHypothesis =>
      refine Measured.bind (Measured.inField _ _ (each parameter List.mem_cons_self
        (.parameter owner constructor position))) fun argument => ?_
      exact Measured.bind (inductionHypothesis (position + 1) fun other later =>
        each other (List.mem_cons_of_mem _ later)) fun others => .pure _

/-- Assigned fields stay within the bounds that each of them stays within. -/
theorem measured_assignFields {step : Context → Step Gauge Value}
    {operation longer : Context → Buffer.Op Value} (owner : Ty) (index : Nat)
    (fields : List Field) (value : Value)
    (each : ∀ field ∈ fields, ∀ site,
      let context := Context.ofPlace field.type field.markers site none
      Measured bound enough (step context) (operation context) (longer context)) :
    Measured bound enough (assignFields step owner index fields value)
      (assignFields operation owner index fields value)
      (assignFields longer owner index fields value) := by
  induction fields generalizing index value with
  | nil => exact .pure value
  | cons field rest inductionHypothesis =>
      refine Measured.bind (Measured.inField _ _ ?_) fun assigned =>
        inductionHypothesis (index + 1) assigned fun other later =>
          each other (List.mem_cons_of_mem _ later)
      exact Measured.bind (each field List.mem_cons_self (.field owner index)) fun decoded =>
        .lift _

end Serializer

end Wireform
