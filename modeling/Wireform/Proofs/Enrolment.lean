import Wireform.Proofs.Registrations

/-!
# Attempts to register

Types are registered under identifiers of their own or under explicit ones, and attempts may fail and
be followed by others. What a registry holds after any such sequence is what the successful attempts
have put there. Whether the next one succeeds, and how it fails if not, can be told from these
attempts alone; a failed one might as well not have been made.

The successful attempts are taken from how the attempts end, not from the tables. That the tables
list just these is proved here, once for all sequences.
-/

namespace Wireform.Packet

/-- An attempt to register a type, under an explicit identifier or its own. -/
structure Enrolment where
  type : Ty
  explicit : Option String := none

namespace Enrolment

variable (own : Ty → String) (enrolment : Enrolment)

/-- The identifier that is attempted, where types have identifiers of their own. -/
def id : String := enrolment.explicit.getD (own enrolment.type)

/-- The attempt itself. -/
def attempt : Revision Unit := Registry.registerAs enrolment.type (enrolment.id own)

end Enrolment

namespace Registry

variable (own : Ty → String)

/-- The registry and its memory after attempts, whatever became of each. -/
def enrolling (state : Registry × Memory) (enrolments : List Enrolment) : Registry × Memory :=
  enrolments.foldl
    (fun state enrolment =>
      state.1.registering enrolment.type (enrolment.id own) state.2)
    state

/-- The identifiers and types of the attempts that succeed, in the order in which they are made. -/
def successes : Registry × Memory → List Enrolment → List (String × Ty)
  | _, [] => []
  | state, enrolment :: rest =>
      match enrolment.attempt own state with
      | .ok _ next => (enrolment.id own, enrolment.type) :: successes next rest
      | .error _ after => successes after rest

/-- Registering succeeds exactly if neither the identifier nor the type is registered, and adds the
    two to both tables then. -/
theorem registerAs_eq_ok (registry : Registry) (type : Ty) (id : String) (memory : Memory)
    (next : Registry × Memory) :
    registerAs type id (registry, memory) = .ok () next ↔
      (registry.typeOf? id = none ∧ registry.idOf? type = none) ∧
        next = ({ registry with
            types := (id, type) :: registry.types, ids := (type, id) :: registry.ids },
          ⟨memory.cache, .registeredPacket id type.name :: memory.events⟩) := by
  rw [registerAs_apply, contains]
  cases registry.typeOf? id with
  | some other => simp
  | none =>
      cases registry.idOf? type with
      | some other => simp
      | none =>
          constructor
          · rintro ⟨⟩
            exact ⟨⟨rfl, rfl⟩, rfl⟩
          · rintro ⟨-, rfl⟩
            rfl

/-- Registering fails because of the identifier exactly if it is registered, and because of the type
    exactly if that is registered and the identifier is not. Nothing is changed by a failure. -/
theorem registerAs_eq_error (registry : Registry) (type : Ty) (id : String) (memory : Memory)
    (after : Registry × Memory) (error : Error) :
    registerAs type id (registry, memory) = .error error after ↔
      after = (registry, memory) ∧
        ((registry.typeOf? id).isSome = true ∧ error = .duplicateId id ∨
          registry.typeOf? id = none ∧ (registry.idOf? type).isSome = true ∧
            error = .duplicateType type.name) := by
  rw [registerAs_apply, contains]
  cases registry.typeOf? id with
  | some other =>
      constructor
      · rintro ⟨⟩
        exact ⟨rfl, .inl ⟨rfl, rfl⟩⟩
      · rintro ⟨rfl, ⟨-, rfl⟩ | ⟨impossible, -⟩⟩
        · rfl
        · cases impossible
  | none =>
      cases registry.idOf? type with
      | some other =>
          constructor
          · rintro ⟨⟩
            exact ⟨rfl, .inr ⟨rfl, rfl, rfl⟩⟩
          · rintro ⟨rfl, ⟨impossible, -⟩ | ⟨-, -, rfl⟩⟩
            · cases impossible
            · rfl
      | none => simp

/-- Attempts that follow others start from what these have left. -/
theorem enrolling_append (state : Registry × Memory) (earlier later : List Enrolment) :
    enrolling own state (earlier ++ later) = enrolling own (enrolling own state earlier) later :=
  List.foldl_append

/-- The table of types lists the successful attempts, the latest first, before what was there. -/
theorem types_enrolling (state : Registry × Memory) (enrolments : List Enrolment) :
    (enrolling own state enrolments).1.types
      = (successes own state enrolments).reverse ++ state.1.types := by
  induction enrolments generalizing state with
  | nil => rfl
  | cons enrolment rest inductionHypothesis =>
      obtain ⟨registry, memory⟩ := state
      have further : enrolling own (registry, memory) (enrolment :: rest)
          = enrolling own (registry.registering enrolment.type (enrolment.id own) memory) rest := rfl
      rw [further, inductionHypothesis]
      simp only [successes, Enrolment.attempt, registering]
      cases attempted : registerAs enrolment.type (enrolment.id own) (registry, memory) with
      | error error after =>
          obtain ⟨rfl, -⟩ := (registerAs_eq_error _ _ _ _ _ _).mp attempted
          rfl
      | ok added next =>
          obtain ⟨-, rfl⟩ := (registerAs_eq_ok _ _ _ _ _).mp attempted
          simp only [List.reverse_cons, List.append_assoc, List.singleton_append]

/-- Attempts keep a registry consistent. -/
theorem Consistent.enrolling {state : Registry × Memory} (consistent : state.1.Consistent)
    (enrolments : List Enrolment) : (enrolling own state enrolments).1.Consistent := by
  induction enrolments generalizing state with
  | nil => exact consistent
  | cons enrolment rest inductionHypothesis =>
      exact inductionHypothesis (consistent.registering enrolment.type (enrolment.id own) state.2)

/-- A registry that holds what successful attempts have put there. -/
structure Enrolled (own : Ty → String) (successful : List (String × Ty)) (registry : Registry) :
    Prop where
  /-- What was registered is found, and nothing else is. -/
  typeOf? (id : String) (type : Ty) :
    registry.typeOf? id = some type ↔ (id, type) ∈ successful
  /-- A type goes by an identifier exactly if the identifier is there and stands for the type. -/
  idOf? (type : Ty) (id : String) :
    registry.idOf? type = some id ↔
      registry.contains id = true ∧ registry.typeOf? id = some type
  /-- No two identifiers stand for one type. -/
  oneId (type : Ty) (id other : String) (first : registry.typeOf? id = some type)
    (second : registry.typeOf? other = some type) : id = other
  /-- No two types go by one identifier. -/
  oneType (id : String) (type other : Ty) (first : registry.idOf? type = some id)
    (second : registry.idOf? other = some id) : type = other
  /-- As many types are registered as attempts were successful. -/
  size : registry.size = successful.length
  isEmpty : registry.isEmpty = true ↔ registry.size = 0
  /-- An attempt succeeds unless its identifier or its type was registered before. -/
  succeeds (enrolment : Enrolment) (memory : Memory) :
    (∃ next, enrolment.attempt own (registry, memory) = .ok () next) ↔
      ∀ earlier ∈ successful, earlier.1 ≠ enrolment.id own ∧ earlier.2 ≠ enrolment.type
  /-- The identifier is complained of whenever it is taken, even if the type is registered too. -/
  duplicateId (enrolment : Enrolment) (memory : Memory) :
    (∃ after, enrolment.attempt own (registry, memory)
        = .error (.duplicateId (enrolment.id own)) after) ↔
      ∃ earlier ∈ successful, earlier.1 = enrolment.id own
  /-- The type is complained of if it is registered and the identifier is not. -/
  duplicateType (enrolment : Enrolment) (memory : Memory) :
    (∃ after, enrolment.attempt own (registry, memory)
        = .error (.duplicateType enrolment.type.name) after) ↔
      (∀ earlier ∈ successful, earlier.1 ≠ enrolment.id own) ∧
        ∃ earlier ∈ successful, earlier.2 = enrolment.type

/-- A consistent registry whose table lists the successful attempts holds what they have put
    there. -/
theorem Consistent.enrolled {registry : Registry} (consistent : registry.Consistent)
    (successful : List (String × Ty)) (listed : registry.types = successful.reverse) :
    registry.Enrolled own successful := by
  have found (id : String) (type : Ty) : registry.typeOf? id = some type ↔ (id, type) ∈ successful := by
    rw [consistent.typeOf?_eq_some, listed, List.mem_reverse]
  have known (id : String) :
      (registry.typeOf? id).isSome = true ↔ ∃ earlier ∈ successful, earlier.1 = id := by
    rw [Option.isSome_iff_exists]
    constructor
    · rintro ⟨type, held⟩
      exact ⟨(id, type), (found id type).mp held, rfl⟩
    · rintro ⟨⟨_, type⟩, among, rfl⟩
      exact ⟨type, (found _ type).mpr among⟩
  have named (type : Ty) :
      (registry.idOf? type).isSome = true ↔ ∃ earlier ∈ successful, earlier.2 = type := by
    rw [Option.isSome_iff_exists]
    constructor
    · rintro ⟨id, held⟩
      exact ⟨(id, type), (found id type).mp ((consistent.typeOf?_iff_idOf? id type).mpr held), rfl⟩
    · rintro ⟨⟨id, _⟩, among, rfl⟩
      exact ⟨id, (consistent.typeOf?_iff_idOf? id _).mp ((found id _).mpr among)⟩
  have unknown (id : String) :
      registry.typeOf? id = none ↔ ∀ earlier ∈ successful, earlier.1 ≠ id := by
    rw [← Option.not_isSome_iff_eq_none, known]
    simp only [not_exists, not_and, ne_eq]
  have unnamed (type : Ty) :
      registry.idOf? type = none ↔ ∀ earlier ∈ successful, earlier.2 ≠ type := by
    rw [← Option.not_isSome_iff_eq_none, named]
    simp only [not_exists, not_and, ne_eq]
  exact {
    typeOf? := found
    idOf? := fun type id => by
      rw [← consistent.typeOf?_iff_idOf?]
      exact ⟨fun held => ⟨Option.isSome_iff_exists.mpr ⟨type, held⟩, held⟩, And.right⟩
    oneId := fun type id other first second => by
      rw [consistent.typeOf?_iff_idOf?] at first second
      exact Option.some.inj (first.symm.trans second)
    oneType := fun id type other first second => by
      rw [← consistent.typeOf?_iff_idOf?] at first second
      exact Option.some.inj (first.symm.trans second)
    size := by rw [size, listed, List.length_reverse]
    isEmpty := by rw [isEmpty, size, List.isEmpty_iff, List.length_eq_zero_iff]
    succeeds := fun enrolment memory => by
      have free : (∀ earlier ∈ successful,
            earlier.1 ≠ enrolment.id own ∧ earlier.2 ≠ enrolment.type) ↔
          registry.typeOf? (enrolment.id own) = none ∧ registry.idOf? enrolment.type = none := by
        rw [unknown, unnamed]
        exact ⟨fun each => ⟨fun earlier among => (each earlier among).1,
            fun earlier among => (each earlier among).2⟩,
          fun both earlier among => ⟨both.1 earlier among, both.2 earlier among⟩⟩
      rw [free]
      constructor
      · rintro ⟨next, attempted⟩
        exact ((registerAs_eq_ok _ _ _ _ _).mp attempted).1
      · intro free
        exact ⟨_, (registerAs_eq_ok _ _ _ _ _).mpr ⟨free, rfl⟩⟩
    duplicateId := fun enrolment memory => by
      rw [← known]
      constructor
      · rintro ⟨after, attempted⟩
        obtain ⟨-, ⟨taken, -⟩ | ⟨-, -, other⟩⟩ := (registerAs_eq_error _ _ _ _ _ _).mp attempted
        · exact taken
        · cases other
      · intro taken
        exact ⟨(registry, memory), (registerAs_eq_error _ _ _ _ _ _).mpr ⟨rfl, .inl ⟨taken, rfl⟩⟩⟩
    duplicateType := fun enrolment memory => by
      rw [← unknown, ← named]
      constructor
      · rintro ⟨after, attempted⟩
        obtain ⟨-, ⟨-, other⟩ | ⟨free, taken, -⟩⟩ := (registerAs_eq_error _ _ _ _ _ _).mp attempted
        · cases other
        · exact ⟨free, taken⟩
      · rintro ⟨free, taken⟩
        exact ⟨(registry, memory), (registerAs_eq_error _ _ _ _ _ _).mpr ⟨rfl, .inr ⟨free, taken, rfl⟩⟩⟩ }

/-- Whatever attempts are made on a new registry, it holds what the successful ones have put there,
    and so the two tables stay inverse to each other. An attempt that fails leaves the registry and
    its memory as they were, so that nothing that comes after it can tell that it was made. -/
theorem enrolled_of_attempts (serializer : Serializer) (limits : Limits) (compressor : Compressor)
    (memory : Memory) (enrolments : List Enrolment) :
    let start : Registry × Memory :=
      ({ serializer := serializer, limits := limits, compressor := compressor }, memory)
    let state := enrolling own start enrolments
    state.1.Enrolled own (successes own start enrolments) ∧
      ∀ (failing : Enrolment) (error : Error) (after : Registry × Memory),
        failing.attempt own state = .error error after →
          after = state ∧
            ∀ further, enrolling own start (enrolments ++ failing :: further)
              = enrolling own start (enrolments ++ further) := by
  intro start state
  constructor
  · apply Consistent.enrolled
    · have empty : start.1.Consistent := ⟨rfl, List.nodup_nil, List.nodup_nil⟩
      exact empty.enrolling own enrolments
    · have listed := types_enrolling own start enrolments
      rwa [List.append_nil] at listed
  · intro failing error after attempted
    have same : after = state := ((registerAs_eq_error _ _ _ _ _ _).mp attempted).1
    have ended : state.1.registering failing.type (failing.id own) state.2 = after := by
      rw [Enrolment.attempt] at attempted
      rw [registering, attempted]
    constructor
    · exact same
    · intro further
      rw [enrolling_append, enrolling_append]
      show enrolling own (state.1.registering failing.type (failing.id own) state.2) further = _
      rw [ended, same]

/-- An identifier that another type has been given explicitly is not to be had any more, and a type
    that has failed to get it can still be registered. -/
example :
    let registry : Registry := { serializer := .build ⟨[]⟩ {} }
    successes (fun type => type.name) (registry, registry.serializer.start)
        [⟨.i32, some "i64"⟩, ⟨.i64, none⟩, ⟨.i32, none⟩, ⟨.i64, some "long"⟩]
      = [("i64", .i32), ("long", .i64)] := by
  decide +kernel

end Registry

end Wireform.Packet
