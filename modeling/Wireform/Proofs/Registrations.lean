import Wireform.Packet.Registry
import Wireform.Proofs.Client

/-!
# What becomes of registries

A registry comes about by attempts to register, some of which are refused, while its
serializer is at work for it and possibly for others. Two things are kept throughout. No identifier
and no type is registered twice, so that the two lookups are inverse to each other. And
whatever calls of a serializer keep true of its memory stays true, for reading and writing
frames are such calls, and a registration only reports itself.
-/

namespace Wireform.Packet

variable {α : Type}

/-- The memory that work with packets has left behind, however it ended. -/
def remembered : EStateM.Result Error Memory α → Memory
  | .ok _ memory => memory
  | .error _ memory => memory

/-- What work with packets came to, if it succeeded. -/
def result? : EStateM.Result Error Memory α → Option α
  | .ok result _ => some result
  | .error _ _ => none

/-- Work that came to a result is a success with it. -/
theorem exists_of_result? {outcome : EStateM.Result Error Memory α} {result : α}
    (comes : result? outcome = some result) : ∃ after, outcome = .ok result after := by
  cases outcome with
  | ok found after => cases comes; exact ⟨after, rfl⟩
  | error error after => cases comes

/-- The packet can be taken out of a frame as what the frame claims exactly if it is that. -/
theorem Frame.into_eq_ok (frame : Frame) (type : Ty) (packet : Value) :
    frame.into type = .ok packet ↔ frame.value.type = type ∧ packet = frame.value := by
  rw [← Value.expect_eq_ok]
  unfold into
  cases frame.value.expect type with
  | ok value => simp
  | error cause => simp

namespace Registry

/-- The registry and the memory that an attempt to register a type leaves behind. -/
def registering (registry : Registry) (type : Ty) (id : String) (memory : Memory) :
    Registry × Memory :=
  match registerAs type id (registry, memory) with
  | .ok _ state => state
  | .error _ state => state

/-- A registry and a memory that can have come about, whatever was registered, read and
    written, and whatever calls of the serializer came in between. -/
inductive Reached : Registry → Memory → Prop
  | start (serializer : Serializer) (limits : Limits) (compressor : Compressor) (memory : Memory)
      (reached : serializer.Reached memory) :
      Reached { serializer := serializer, limits := limits, compressor := compressor } memory
  | register (registry : Registry) (memory : Memory) (reached : Reached registry memory)
      (type : Ty) (id : String) :
      Reached (registry.registering type id memory).1 (registry.registering type id memory).2
  | write (registry : Registry) (memory : Memory) (reached : Reached registry memory)
      (packet : Value) : Reached registry (remembered (registry.write packet memory))
  | read (registry : Registry) (memory : Memory) (reached : Reached registry memory)
      (bytes : Bytes) : Reached registry (remembered (registry.read bytes memory))
  | call (registry : Registry) (memory : Memory) (reached : Reached registry memory) (call : Call)
      (placed : call.Placed registry.serializer.schema) :
      Reached registry (call.run registry.serializer memory).2

/-- A registry of one type over a serializer that has not been at work. -/
def single (serializer : Serializer) (type : Ty) (id : String) : Registry × Memory :=
  Registry.registering { serializer := serializer } type id serializer.start

/-- Such a registry can have come about. -/
theorem reached_single (serializer : Serializer) (type : Ty) (id : String) :
    Reached (single serializer type id).1 (single serializer type id).2 :=
  .register _ _ (.start serializer _ _ _ .start) type id

variable {registry : Registry} {memory : Memory}

/-- Registering looks at the identifier first, then at the type, and adds both to the tables and
    reports it if neither is taken. Nothing is changed before both have been looked at. -/
theorem registerAs_apply (registry : Registry) (type : Ty) (id : String) (memory : Memory) :
    registerAs type id (registry, memory) =
      if registry.contains id = true then .error (.duplicateId id) (registry, memory)
      else if (registry.idOf? type).isSome = true then
        .error (.duplicateType type.name) (registry, memory)
      else .ok () ({ registry with
          types := (id, type) :: registry.types, ids := (type, id) :: registry.ids },
        ⟨memory.cache, .registeredPacket id type.name :: memory.events⟩) := by
  change (if registry.contains id = true then _ else _ : Revision Unit) (registry, memory) = _
  by_cases taken : registry.contains id = true
  · rw [if_pos taken, if_pos taken]
    rfl
  · rw [if_neg taken, if_neg taken]
    change (if (registry.idOf? type).isSome = true then _ else _ : Revision Unit)
      (registry, memory) = _
    by_cases known : (registry.idOf? type).isSome = true
    · rw [if_pos known, if_pos known]
      rfl
    · rw [if_neg known, if_neg known]
      rfl

/-- An attempt to register either changes nothing, because the identifier or the type is taken,
    or adds a new identifier and a new type to both tables and reports it. -/
theorem registering_cases (registry : Registry) (type : Ty) (id : String) (memory : Memory) :
    registry.registering type id memory = (registry, memory) ∨
      registry.typeOf? id = none ∧ registry.idOf? type = none ∧
        registry.registering type id memory
          = ({ registry with
                types := (id, type) :: registry.types, ids := (type, id) :: registry.ids },
              ⟨memory.cache, .registeredPacket id type.name :: memory.events⟩) := by
  rw [registering, registerAs_apply, contains]
  cases registry.typeOf? id with
  | some other => exact .inl rfl
  | none =>
      cases registry.idOf? type with
      | some other => exact .inl rfl
      | none => exact .inr ⟨rfl, rfl, rfl⟩

/-- A frame that is read carries an identifier and the type that is registered for it, and holds
    what was decoded for the type from the rest of the bytes, to the last one. -/
theorem read_eq_ok (registry : Registry) (bytes : Bytes) (frame : Frame) (memory after : Memory) :
    registry.read bytes memory = .ok frame after ↔
      registry.typeOf? frame.id = some frame.type ∧ ∃ buffer state,
        Buffer.readShortString (registry.serializer.reader bytes) = .ok frame.id buffer ∧
        registry.serializer.decodeType frame.type buffer memory = .ok frame.value state ∧
        state.buffer.ensureConsumed = .ok () ∧ state.memory = after := by
  constructor
  · intro read
    unfold Registry.read at read
    split at read
    · cases read
    · next id buffer header =>
        split at read
        · cases read
        · next type known =>
            split at read
            · cases read
            · next value state decoded =>
                split at read
                · next emptied =>
                    cases read
                    exact ⟨known, buffer, state, header, decoded, emptied, rfl⟩
                · cases read
  · rintro ⟨known, buffer, state, header, decoded, emptied, rfl⟩
    simp only [Registry.read, header, known, decoded, emptied]

/-! ## Lookups -/

/-- The two tables hold the same pairs, in which no identifier and no type is twice. -/
structure Consistent (registry : Registry) : Prop where
  paired : registry.ids = registry.types.map Prod.swap
  ids : (registry.types.map Prod.fst).Nodup
  types : (registry.types.map Prod.snd).Nodup

/-- In a table that has no key twice, what is found under a key is what stands beside it. -/
theorem lookup_eq_some {κ : Type} [DecidableEq κ] (table : List (κ × α))
    (distinct : (table.map Prod.fst).Nodup) (key : κ) (item : α) :
    table.lookup key = some item ↔ (key, item) ∈ table := by
  induction table with
  | nil => simp
  | cons head rest inductionHypothesis =>
      obtain ⟨name, held⟩ := head
      obtain ⟨new, others⟩ := List.nodup_cons.mp distinct
      by_cases same : key = name
      · subst same
        have once : (key, item) ∉ rest := fun later =>
          new (List.mem_map.mpr ⟨(key, item), later, rfl⟩)
        simp [once, eq_comm]
      · have unequal : (key == name) = false := beq_false_of_ne same
        simp [List.lookup_cons, unequal, same, inductionHypothesis others]

/-- A key under which nothing is found is none of a table's. -/
theorem not_mem_of_lookup {κ : Type} [DecidableEq κ] (table : List (κ × α)) (key : κ)
    (free : table.lookup key = none) : key ∉ table.map Prod.fst := by
  intro listed
  obtain ⟨entry, among, rfl⟩ := List.mem_map.mp listed
  simpa using List.lookup_eq_none_iff.mp free entry among

namespace Consistent

variable (consistent : registry.Consistent)

include consistent

/-- The identifiers that types go by are the types' own, seen from the other side. -/
theorem map_fst_ids : registry.ids.map Prod.fst = registry.types.map Prod.snd := by
  rw [consistent.paired, List.map_map]
  rfl

/-- A type is found by its identifier exactly if the two are registered together. -/
theorem typeOf?_eq_some (id : String) (type : Ty) :
    registry.typeOf? id = some type ↔ (id, type) ∈ registry.types :=
  lookup_eq_some registry.types consistent.ids id type

/-- An identifier is found by its type exactly if the two are registered together. -/
theorem idOf?_eq_some (type : Ty) (id : String) :
    registry.idOf? type = some id ↔ (id, type) ∈ registry.types := by
  have distinct : (registry.ids.map Prod.fst).Nodup := consistent.map_fst_ids ▸ consistent.types
  have found := lookup_eq_some registry.ids distinct type id
  rw [consistent.paired] at found
  rw [idOf?, consistent.paired, found]
  constructor
  · intro listed
    obtain ⟨entry, among, same⟩ := List.mem_map.mp listed
    rwa [← Prod.swap_inj.mp (same.trans (Prod.swap_prod_mk (a := id) (b := type)).symm)]
  · exact fun listed => List.mem_map_of_mem (f := Prod.swap) listed

/-- The two lookups are inverse to each other. -/
theorem typeOf?_iff_idOf? (id : String) (type : Ty) :
    registry.typeOf? id = some type ↔ registry.idOf? type = some id :=
  (consistent.typeOf?_eq_some id type).trans (consistent.idOf?_eq_some type id).symm

/-- An attempt to register keeps a registry consistent. -/
theorem registering (type : Ty) (id : String) (memory : Memory) :
    (registry.registering type id memory).1.Consistent := by
  obtain same | ⟨freeId, freeType, added⟩ := registry.registering_cases type id memory
  · rw [same]
    exact consistent
  · have newId := not_mem_of_lookup registry.types id freeId
    have newType := not_mem_of_lookup registry.ids type freeType
    rw [consistent.map_fst_ids] at newType
    rw [added]
    exact ⟨congrArg ((type, id) :: ·) consistent.paired,
      List.nodup_cons.mpr ⟨newId, consistent.ids⟩,
      List.nodup_cons.mpr ⟨newType, consistent.types⟩⟩

end Consistent

/-- Every registry that can have come about is consistent. -/
theorem consistent_of_reached (reached : Reached registry memory) : registry.Consistent := by
  induction reached with
  | start => exact ⟨rfl, List.nodup_nil, List.nodup_nil⟩
  | register registry memory _ type id inductionHypothesis =>
      exact inductionHypothesis.registering type id memory
  | write _ _ _ _ inductionHypothesis => exact inductionHypothesis
  | read _ _ _ _ inductionHypothesis => exact inductionHypothesis
  | call _ _ _ _ _ inductionHypothesis => exact inductionHypothesis

/-! ## Memory -/

/-- A memory that is left as it was, or that a call of a serializer has left behind. -/
def LeftBy (serializer : Serializer) (before after : Memory) : Prop :=
  after = before ∨
    ∃ call : Call, call.Placed serializer.schema ∧ after = (call.run serializer before).2

/-- Writing a frame appends to a buffer, if it gets as far as that. -/
theorem leftBy_write (registry : Registry) (packet : Value) (memory : Memory) :
    LeftBy registry.serializer memory (remembered (registry.write packet memory)) := by
  unfold write
  split
  · exact .inl rfl
  · split
    · exact .inl rfl
    · next buffer _ =>
        refine .inr ⟨.encodeInto packet buffer.contents (some buffer.config), trivial, ?_⟩
        change _ = (Call.ended Outcome.written
          (registry.serializer.encodeInto packet buffer memory)).2
        split
        · next ended => rw [ended]; rfl
        · next ended =>
            rw [ended]
            split <;> rfl

/-- Reading a frame decodes from a buffer, if it gets as far as that. -/
theorem leftBy_read (registry : Registry) (bytes : Bytes) (memory : Memory) :
    LeftBy registry.serializer memory (remembered (registry.read bytes memory)) := by
  unfold read
  split
  · exact .inl rfl
  · next buffer _ =>
      split
      · exact .inl rfl
      · next type _ =>
          refine .inr ⟨.decodeType type buffer.contents (some buffer.config), trivial, ?_⟩
          change _ = (Call.ended Outcome.read
            (registry.serializer.decodeType type buffer memory)).2
          split
          · next ended => rw [ended]; rfl
          · next ended =>
              rw [ended]
              split <;> rfl

/-- What calls of the serializer keep true of its memory, and what reports do not change, is true
    of the memory of a registry. -/
theorem keeps_of_reached {keeps : Memory → Prop} (reached : Reached registry memory)
    (starts : ∀ memory, registry.serializer.Reached memory → keeps memory)
    (records : ∀ memory event, keeps memory → keeps ⟨memory.cache, event :: memory.events⟩)
    (calls : ∀ (call : Call) memory, call.Placed registry.serializer.schema → keeps memory →
      keeps (call.run registry.serializer memory).2) : keeps memory := by
  have kept {serializer : Serializer} {before after : Memory}
      (calls : ∀ (call : Call) memory, call.Placed serializer.schema → keeps memory →
        keeps (call.run serializer memory).2)
      (left : LeftBy serializer before after) (holds : keeps before) : keeps after := by
    obtain rfl | ⟨call, placed, rfl⟩ := left
    · exact holds
    · exact calls call before placed holds
  induction reached with
  | start serializer limits compressor memory reached => exact starts memory reached
  | register registry memory _ type id inductionHypothesis =>
      obtain same | ⟨_, _, added⟩ := registry.registering_cases type id memory
      · rw [same] at starts calls ⊢
        exact inductionHypothesis starts calls
      · rw [added] at starts calls ⊢
        exact records _ _ (inductionHypothesis starts calls)
  | write registry memory _ packet inductionHypothesis =>
      exact kept calls (registry.leftBy_write packet memory) (inductionHypothesis starts calls)
  | read registry memory _ bytes inductionHypothesis =>
      exact kept calls (registry.leftBy_read bytes memory) (inductionHypothesis starts calls)
  | call registry memory _ call placed inductionHypothesis =>
      exact calls call memory placed (inductionHypothesis starts calls)

end Registry

end Wireform.Packet
