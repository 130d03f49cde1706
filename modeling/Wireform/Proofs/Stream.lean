import Wireform.Proofs.Client
import Wireform.Proofs.RoundTrip

/-!
# Streams of values

Values can be appended to one buffer in succession, and types be decoded from one in
succession; nothing on the wire says where a value ends but the value itself. What is
written for each is its wire form, and what is read for each takes exactly that off the
front, so that a whole stream comes back in order and nothing is left of it.
-/

namespace Wireform

open Buffer (Reads Succeeds)

namespace Serializer

variable (schema : Schema) (config : Config)

/-- Appends values one after another to a buffer, and stops at the first failure. -/
def encodeAll (serializer : Serializer) :
    List Value → Buffer → Memory → Except Error (Buffer × Memory)
  | [], buffer, memory => .ok (buffer, memory)
  | value :: rest, buffer, memory =>
      match serializer.encodeInto value buffer memory with
      | .ok _ state => serializer.encodeAll rest state.buffer state.memory
      | .error error _ => .error error

/-- Decodes values of types one after another from a buffer, and stops at the first
    failure. -/
def decodeAll (serializer : Serializer) :
    List Ty → Buffer → Memory → Except Error (List Value × Buffer)
  | [], buffer, _ => .ok ([], buffer)
  | type :: rest, buffer, memory =>
      match serializer.decodeFrom type buffer memory with
      | .ok value state => do
          let (values, after) ← serializer.decodeAll rest state.buffer state.memory
          return (value :: values, after)
      | .error error _ => .error error

/-- Appending is one of the calls that a memory can be reached by. -/
theorem reached_encodeAll (serializer : Serializer) (values : List Value) (buffer after : Buffer)
    (memory later : Memory) (reached : serializer.Reached memory)
    (encoded : serializer.encodeAll values buffer memory = .ok (after, later)) :
    serializer.Reached later := by
  induction values generalizing buffer memory with
  | nil =>
      cases encoded
      exact reached
  | cons value rest inductionHypothesis =>
      rw [encodeAll] at encoded
      cases appended : serializer.encodeInto value buffer memory with
      | error error state =>
          rw [appended] at encoded
          cases encoded
      | ok result state =>
          rw [appended] at encoded
          have called : ((Call.encodeInto value buffer.contents (some buffer.config)).run serializer
              memory).2 = state.memory := by
            change (Call.ended .written (serializer.encodeInto value buffer memory)).2 = _
            rw [appended]
            rfl
          have next := Reached.call memory reached
            (.encodeInto value buffer.contents (some buffer.config)) trivial
          rw [called] at next
          exact inductionHypothesis state.buffer state.memory next encoded

/-- Values that can be appended in succession are on the wire in succession, and each can
    be appended on its own. -/
theorem appends_encodeAll (values : List Value) (plain : ∀ value ∈ values, schema.Plain value.type)
    (reversed : Bytes) (memory later : Memory) (coherent : (build schema config).Coherent memory)
    (buffer : Buffer)
    (encoded : (build schema config).encodeAll values ⟨.written reversed, config⟩ memory
      = .ok (buffer, later)) :
    buffer = ⟨.written ((values.flatMap (Value.wire schema)).reverse ++ reversed), config⟩ ∧
      ∀ value ∈ values, Succeeds ((build schema config).appending value) := by
  induction values generalizing reversed memory with
  | nil =>
      cases encoded
      exact ⟨rfl, List.forall_mem_nil _⟩
  | cons value rest inductionHypothesis =>
      obtain ⟨next, kept, same⟩ := encodeInto_eq_appending (builtin_static schema config)
        (builtin_makes schema config) value ⟨.written reversed, config⟩ coherent
      rw [encodeAll, same] at encoded
      cases appended : (build schema config).appending value ⟨.written reversed, config⟩ with
      | error error after =>
          rw [appended] at encoded
          cases encoded
      | ok result after =>
          rw [appended] at encoded
          have written :=
            (emits_appending schema config value (plain value List.mem_cons_self)).appends
              reversed config after appended
          subst written
          obtain ⟨whole, others⟩ := inductionHypothesis
            (fun other later => plain other (List.mem_cons_of_mem _ later)) _ next kept encoded
          constructor
          · rw [whole, List.flatMap_cons, List.reverse_append, List.append_assoc]
          · intro other listed
            obtain rfl | later := List.mem_cons.mp listed
            · exact ⟨_, _, _, appended⟩
            · exact others other later

/-- Values that are each read back are read back in succession. -/
theorem reads_decodeAll (pairs : List (Ty × Value))
    (each : ∀ pair ∈ pairs, Reads config ((build schema config).takingFrom pair.1)
      (pair.2.wire schema) (pair.2.restored schema))
    (rest : Bytes) (memory : Memory) (coherent : (build schema config).Coherent memory) :
    (build schema config).decodeAll (pairs.map Prod.fst)
        (Buffer.reader (pairs.flatMap (fun pair => pair.2.wire schema) ++ rest) config) memory
      = .ok (pairs.map fun pair => pair.2.restored schema, Buffer.reader rest config) := by
  induction pairs generalizing memory with
  | nil => rfl
  | cons pair others inductionHypothesis =>
      obtain ⟨next, kept, same⟩ := decodeFrom_eq_takingFrom (builtin_static schema config)
        (builtin_makes schema config) pair.1
        (Buffer.reader ((pair :: others).flatMap (fun pair => pair.2.wire schema) ++ rest) config)
        coherent
      have read := each pair List.mem_cons_self
        (others.flatMap (fun pair => pair.2.wire schema) ++ rest)
      have later := inductionHypothesis
        (fun other listed => each other (List.mem_cons_of_mem _ listed)) next kept
      rw [List.flatMap_cons, List.append_assoc] at same
      rw [List.map_cons, List.flatMap_cons, List.append_assoc, decodeAll, same, read]
      simp only [Step.carry, later]
      rfl

/-- A value that can be appended, of lengths that the limits admit, is taken off again. -/
theorem reads_takingFrom (type : Ty) (value : Value)
    (invertible : schema.Throughout schema.Invertible type) (typed : value.Typed schema type)
    (admitted : ∀ piece ∈ value.layout schema type none, piece.Admitted config)
    (succeeds : Succeeds ((build schema config).appending value)) :
    Reads config ((build schema config).takingFrom type) (value.wire schema)
      (value.restored schema) := by
  obtain rfl := typed.type_eq
  have back := (reads_answer schema config
    ((build schema config).nesting (root value.type none))).1 [] value.type [] value invertible
    (Marker.honest_nil _) typed
  unfold ReadsBack at back
  rw [Value.layoutAt_nil] at back
  have taken : Reads config ((build schema config).taking value.type) (value.wire schema)
      (value.restored schema) := back admitted (.root value.type) succeeds (.root value.type)
  exact Buffer.reads_bind_pure taken (Buffer.reads_lift
    ((Value.expect_eq_ok value.type _ _).mpr ⟨value.type_restored schema, rfl⟩))

/-- What a value is encoded as stands for the value, with blanks in the members that do not travel,
    if the limits admit every length in it. -/
theorem decoded_of_encoded (value : Value)
    (invertible : schema.Throughout schema.Invertible value.type)
    (typed : value.Typed schema value.type)
    (admitted : ∀ piece ∈ value.layout schema value.type none, piece.Admitted config)
    (bytes : Bytes)
    (encoded : (build schema config).encoded (root value.type (some value)) = .ok bytes) :
    (build schema config).decoded value.type bytes = .ok (value.restored schema) := by
  obtain ⟨after, appended, finished⟩ := appended_of_encoded encoded
  have plain : schema.Plain value.type := invertible.mono fun _ both => both.1.not_custom
  obtain rfl := (emits_appending schema config value plain).appends [] config after appended
  obtain rfl : value.wire schema = bytes := by simpa [Buffer.finish] using finished
  have reads := reads_takingFrom schema config value.type value invertible typed admitted
    ⟨_, _, _, appended⟩ []
  rw [List.append_nil] at reads
  exact decoded_of_taken reads

/-- If values of invertible types can be encoded one after another
    and the limits admit every length among them, then decoding the same types in the
    same order yields each value, with blanks in the members that do not travel, and
    leaves nothing. The serializer may remember anything at either end. -/
theorem decodeAll_encodeAll (pairs : List (Ty × Value))
    (invertible : ∀ pair ∈ pairs, schema.Throughout schema.Invertible pair.1)
    (typed : ∀ pair ∈ pairs, pair.2.Typed schema pair.1)
    (admitted : ∀ pair ∈ pairs, ∀ piece ∈ pair.2.layout schema pair.1 none, piece.Admitted config)
    (memory later : Memory) (reached : (build schema config).Reached memory) (buffer : Buffer)
    (encoded : (build schema config).encodeAll (pairs.map Prod.snd) (build schema config).writer
      memory = .ok (buffer, later))
    (other : Memory) (otherReached : (build schema config).Reached other) :
    ∃ bytes after, buffer.finish = .ok bytes ∧
      (build schema config).decodeAll (pairs.map Prod.fst) ((build schema config).reader bytes) other
        = .ok (pairs.map fun pair => pair.2.restored schema, after) ∧
      after.ensureConsumed = .ok () := by
  have coherent (memory : Memory) (reached : (build schema config).Reached memory) :
      (build schema config).Coherent memory :=
    coherent_of_reached (builtin_static schema config) (builtin_makes schema config) memory reached
  have plain : ∀ value ∈ pairs.map Prod.snd, schema.Plain value.type := by
    intro value listed
    obtain ⟨pair, among, rfl⟩ := List.mem_map.mp listed
    rw [(typed pair among).type_eq]
    exact (invertible pair among).mono fun _ both => both.1.not_custom
  obtain ⟨written, succeeds⟩ := appends_encodeAll schema config (pairs.map Prod.snd) plain []
    memory later (coherent memory reached) buffer encoded
  have each : ∀ pair ∈ pairs, Reads config ((build schema config).takingFrom pair.1)
      (pair.2.wire schema) (pair.2.restored schema) := fun pair listed =>
    reads_takingFrom schema config pair.1 pair.2 (invertible pair listed) (typed pair listed)
      (admitted pair listed) (succeeds pair.2 (List.mem_map_of_mem listed))
  have read := reads_decodeAll schema config pairs each [] other (coherent other otherReached)
  have finished : buffer.finish = .ok (pairs.flatMap fun pair => pair.2.wire schema) := by
    rw [written, List.append_nil, List.flatMap_map]
    exact congrArg Except.ok (List.reverse_reverse _)
  rw [List.append_nil] at read
  exact ⟨_, _, finished, read, rfl⟩

/-- A tree with a member that does not travel, and a plot that is rebuilt by assignment. -/
def groves : Schema where
  entries :=
    [Catalogue.declared (.named "Tree")
        [Catalogue.member "label" .string, Catalogue.skipped "depth" (.leaf .u64) (.u64 0),
          Catalogue.member "children" (.vector (.named "Tree")) [.streamable (.named "Tree")]],
      Catalogue.declared (.named "Plot")
        [Catalogue.member "count" .i32, Catalogue.member "owner" (.option .string) [.nullable]]
        (some [.i32 0, .absent .string]) false]

/-- The types that a tree, a plot and a set of numbers are made of. -/
def groveTypes : List Ty :=
  [.named "Tree", .named "Plot", .sequence .orderedSet .i8, .vector (.named "Tree"),
    .option .string, .string, .i32, .i8]

/-- A tree, a plot and a set of numbers. -/
def grove : List (Ty × Value) :=
  [(.named "Tree", .record (.named "Tree")
      [.string "oak", .u64 9, .sequence (.vector (.named "Tree")) []]),
    (.named "Plot", .record (.named "Plot") [.i32 3, .present (.string "ann")]),
    (.sequence .orderedSet .i8, .sequence (.sequence .orderedSet .i8) [.i8 1, .i8 4])]

/-- All of these types are invertible. -/
theorem groves_invertible (type : Ty) (listed : type ∈ groveTypes) :
    groves.Throughout groves.Invertible type := by
  have each : ∀ type ∈ groveTypes, groves.Invertible type := by
    unfold groveTypes
    simp only [List.mem_cons, List.not_mem_nil, or_false]
    rintro type (rfl | rfl | rfl | rfl | rfl | rfl | rfl | rfl)
    · refine ⟨Schema.derived_of_declared "Tree" _ none true .named rfl ?_ (by simp) (by simp),
        trivial⟩
      simp only [Member.fieldsFrom, Catalogue.member, Catalogue.skipped, List.mem_cons,
        List.not_mem_nil, or_false]
      rintro field (rfl | rfl) kind element named ⟨⟩ ⟨⟩
      rfl
    · refine ⟨Schema.derived_of_declared "Plot" _ (some [.i32 0, .absent .string]) false .named rfl
        ?_ ?_ (by simp), trivial⟩
      · simp only [Member.fieldsFrom, Catalogue.member, List.mem_cons, List.not_mem_nil, or_false]
        rintro field (rfl | rfl) kind element named ⟨⟩
      · rintro values ⟨⟩
        rfl
    · refine ⟨.sequence .orderedSet .i8, fun _ => ?_⟩
      refine Schema.throughout_of_closed [.i8] List.mem_cons_self (by decide) fun type listed => ?_
      cases List.mem_singleton.mp listed
      rintro entry ⟨⟩
    · exact ⟨.sequence .vector _, fun set => absurd set Bool.false_ne_true⟩
    · exact ⟨.option _, trivial⟩
    · exact ⟨.leaf _ (by decide), trivial⟩
    · exact ⟨.leaf _ (by decide), trivial⟩
    · exact ⟨.leaf _ (by decide), trivial⟩
  exact Schema.throughout_of_closed groveTypes listed (by decide) each

/-- The tree, the plot and the set are typed. -/
theorem grove_typed : ∀ pair ∈ grove, pair.2.Typed groves pair.1 := by
  unfold grove
  simp only [List.mem_cons, List.not_mem_nil, or_false]
  rintro pair (rfl | rfl | rfl)
  · refine .record _ _ rfl _ rfl _ rfl ?_
    simp only [Member.fieldsFrom, Catalogue.member, Catalogue.skipped, List.mem_cons,
      List.not_mem_nil, or_false]
    rintro field (rfl | rfl) member ⟨⟩
    · exact .scalar (.string "oak")
    · exact .sequence .vector _ [] (List.forall_mem_nil _) trivial
  · refine .record _ _ rfl _ rfl _ rfl ?_
    simp only [Member.fieldsFrom, Catalogue.member, List.mem_cons, List.not_mem_nil, or_false]
    rintro field (rfl | rfl) member ⟨⟩
    · exact .scalar (.i32 3)
    · exact .present _ _ (.scalar (.string "ann"))
  · refine .sequence .orderedSet .i8 _ ?_ (by simp [SequenceKind.Holds]; decide)
    simp only [List.mem_cons, List.not_mem_nil, or_false]
    rintro item (rfl | rfl)
    · exact .scalar (.i8 1)
    · exact .scalar (.i8 4)

/-- The tree, the plot and the set go through a stream, though the tree forgets its depth. -/
theorem decodeAll_encodeAll_grove :
    (∀ pair ∈ grove, groves.Throughout groves.Invertible pair.1) ∧
      (∀ pair ∈ grove, pair.2.Typed groves pair.1) ∧
      (∀ pair ∈ grove, ∀ piece ∈ pair.2.layout groves pair.1 none, piece.Admitted {}) ∧
      ∃ buffer later, (build groves {}).encodeAll (grove.map Prod.snd) (build groves {}).writer
          (build groves {}).start = .ok (buffer, later) ∧
        ∃ bytes after, buffer.finish = .ok bytes ∧
          (build groves {}).decodeAll (grove.map Prod.fst) ((build groves {}).reader bytes) later
            = .ok (grove.map fun pair => pair.2.restored groves, after) ∧
          after.ensureConsumed = .ok () := by
  have invertible : ∀ pair ∈ grove, groves.Throughout groves.Invertible pair.1 := by
    unfold grove
    simp only [List.mem_cons, List.not_mem_nil, or_false]
    rintro pair (rfl | rfl | rfl)
    all_goals exact groves_invertible _ (by decide)
  have admitted : ∀ pair ∈ grove, ∀ piece ∈ pair.2.layout groves pair.1 none,
      piece.Admitted {} :=
    fun _ _ piece _ => piece.admitted_unlimited
  refine ⟨invertible, grove_typed, admitted, ?_⟩
  cases encoded : (build groves {}).encodeAll (grove.map Prod.snd) (build groves {}).writer
      (build groves {}).start with
  | error error =>
      have succeeds : ((build groves {}).encodeAll (grove.map Prod.snd)
          (build groves {}).writer (build groves {}).start).isOk = true := by
        decide +kernel
      rw [encoded] at succeeds
      cases succeeds
  | ok written =>
      obtain ⟨buffer, later⟩ := written
      have reached := reached_encodeAll (build groves {}) _ _ buffer _ later .start encoded
      exact ⟨buffer, later, rfl, decodeAll_encodeAll groves {} grove invertible grove_typed admitted
        _ later .start buffer encoded later reached⟩

end Serializer

end Wireform
