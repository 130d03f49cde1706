import Wireform.Proofs.Nesting
import Wireform.Proofs.Strategies

/-!
# Schemas that agree but for the way to rebuild

Two schemas agree on a type if they describe it alike but for the way in which it is rebuilt.
Serializers of schemas that agree throughout a type decode akin values of it from the same
bytes and stop in the same place, or fail for the same reason there. Types that write and read
themselves are left out, and so are aggregates that are rebuilt from anything but their fields.

The schemas may allow for different depths, since constructors have a part in them. But neither
of the two ever refuses anything for its depth, so both can be given the larger one.
-/

namespace Wireform

/-- The schemas describe the type alike, and if it is an aggregate, both rebuild it from the same
    fields and with blanks of their own. -/
inductive Schema.Agree (schema other : Schema) (blanks others : Ty → List Value) (type : Ty) : Prop
  | plain (same : other.kind type = schema.kind type)
      (items : other.itemType? type = schema.itemType? type)
      (whole : ∀ description, schema.kind type ≠ .aggregate description)
      (builtin : ∀ format, schema.kind type ≠ .custom format)
  | aggregate (description another : Aggregate)
      (described : schema.kind type = .aggregate description)
      (elsewhere : other.kind type = .aggregate another)
      (fields : another.fields = description.fields)
      (stores : description.Stores type (blanks type)) (puts : another.Stores type (others type))
      (lengths : (others type).length = (blanks type).length)

namespace Schema

/-- The shape of a type depends on no more of the schema than its kind. -/
theorem shape_of_kind_eq {schema other : Schema} {type : Ty}
    (same : other.kind type = schema.kind type) (marked : Option Ty) :
    other.shape type marked = schema.shape type marked := by
  cases type <;> simp only [shape, shapeOfKind, same]

/-- An aggregate has the shape of one, whatever the markers. -/
theorem shape_aggregate {schema : Schema} {type : Ty} {description : Aggregate}
    (described : schema.kind type = .aggregate description) (marked : Option Ty) :
    schema.shape type marked = .ok (.aggregate description) := by
  have other : type ≠ Ty.vector .u8 := by
    rintro rfl
    cases described
  cases type with
  | leaf plain => cases described
  | _ => simp only [shape, if_neg other, shapeOfKind, described]

/-- The elements of a sequence are of some type. -/
theorem exists_itemType (schema : Schema) (type : Ty) (declared : Option Ty)
    (described : schema.kind type = .sequence declared) :
    ∃ part, schema.itemType? type = some part := by
  have named (generic : schema.namedKind type = .sequence declared) :
      ∃ part, (schema.find? type).map Entry.definition = some (.sequence part) := by
    unfold namedKind at generic
    split at generic
    · cases generic
    · next entry found =>
        rw [found]
        cases defined : entry.definition with
        | sequence part => exact ⟨part, congrArg some defined⟩
        | _ => rw [defined] at generic; cases generic
  cases type with
  | sequence kind element => exact ⟨element, rfl⟩
  | named name =>
      obtain ⟨part, found⟩ := named described
      exact ⟨part, by simp only [itemType?, found]⟩
  | applied generic argument =>
      obtain ⟨part, found⟩ := named described
      exact ⟨part, by simp only [itemType?, found]⟩
  | _ => cases described

/-- The schema with a description of an aggregate in front, which goes before any other of it. -/
def describing (schema : Schema) (owner : Ty) (description : Aggregate) : Schema where
  entries := { type := owner, definition := .aggregate description } :: schema.entries

/-- Other types are described as before. -/
theorem find?_describing {owner type : Ty} (differs : type ≠ owner) (schema : Schema)
    (description : Aggregate) : (schema.describing owner description).find? type
      = schema.find? type :=
  List.find?_cons_of_neg (by simpa using differs.symm)

/-- Other types are of the kinds that they were of. -/
theorem kind_describing {owner type : Ty} (differs : type ≠ owner) (schema : Schema)
    (description : Aggregate) : (schema.describing owner description).kind type
      = schema.kind type := by
  cases type <;> simp only [kind, namedKind, find?_describing differs]

/-- Schemas agree if they differ in the description of one aggregate only, and if all aggregates
    are rebuilt from their own fields in both. -/
theorem agree_describing (blanks others : Ty → List Value) (schema : Schema) (owner : Ty)
    (description another : Aggregate) (fields : another.fields = description.fields)
    (stores : description.Stores owner (blanks owner)) (puts : another.Stores owner (others owner))
    (lengths : (others owner).length = (blanks owner).length) (type : Ty)
    (builtin : ∀ format, schema.kind type ≠ .custom format)
    (rebuilds : type ≠ owner → ∀ found, schema.kind type = .aggregate found →
      found.Stores type (blanks type) ∧ others type = blanks type) :
    (schema.describing owner description).Agree (schema.describing owner another) blanks others
      type := by
  by_cases same : type = owner
  · subst same
    have items (found : Aggregate) : (schema.describing type found).find? type
        = some { type := type, definition := .aggregate found } :=
      List.find?_cons_of_pos (decide_eq_true rfl)
    cases type with
    | named name =>
        refine .aggregate description another ?_ ?_ fields stores puts lengths
        all_goals simp only [kind, namedKind, items]
    | applied generic argument =>
        refine .aggregate description another ?_ ?_ fields stores puts lengths
        all_goals simp only [kind, namedKind, items]
    | _ =>
        refine .plain rfl ?_ (by rintro _ ⟨⟩) (by rintro _ ⟨⟩)
        all_goals simp only [itemType?, items, Option.map_some]
  · have kinds := kind_describing same schema description
    have kindsToo := kind_describing same schema another
    cases kept : schema.kind type with
    | aggregate found =>
        obtain ⟨own, blank⟩ := rebuilds same found kept
        refine .aggregate found found (kinds.trans kept) (kindsToo.trans kept) rfl own ?_ ?_
        · rw [blank]
          exact own
        · rw [blank]
    | _ =>
        refine .plain (kindsToo.trans kinds.symm) ?_ ?_ ?_
        · cases type <;> simp only [itemType?, find?_describing same]
        · rw [kinds, kept]
          rintro _ ⟨⟩
        · rw [kinds]
          exact builtin

end Schema

namespace Serializer

variable {schema other : Schema} {blanks others : Ty → List Value}

/-- Akin values are decoded wherever the type stands with the markers, or neither is. -/
def ParallelAt (schema other : Schema) (blanks others : Ty → List Value) (config : Config)
    (depth : Nat) (visited : List Ty) (declared : Ty) (markers : List Marker) : Prop :=
  ∀ site, Buffer.Parallel (Value.Akin schema other blanks others declared)
    ((build schema config).answer depth visited (.decode (.ofPlace declared markers site none))
      : Buffer.Op Value)
    ((build other config).answer depth visited (.decode (.ofPlace declared markers site none))
      : Buffer.Op Value)

/-- What is decoded at a place does not depend on which place it is. -/
theorem answer_placeless (schema : Schema) (config : Config) (depth : Nat) (visited : List Ty)
    (type : Ty) (markers : List Marker) (site elsewhere : Site) :
    (build schema config).answer depth visited (.decode (.ofPlace type markers site none))
      = (build schema config).answer depth visited
          (.decode (.ofPlace type markers elsewhere none)) := by
  cases depth with
  | zero => rfl
  | succ depth => rw [answer_decode_place, answer_decode_place]

section

variable (config : Config) (depth : Nat) (visited : List Ty)

/-- The codecs of a shape that is no aggregate decode akin values, if what they request is
    decoded so. -/
theorem parallel_codec (type : Ty) (marked : Option Ty) (shape : Shape)
    (fits : shape.Fits schema type marked) (items : other.itemType? type = schema.itemType? type)
    (whole : ∀ description, schema.kind type ≠ .aggregate description)
    (builtin : ∀ format, schema.kind type ≠ .custom format)
    (each : ∀ part, schema.Part type part →
      ParallelAt schema other blanks others config depth visited part [])
    (named : ∀ element, marked = some element →
      ParallelAt schema other blanks others config depth visited element [])
    (nested : ParallelAt schema other blanks others config depth visited type []) :
    Buffer.Parallel (Option.Rel (Value.Akin schema other blanks others type))
      ((shape.codec schema type).decode.run ((build schema config).answer depth visited))
      ((shape.codec other type).decode.run ((build other config).answer depth visited)) := by
  cases shape with
  | leaf plain =>
      obtain ⟨rfl, _⟩ := fits
      simp only [Shape.codec, Codec.run_decode_leaf]
      refine Buffer.parallel_map some some ?_ fun _ _ => .some
      refine Buffer.parallel_bind (Buffer.parallel_same plain.ends_read) ?_
      rintro scalar _ ⟨rfl, rfl⟩
      exact Buffer.parallel_pure (.scalar scalar)
  | octets =>
      obtain rfl : type = Ty.vector .u8 := fits
      simp only [Shape.codec, Codec.run_decode_octetVector]
      refine Buffer.parallel_map some some ?_ fun _ _ => .some
      refine Buffer.parallel_after _ fun octets => Buffer.parallel_pure ?_
      let pairs := octets.map fun octet => (Value.u8 octet, Value.u8 octet)
      have akin : Value.Akin schema other blanks others (Ty.vector .u8)
          (.sequence (Ty.vector .u8) (pairs.map Prod.fst))
          (.sequence (Ty.vector .u8) (pairs.map Prod.snd)) := by
        refine .sequence _ .u8 rfl pairs fun pair among => ?_
        obtain ⟨octet, _, rfl⟩ := List.mem_map.mp among
        exact .scalar (.u8 octet)
      rw [List.map_map, List.map_map] at akin
      exact akin
  | enumeration names =>
      simp only [Shape.codec, Codec.run_decode_enumeration]
      refine Buffer.parallel_map some some ?_ fun _ _ => .some
      refine Buffer.parallel_after _ fun name => ?_
      unfold Enumeration.fromName
      cases names.idxOf? name with
      | none => exact Buffer.parallel_fail _
      | some index => exact Buffer.parallel_pure (.member type index)
  | sequence element =>
      obtain ⟨_, declared, described, chosen⟩ := fits
      have elements : ParallelAt schema other blanks others config depth visited element [] := by
        cases marked with
        | some given =>
            cases chosen
            exact named element rfl
        | none =>
            cases chosen
            obtain ⟨kind, rfl⟩ := schema.kind_sequence type element described
            exact each element (.element kind element)
      obtain ⟨part, made⟩ := schema.exists_itemType type declared described
      simp only [Shape.codec, Codec.run_decode_stream]
      refine Buffer.parallel_after _ fun count => ?_
      refine Buffer.parallel_bind
        (Buffer.parallel_repeated (elements (.element element)) count .nil)
        fun here there alike => ?_
      exact Buffer.parallel_map some some (Buffer.parallel_lift
        (Value.Akin.collect type element part made (items.trans made) alike)) fun _ _ => .some
  | map key value =>
      obtain ⟨kind, rfl⟩ := schema.kind_map type key value fits
      have entry : Buffer.Parallel
          (fun here there => Value.Akin schema other blanks others key here.1 there.1 ∧
            Value.Akin schema other blanks others value here.2 there.2)
          (Program.decodeEntry ((build schema config).answer depth visited) (Codec.keyPlace key)
            (Codec.valuePlace value))
          (Program.decodeEntry ((build other config).answer depth visited) (Codec.keyPlace key)
            (Codec.valuePlace value)) := by
        refine Buffer.parallel_bind (each key (.key kind key value) (.key key))
          fun first found keys => ?_
        exact Buffer.parallel_bind (each value (.value kind key value) (.value value))
          fun second held parts => Buffer.parallel_pure ⟨keys, parts⟩
      simp only [Shape.codec, Codec.run_decode_map]
      refine Buffer.parallel_after _ fun count => ?_
      refine Buffer.parallel_bind (Buffer.parallel_repeated entry count .nil)
        fun here there alike => ?_
      exact Buffer.parallel_map some some (Buffer.parallel_lift
        (Value.Akin.collectEntries kind key value alike)) fun _ _ => .some
  | nested =>
      simp only [Shape.codec, Codec.run_decode_innerOption]
      exact Buffer.parallel_map some some (nested (.inner type)) fun _ _ => .some
  | aggregate description => exact absurd fits (whole description)
  | custom format => exact absurd fits (builtin format)

/-- A presence flag stands in front of either. -/
theorem parallel_flagged {related : Value → Value → Prop} (flag : Bool) (codec counterpart : Codec)
    (below : Buffer.Parallel (Option.Rel related)
      (codec.decode.run ((build schema config).answer depth visited))
      (counterpart.decode.run ((build other config).answer depth visited))) :
    Buffer.Parallel (Option.Rel related)
      ((codec.flagged flag).decode.run ((build schema config).answer depth visited))
      ((counterpart.flagged flag).decode.run ((build other config).answer depth visited)) := by
  cases flag with
  | false => exact below
  | true =>
      rw [Codec.run_decode_flagged, Codec.run_decode_flagged]
      refine Buffer.parallel_after _ fun given => ?_
      cases given with
      | true => exact below
      | false => exact Buffer.parallel_pure .none

/-- A place decodes akin values if the schemas agree on what is below its layers, and what may be
    requested there is decoded so. -/
theorem parallel_place (declared : Ty) (markers : List Marker)
    (agree : schema.Agree other blanks others declared.unwrapped)
    (each : ∀ part, schema.Part declared.unwrapped part →
      ParallelAt schema other blanks others config depth visited part [])
    (named : ∀ element, Marker.element? markers = some element →
      ParallelAt schema other blanks others config depth visited element [])
    (nested : ParallelAt schema other blanks others config depth visited declared.unwrapped [])
    (fields : ∀ description another, schema.kind declared.unwrapped = .aggregate description →
      other.kind declared.unwrapped = .aggregate another →
      Buffer.Parallel (Value.Akin schema other blanks others declared.unwrapped)
        ((build schema config).answer depth visited (.decodeFields declared.unwrapped description)
          : Buffer.Op Value)
        ((build other config).answer depth visited (.decodeFields declared.unwrapped another)
          : Buffer.Op Value)) :
    ParallelAt schema other blanks others config (depth + 1) visited declared markers := by
  intro site
  rw [answer_decode_place, answer_decode_place]
  cases agree with
  | plain same items whole builtin =>
      rw [Schema.shape_of_kind_eq same]
      cases shaped : schema.shape declared.unwrapped (Marker.element? markers) with
      | error error => exact Buffer.parallel_fail error
      | ok shape =>
          have below := parallel_codec config depth visited declared.unwrapped _ shape
            (schema.fits_of_shape _ _ shape shaped) items whole builtin each named nested
          rw [Step.lift_ok, LawfulMonad.pure_bind, LawfulMonad.pure_bind]
          exact Buffer.parallel_bind (parallel_flagged config depth visited _ _ _ below)
            fun inner found alike => Buffer.parallel_lift (Value.Akin.rewrap declared alike)
  | aggregate description another described elsewhere same stores puts lengths =>
      have below : Buffer.Parallel
          (Option.Rel (Value.Akin schema other blanks others declared.unwrapped))
          ((Codec.aggregate declared.unwrapped description).decode.run
            ((build schema config).answer depth visited))
          ((Codec.aggregate declared.unwrapped another).decode.run
            ((build other config).answer depth visited)) := by
        rw [Codec.run_decode_aggregate, Codec.run_decode_aggregate]
        exact Buffer.parallel_map some some (fields description another described elsewhere)
          fun _ _ => .some
      rw [Schema.shape_aggregate described, Schema.shape_aggregate elsewhere, Step.lift_ok,
        Step.lift_ok, LawfulMonad.pure_bind, LawfulMonad.pure_bind]
      exact Buffer.parallel_bind (parallel_flagged config depth visited _ _ _ below)
        fun inner found alike => Buffer.parallel_lift (Value.Akin.rewrap declared alike)

/-- Where the schemas agree throughout a type, every place of the type decodes akin values, and so
    do the fields of an aggregate. The induction is on how deep requests may nest, for both
    together. A type that is met again below itself is refused by both. -/
theorem parallel_answer :
    (∀ visited declared markers,
      schema.Throughout (schema.Agree other blanks others) declared →
      (∀ element, Marker.element? markers = some element →
        schema.Throughout (schema.Agree other blanks others) element) →
      ParallelAt schema other blanks others config depth visited declared markers) ∧
    ∀ visited type description another, schema.kind type = .aggregate description →
      other.kind type = .aggregate another →
      schema.Throughout (schema.Agree other blanks others) type →
      Buffer.Parallel (Value.Akin schema other blanks others type)
        ((build schema config).answer depth visited (.decodeFields type description)
          : Buffer.Op Value)
        ((build other config).answer depth visited (.decodeFields type another)
          : Buffer.Op Value) := by
  induction depth with
  | zero =>
      exact ⟨fun _ _ _ _ _ _ => Buffer.parallel_fail _, fun _ _ _ _ _ _ _ =>
        Buffer.parallel_fail _⟩
  | succ depth inductionHypothesis =>
      obtain ⟨places, aggregates⟩ := inductionHypothesis
      constructor
      · intro visited declared markers agree named
        have unmarked (part : Ty)
            (agrees : schema.Throughout (schema.Agree other blanks others) part) :
            ParallelAt schema other blanks others config depth visited part [] := by
          refine places visited part [] agrees ?_
          rintro element ⟨⟩
        exact parallel_place config depth visited declared markers agree.unwrapped.self
          (fun part contained => unmarked part (agree.unwrapped.part contained))
          (fun element given => unmarked element (named element given))
          (unmarked declared.unwrapped agree.unwrapped)
          (fun description another described elsewhere =>
            aggregates visited declared.unwrapped description another described elsewhere
              agree.unwrapped)
      · intro visited type description another described elsewhere agree
        have each (field : Field) (listed : field ∈ description.fields) (site : Site) :=
          places (type :: visited) field.type field.markers
            (agree.part (.field type description described field listed))
            (fun element named => agree.part (.marked type description described field listed
              element (Marker.streamable_of_element? field.markers element named))) site
        cases agree.self with
        | plain same items whole builtin => exact absurd described (whole description)
        | aggregate first second here there same stores puts lengths =>
            obtain rfl : description = first := Kind.aggregate.inj (described.symm.trans here)
            obtain rfl : another = second := Kind.aggregate.inj (elsewhere.symm.trans there)
            have known : schema.fields type = description.fields := by
              simp only [Schema.fields, described]
            have knownToo : other.fields type = description.fields := by
              simp only [Schema.fields, elsewhere, same]
            simp only [answer]
            split
            · exact Buffer.parallel_fail _
            · exact parallel_rebuild description.fields each
                (answer_placeless schema config depth (type :: visited))
                (answer_placeless other config depth (type :: visited)) type description another
                known knownToo rfl same stores puts lengths

/-- A serializer that were allowed to nest deeper would take the same off. -/
theorem answer_deeper (schema : Schema) (type : Ty) (more : Nat) (buffer : Buffer) :
    ((build schema config).answer (more + schema.depth (root type none)) []
      (.decode (root type none)) : Buffer.Op Value) buffer
        = (build schema config).taking type buffer := by
  obtain ⟨_, _, alike⟩ := measured_gauged config schema.depth schema.depth more
    (schema.depth (root type none)) [] 0 (.decode (root type none)) List.nodup_nil trivial
    { buffer := buffer }
  exact alike (schema.roomAt_le_depth (root type none))

/-- Akin values are taken off a buffer. -/
theorem parallel_takingFrom (type : Ty)
    (agree : schema.Throughout (schema.Agree other blanks others) type) :
    Buffer.Parallel (Value.Akin schema other blanks others type)
      ((build schema config).takingFrom type) ((build other config).takingFrom type) := by
  have taken : Buffer.Parallel (Value.Akin schema other blanks others type)
      ((build schema config).taking type) ((build other config).taking type) := by
    intro buffer
    -- What one of the two is allowed is added for the other, so that both are allowed as much.
    have deeper := (parallel_answer config
      (other.depth (root type none) + schema.depth (root type none))).1 [] type [] agree
        (by rintro element ⟨⟩) (.root type) buffer
    have left := answer_deeper config schema type (other.depth (root type none)) buffer
    have right := answer_deeper config other type (schema.depth (root type none)) buffer
    rw [Nat.add_comm] at right
    rw [← left, ← right]
    exact deeper
  refine Buffer.parallel_bind taken fun value another akin => ?_
  rw [(Value.expect_eq_ok type value value).mpr ⟨akin.types.1, rfl⟩,
    (Value.expect_eq_ok type another another).mpr ⟨akin.types.2, rfl⟩]
  exact Buffer.parallel_pure akin

end

/-- Two ways to rebuild aggregates read the same bytes. Of schemas that agree throughout a type but
    for how aggregates are rebuilt, by a constructor that mirrors the fields and stores its
    arguments or by assigning fields to an initial value, the serializers decode values on any
    buffer in which all eligible fields hold the same and after which the same bytes are left, or
    fail with the same error, its path and its owners included, at the same position. This is
    so whatever either of them remembers. Values with the same blanks are the same.

    Which way is taken does not depend on anything that is read. -/
theorem strategies_decode_alike (schema other : Schema) (blanks others : Ty → List Value)
    (config : Config) (type : Ty)
    (agree : schema.Throughout (schema.Agree other blanks others) type) (buffer : Buffer)
    (memory remembered : Memory) (reached : (build schema config).Reached memory)
    (reachedToo : (build other config).Reached remembered) :
    ((∃ value another after left,
        (build schema config).decodeFrom type buffer memory = .ok value after ∧
        (build other config).decodeFrom type buffer remembered = .ok another left ∧
        left.buffer = after.buffer ∧ another.eligible other = value.eligible schema ∧
        (others = blanks → another = value)) ∨
      ∃ error after left,
        (build schema config).decodeFrom type buffer memory = .error error after ∧
        (build other config).decodeFrom type buffer remembered = .error error left ∧
        left.buffer = after.buffer) ∧
    ∀ (description : Aggregate) (chosen : Strategy),
      description.strategy = chosen ↔ description.Chooses chosen := by
  refine ⟨?_, Aggregate.strategy_eq_iff⟩
  have parallel := parallel_takingFrom config type agree buffer
  obtain ⟨_, same⟩ := decodeFrom_of_reached schema config type buffer memory reached
  obtain ⟨_, sameToo⟩ := decodeFrom_of_reached other config type buffer remembered reachedToo
  rw [same, sameToo]
  generalize (build schema config).takingFrom type buffer = outcome at parallel
  generalize (build other config).takingFrom type buffer = counterpart at parallel
  cases parallel with
  | ok value another after akin =>
      refine .inl ⟨value, another, _, _, rfl, rfl, rfl, akin.eligible_eq, ?_⟩
      rintro rfl
      exact akin.eq_of_blanks
  | error error after => exact .inr ⟨error, _, _, rfl, rfl, rfl⟩

/-- The members of a halt on a line, with how often it has been visited, which does not travel. -/
def haltBlank (visits : Int32) : List Value :=
  [.string "", .i32 visits, .absent (.boxed (.named "Halt"))]

/-- The fields of a halt. The next one on the line is a halt again. -/
def haltFields : List Field :=
  [⟨"name", .string, [], 0⟩, ⟨"next", .option (.boxed (.named "Halt")), [], 2⟩]

/-- A halt that is built by a constructor has been visited. -/
def builtHalt : Aggregate where
  fields := haltFields
  constructors := [⟨haltFields.map Field.parameter, fun arguments =>
    .ok (.record (.named "Halt") (Field.put haltFields arguments (haltBlank 1)))⟩]

/-- A halt whose fields are assigned has not. -/
def assignedHalt : Aggregate where
  fields := haltFields
  initial := some (.record (.named "Halt") (haltBlank 0))

/-- A schema of halts that are described as given. -/
def timetable (description : Aggregate) : Schema :=
  Schema.describing ⟨[]⟩ (.named "Halt") description

/-- Sets of halts are rebuilt from the fields of the halts in either way. -/
theorem agree_timetable (type : Ty) :
    (timetable builtHalt).Agree (timetable assignedHalt) (fun _ => haltBlank 1)
      (fun _ => haltBlank 0) type := by
  have stores : builtHalt.Stores (.named "Halt") (haltBlank 1) :=
    Aggregate.stores_of_mirrored _ _ _ _ [] none fun _ _ => rfl
  have puts : assignedHalt.Stores (.named "Halt") (haltBlank 0) :=
    Aggregate.stores_of_initial _ _ _
  refine Schema.agree_describing (fun _ => haltBlank 1) (fun _ => haltBlank 0) ⟨[]⟩ (.named "Halt")
    builtHalt assignedHalt rfl stores puts rfl type ?_ ?_
  · intro format described
    cases type <;> cases described
  · intro _ found described
    cases type <;> cases described

/-- Of a set of halts both serializers take the same ones off, in order and with one octet left,
    although the halts that are built have been visited and the others have not. A halt that goes
    on to another one is refused by both with its field. -/
theorem strategies_decode_alike_halts :
    let first := build (timetable builtHalt) {}
    let second := build (timetable assignedHalt) {}
    let type := Ty.sequence .orderedSet (.named "Halt")
    let pair : Bytes := [0, 0, 0, 0, 0, 0, 0, 2, 0, 0, 0, 1, 98, 0, 0, 0, 0, 1, 97, 0, 7]
    let line : Bytes := [0, 0, 0, 0, 0, 0, 0, 1, 0, 0, 0, 1, 98, 1, 0, 0, 0, 1, 97, 0]
    (∀ part, (timetable builtHalt).Agree (timetable assignedHalt) (fun _ => haltBlank 1)
        (fun _ => haltBlank 0) part) ∧
      first.Reached first.start ∧ second.Reached second.start ∧
      (∃ value another after left,
        first.decodeFrom type (first.reader pair) first.start = .ok value after ∧
        second.decodeFrom type (second.reader pair) second.start = .ok another left ∧
        left.buffer = after.buffer ∧
        another.eligible (timetable assignedHalt) = value.eligible (timetable builtHalt)) ∧
      ∃ after left,
        first.decodeFrom type (first.reader line) first.start
          = .error (.field "Halt" "next" (.circularReference "Halt")) after ∧
        second.decodeFrom type (second.reader line) second.start
          = .error (.field "Halt" "next" (.circularReference "Halt")) left ∧
        left.buffer = after.buffer := by
  intro first second type pair line
  have alike (bytes : Bytes) := (strategies_decode_alike _ _ _ _ {} type
    (fun part _ => agree_timetable part) (first.reader bytes) first.start second.start .start
    .start).1
  have succeeds : Step.succeeded (first.decodeFrom type (first.reader pair) first.start)
      = true := by
    decide +kernel
  have fails : Step.failure? (first.decodeFrom type (first.reader line) first.start)
      = some (.field "Halt" "next" (.circularReference "Halt")) := by
    decide +kernel
  obtain ⟨decoded, between, taken⟩ := Step.exists_of_succeeded succeeds
  obtain ⟨stopped, refused⟩ := Step.exists_of_failure? fails
  refine ⟨agree_timetable, .start, .start, ?_, ?_⟩
  · obtain ⟨value, another, after, left, here, there, same, eligible, _⟩ | ⟨_, _, _, failed, _⟩ :=
      alike pair
    · exact ⟨value, another, after, left, here, there, same, eligible⟩
    · cases taken.symm.trans failed
  · obtain ⟨_, _, _, _, ended, _⟩ | ⟨error, after, left, here, there, same⟩ := alike line
    · cases refused.symm.trans ended
    · cases refused.symm.trans here
      exact ⟨stopped, left, refused, there, same⟩

end Serializer

end Wireform
