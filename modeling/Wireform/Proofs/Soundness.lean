import Wireform.Proofs.Client
import Wireform.Proofs.Depth
import Wireform.Proofs.Derived
import Wireform.Proofs.Layers
import Wireform.Proofs.Order
import Wireform.Proofs.Stream
import Wireform.Proofs.Yields

/-!
# Decoding untrusted bytes

Values travel without their types through codecs, layers, arguments, fields and
collections, and each of these checks what it is given. For types that are described as
a derivation describes them no such check ever fails: whatever the bytes, decoding ends
in a value of the type asked for, typed all the way down, or in a failure that the bytes
are to blame for. The walk is never too deep either.

The invariant is that what a place yields is typed at its declared type. It goes through
the induction on how deep requests may nest together with the depth that is left.
-/

namespace Wireform

open Buffer (Yields)

variable {schema : Schema}

/-- The aggregate can be rebuilt from whatever typed values its fields are decoded to: the
    constructor mirrors the fields and makes a typed value or refuses for a reason of its
    own, or else there is an initial value with members as they are declared. -/
def Aggregate.Buildable (schema : Schema) (entry : Entry) (description : Aggregate) : Prop :=
  match description.strategy with
  | .construct _ constructor =>
      constructor.parameters = description.mirrored ∧
        ∀ arguments, List.Forall₂ (fun (field : Field) argument => argument.Typed schema field.type)
          description.fields arguments →
          match constructor.build arguments with
          | .ok value => value.Typed schema entry.type
          | .error error => ∃ text, error = .custom text
  | .assign initial =>
      ∃ members, initial = .record entry.type members ∧
        members.map Value.type = entry.members.map Member.type
  | .unavailable => False

namespace Schema

/-- The type is described as a derivation describes it, and if it is an aggregate it can
    be rebuilt from typed values. -/
def Decodable (schema : Schema) : Ty → Prop :=
  schema.Described fun entry description => description.Buildable schema entry

/-- The aggregate has a field that is marked nullable though its type has no option that
    could be absent. -/
def Exposes (schema : Schema) (type : Ty) : Prop :=
  ∃ description, schema.kind type = .aggregate description ∧
    ∃ field ∈ description.fields, .nullable ∈ field.markers ∧ field.type.stripsOption = false

/-- An aggregate with such a field is part of the type. -/
def Exposed (schema : Schema) (type : Ty) : Prop :=
  ∃ part, Relation.ReflTransGen schema.Part type part ∧ schema.Exposes part

/-- The type is decodable, and it exposes no absent value unless that is expected. -/
def Sound (schema : Schema) (exposed : Prop) (type : Ty) : Prop :=
  schema.Decodable type ∧ (schema.Exposes type → exposed)

/-- An aggregate that is rebuilt from its own fields can be rebuilt from typed values, if
    what fills in for a member that does not travel is of the type of the member. -/
theorem buildable_of_rebuilds (type : Ty) (description : Aggregate)
    (described : schema.kind type = .aggregate description) (entry : Entry)
    (found : schema.find? type = some entry) (describes : entry.Describes description)
    (rebuilds : description.Rebuilds entry)
    (blanks : ∀ member ∈ entry.members, ∀ blank, member.blank = some blank →
      blank.type = member.type) : description.Buildable schema entry := by
  obtain rfl : entry.type = type := type_of_find? found
  unfold Aggregate.Rebuilds at rebuilds
  unfold Aggregate.Buildable
  split
  · next index constructor chosen =>
      simp only [chosen] at rebuilds
      obtain ⟨mirrors, stores⟩ := rebuilds
      refine ⟨mirrors, fun arguments typed => ?_⟩
      have types : arguments.map Value.type = description.fields.map Field.type := by
        rw [← List.forall₂_eq_eq_eq, List.forall₂_map_left_iff, List.forall₂_map_right_iff]
        exact typed.flip.imp fun _ _ held => held.type_eq
      rw [stores arguments types]
      rw [describes.fields] at typed
      obtain ⟨filledTypes, held⟩ := Member.filled_holds (fun type value => value.Typed schema type)
        (fun _ _ typed => typed.type_eq) entry.members 0 arguments typed blanks
      refine .record entry.type description described entry found _ filledTypes ?_
      intro field listed value present
      rw [describes.fields] at listed
      obtain ⟨index, member, declared, whole, rfl⟩ := (Member.mem_fieldsFrom _ 0 field).mp listed
      rw [Nat.zero_add] at present
      exact held index member value declared whole present
  · next initial chosen =>
      simp only [chosen] at rebuilds
      exact rebuilds
  · next chosen => simp only [chosen] at rebuilds

/-- A derived type is decodable, if what fills in for members that do not travel is of
    their types. -/
theorem decodable_of_derived (type : Ty) (derived : schema.Derived type)
    (blanks : ∀ entry, schema.find? type = some entry → ∀ member ∈ entry.members,
      ∀ blank, member.blank = some blank → blank.type = member.type) : schema.Decodable type :=
  derived.mono fun entry description described found describes rebuilds =>
    buildable_of_rebuilds type description described entry found describes rebuilds
      (blanks entry found)

end Schema

/-! ## What codecs yield -/

/-- What is rewrapped is typed. Nothing cannot be rewrapped without an option. -/
theorem Context.rewrap_sound {exposed : Prop} (declared : Ty) (inner : Option Value)
    (typed : ∀ core, inner = some core → core.Typed schema declared.unwrapped)
    (absence : inner = none → declared.stripsOption = false → exposed) :
    Settled exposed (fun whole => whole.Typed schema declared)
      ((Context.of declared).rewrap inner) := by
  cases inner with
  | some core =>
      obtain ⟨whole, rewrapped, typedWhole, _⟩ :=
        (Value.Typed.layered schema).rewrap_some declared false core (typed core rfl)
      rw [(Context.of declared).rewrap_of_rewrapThrough _ whole rewrapped]
      exact typedWhole
  | none =>
      obtain ⟨_, whole, rewrapped, typedWhole, _⟩ | ⟨kept, rewrapped⟩ :=
        (Value.Typed.layered schema).rewrap_none declared
      · rw [(Context.of declared).rewrap_of_rewrapThrough _ whole rewrapped]
        exact typedWhole
      · rw [(Context.of declared).rewrap_of_lost none rewrapped]
        exact ⟨id, fun _ _ => absence rfl kept⟩

namespace Serializer

variable (config : Config) (exposed : Prop)

/-- Whatever stands at a place without markers, what it yields is typed. -/
def SoundAt (schema : Schema) (depth : Nat) (visited : List Ty) (declared : Ty)
    (markers : List Marker) : Prop :=
  ∀ site, Yields config exposed
    ((build schema config).answer depth visited (.decode (.ofPlace declared markers site none))
      : Buffer.Op Value) fun value => value.Typed schema declared

/-- What is collected from typed elements is typed, or they are not as many as an array
    needs. -/
theorem collect_sound (kind : SequenceKind) (element : Ty) (items : List Value)
    (typed : ∀ item ∈ items, item.Typed schema element) :
    Settled exposed (fun whole => whole.Typed schema (.sequence kind element))
      (schema.collect (.sequence kind element) items) := by
  rw [schema.collect_of_type kind element items fun item listed => (typed item listed).type_eq]
  cases collected : kind.collect items with
  | ok kept =>
      obtain ⟨holds, among⟩ := kind.holds_of_collect items kept collected
      exact .sequence kind element kept (fun item listed => typed item (among item listed)) holds
  | error error =>
      cases kind with
      | array length =>
          unfold SequenceKind.collect at collected
          simp only at collected
          split at collected
          · cases collected
          · cases collected
            exact Buffer.excused_of_plain _ id
      | _ => cases collected

/-- A collection of typed elements is typed. -/
theorem yields_stream (depth : Nat) (visited : List Ty) (kind : SequenceKind) (element : Ty)
    (each : SoundAt config exposed schema depth visited element []) :
    Yields config exposed
      ((Codec.stream (.sequence kind element) element
          (schema.collect (.sequence kind element))).decode.run
        ((build schema config).answer depth visited))
      fun result => ∃ core, result = some core ∧ core.Typed schema (.sequence kind element) := by
  rw [Codec.run_decode_stream]
  refine Buffer.yields_bind (Buffer.yields_limits (Buffer.yields_readLongLength _)) fun count _ => ?_
  refine Buffer.yields_bind (Buffer.yields_repeated (each (.element element)) count []
    (List.forall_mem_nil _))
    fun items typed => ?_
  exact Buffer.yields_some (Buffer.yields_lift (collect_sound exposed kind element items typed))

/-- A map of typed entries is typed. -/
theorem yields_map (depth : Nat) (visited : List Ty) (kind : MapKind) (key part : Ty)
    (keys : SoundAt config exposed schema depth visited key [])
    (parts : SoundAt config exposed schema depth visited part []) :
    Yields config exposed
      ((Codec.map (.map kind key part) key part).decode.run
        ((build schema config).answer depth visited))
      fun result => ∃ core, result = some core ∧ core.Typed schema (.map kind key part) := by
  have each : Yields config exposed
      (Program.decodeEntry ((build schema config).answer depth visited) (Codec.keyPlace key)
        (Codec.valuePlace part))
      fun entry => entry.1.Typed schema key ∧ entry.2.Typed schema part := by
    refine Buffer.yields_bind (keys (.key key)) fun first typedFirst => ?_
    refine Buffer.yields_bind (parts (.value part)) fun second typedSecond => ?_
    exact Buffer.yields_pure _ ⟨typedFirst, typedSecond⟩
  rw [Codec.run_decode_map]
  refine Buffer.yields_bind (Buffer.yields_limits (Buffer.yields_readLength _)) fun count _ => ?_
  refine Buffer.yields_bind (Buffer.yields_repeated each count [] (List.forall_mem_nil _))
    fun entries typed => ?_
  refine Buffer.yields_some (Buffer.yields_lift ?_)
  rw [Schema.collectEntries_of_type kind key part entries fun entry listed =>
    ⟨(typed entry listed).1.type_eq, (typed entry listed).2.type_eq⟩]
  obtain ⟨holds, among⟩ := kind.holds_collect entries
  exact .map kind key part _ (fun entry listed => (typed entry (among entry listed)).1)
    (fun entry listed => (typed entry (among entry listed)).2) holds

/-- The codec of a shape yields typed values, if the requests that it makes do. -/
theorem yields_codec (depth : Nat) (visited : List Ty) (type : Ty) (marked : Option Ty)
    (shape : Shape) (shaped : schema.shape type marked = .ok shape)
    (decodable : schema.Decodable type)
    (honest : ∀ kind element named, type = .sequence kind element → marked = some named →
      named = element)
    (each : ∀ part, schema.Part type part → part.size < type.size →
      SoundAt config exposed schema depth visited part [])
    (nested : type.isOption = true → SoundAt config exposed schema depth visited type [])
    (fields : ∀ description, schema.kind type = .aggregate description →
      Yields config exposed
        ((build schema config).answer depth visited (.decodeFields type description)
          : Buffer.Op Value) fun value => value.Typed schema type) :
    Yields config exposed
      ((shape.codec schema type).decode.run ((build schema config).answer depth visited))
      fun result => ∃ core, result = some core ∧ core.Typed schema type := by
  have fits := schema.fits_of_shape type marked shape shaped
  cases shape with
  | leaf plain =>
      obtain ⟨rfl, _⟩ := fits
      simp only [Shape.codec, Codec.run_decode_leaf]
      refine Buffer.yields_some (Buffer.yields_bind plain.yields_read fun scalar same => ?_)
      subst same
      exact Buffer.yields_pure _ (.scalar scalar)
  | octets =>
      cases fits
      simp only [Shape.codec, Codec.run_decode_octetVector]
      refine Buffer.yields_some (Buffer.yields_bind Buffer.yields_readBytes fun octets _ => ?_)
      refine Buffer.yields_pure _ (.sequence .vector .u8 _ (fun item listed => ?_) trivial)
      obtain ⟨octet, _, rfl⟩ := List.mem_map.mp listed
      exact .scalar (.u8 octet)
  | enumeration names =>
      simp only [Shape.codec, Codec.run_decode_enumeration]
      exact Buffer.yields_some (Enumeration.yields_read type names fits)
  | sequence element =>
      obtain ⟨_, declared, described, chosen⟩ := fits
      obtain ⟨kind, rfl⟩ := decodable.chosen_element described chosen honest
      exact yields_stream config exposed depth visited kind element
        (each element (.element kind element) (Nat.lt_succ_self _))
  | map key part =>
      obtain ⟨kind, rfl⟩ := schema.kind_map type key part fits
      exact yields_map config exposed depth visited kind key part
        (each key (.key kind key part) (by simp only [Ty.size]; omega))
        (each part (.value kind key part) (by simp only [Ty.size]; omega))
  | nested =>
      obtain ⟨inner, rfl⟩ := fits
      simp only [Shape.codec, Codec.run_decode_innerOption]
      exact Buffer.yields_some (nested rfl (.inner (.option inner)))
  | aggregate description =>
      simp only [Shape.codec, Codec.run_decode_aggregate]
      exact Buffer.yields_some (fields description fits)
  | custom format => exact absurd fits (decodable.not_custom format)

/-- With a presence flag the codec may also yield nothing. -/
theorem yields_flagged (depth : Nat) (visited : List Ty) (flag : Bool) (codec : Codec)
    (good : Value → Prop)
    (below : Yields config exposed (codec.decode.run ((build schema config).answer depth visited))
      fun result => ∃ core, result = some core ∧ good core) :
    Yields config exposed
      ((codec.flagged flag).decode.run ((build schema config).answer depth visited))
      fun result => (∀ core, result = some core → good core) ∧ (result = none → flag = true) := by
  have present : Yields config exposed
      (codec.decode.run ((build schema config).answer depth visited))
      fun result => (∀ core, result = some core → good core) ∧ (result = none → flag = true) := by
    refine Buffer.yields_mono below ?_
    rintro result ⟨core, rfl, holds⟩
    constructor
    · rintro other ⟨⟩
      exact holds
    · rintro ⟨⟩
  cases flag with
  | false => exact present
  | true =>
      rw [Codec.run_decode_flagged]
      refine Buffer.yields_bind Buffer.yields_readBool fun given _ => ?_
      cases given with
      | true => exact present
      | false =>
          refine Buffer.yields_pure none ⟨?_, fun _ => rfl⟩
          rintro core ⟨⟩

/-! ## Aggregates -/

/-- Arguments are typed as the fields that a constructor mirrors. -/
theorem yields_decodeArguments {operation : Context → Buffer.Op Value} (owner : Ty)
    (constructor position : Nat) (fields : List Field)
    (each : ∀ field ∈ fields, ∀ site, Yields config exposed
      (operation (.ofPlace field.type field.markers site none))
      fun value => value.Typed schema field.type) :
    Yields config exposed
      (decodeArguments operation owner constructor position (fields.map Field.parameter))
      fun arguments => List.Forall₂
        (fun (field : Field) argument => argument.Typed schema field.type) fields arguments := by
  induction fields generalizing position with
  | nil => exact Buffer.yields_pure _ .nil
  | cons field rest inductionHypothesis =>
      refine Buffer.yields_bind (Buffer.yields_inField _ _
        (each field List.mem_cons_self (.parameter owner constructor position)))
        fun argument typed => ?_
      refine Buffer.yields_bind (inductionHypothesis (position + 1) fun other later =>
        each other (List.mem_cons_of_mem _ later)) fun others typedOthers => ?_
      exact Buffer.yields_pure _ (.cons typed typedOthers)

/-- The members are of the declared types, and those of the given fields are typed. -/
def Filled (schema : Schema) (entry : Entry) (fields : List Field) (members : List Value) : Prop :=
  members.map Value.type = entry.members.map Member.type ∧
    ∀ field ∈ fields, ∀ member, members[field.slot]? = some member →
      member.Typed schema field.type

/-- Putting a typed value into a field fills the field and leaves the others filled. -/
theorem filled_set (entry : Entry) (description : Aggregate)
    (describes : entry.Describes description) (done : List Field)
    (known : ∀ field ∈ done, field ∈ description.fields) (field : Field)
    (listed : field ∈ description.fields) (members : List Value)
    (filled : Filled schema entry done members) (value : Value)
    (typed : value.Typed schema field.type) :
    Filled schema entry (field :: done) (members.set field.slot value) := by
  obtain ⟨own, declared, ownType⟩ := describes.member_of_field field listed
  obtain ⟨types, typedDone⟩ := filled
  constructor
  · have present : (members.map Value.type)[field.slot]? = some value.type := by
      rw [types, List.getElem?_map, declared, typed.type_eq, ← ownType]
      rfl
    rw [List.map_set, ← types]
    obtain ⟨inside, same⟩ := List.getElem?_eq_some_iff.mp present
    rw [← same, List.set_getElem_self]
  · intro other among member found
    by_cases same : field.slot = other.slot
    · have otherType : other.type = field.type := by
        obtain rfl | earlier := List.mem_cons.mp among
        · rfl
        · obtain ⟨otherOwn, otherDeclared, sameType⟩ :=
            describes.member_of_field other (known other earlier)
          rw [← same, declared] at otherDeclared
          cases otherDeclared
          rw [← sameType, ownType]
      rw [← same] at found
      obtain ⟨inside, rfl⟩ := List.getElem?_eq_some_iff.mp found
      rw [List.getElem_set_self, otherType]
      exact typed
    · rw [List.getElem?_set_ne same] at found
      obtain rfl | earlier := List.mem_cons.mp among
      · exact absurd rfl same
      · exact typedDone other earlier member found

/-- Assigning typed values to the fields of an aggregate fills them one after another. -/
theorem yields_assignFields {operation : Context → Buffer.Op Value} (entry : Entry)
    (description : Aggregate) (describes : entry.Describes description) (index : Nat)
    (done rest : List Field) (known : ∀ field ∈ done, field ∈ description.fields)
    (listed : ∀ field ∈ rest, field ∈ description.fields) (members : List Value)
    (filled : Filled schema entry done members)
    (each : ∀ field ∈ rest, ∀ site, Yields config exposed
      (operation (.ofPlace field.type field.markers site none))
      fun value => value.Typed schema field.type) :
    Yields config exposed (assignFields operation entry.type index rest (.record entry.type members))
      fun value => ∃ after, value = .record entry.type after ∧
        Filled schema entry (rest.reverse ++ done) after := by
  induction rest generalizing index done members with
  | nil => exact Buffer.yields_pure _ ⟨members, rfl, filled⟩
  | cons field rest inductionHypothesis =>
      have own := listed field List.mem_cons_self
      have assigned : Yields config exposed
          (Step.inField entry.type.name field.name do
            let decoded ← operation ((Context.make field.type field.markers).placedAt
              (.field entry.type index))
            Step.lift (field.set entry.type decoded (.record entry.type members)))
          fun value => ∃ after, value = .record entry.type after ∧
            Filled schema entry (field :: done) after := by
        refine Buffer.yields_inField _ _ ?_
        refine Buffer.yields_bind (each field List.mem_cons_self (.field entry.type index))
          fun decoded typed => Buffer.yields_lift ?_
        have put : field.set entry.type decoded (.record entry.type members)
            = .ok (.record entry.type (members.set field.slot decoded)) := by
          simp only [Field.set, if_true, Value.expect, if_pos typed.type_eq]
          rfl
        rw [put]
        exact ⟨_, rfl, filled_set entry description describes done known field own members filled
          decoded typed⟩
      rw [List.reverse_cons, List.append_assoc, List.singleton_append]
      refine Buffer.yields_bind assigned ?_
      rintro value ⟨after, rfl, filledAfter⟩
      refine inductionHypothesis (index + 1) (field :: done) ?_ ?_ after filledAfter ?_
      · intro other among
        obtain rfl | earlier := List.mem_cons.mp among
        · exact own
        · exact known other earlier
      · exact fun other later => listed other (List.mem_cons_of_mem _ later)
      · exact fun other later => each other (List.mem_cons_of_mem _ later)

/-- An aggregate is rebuilt to a typed value, whichever way it is rebuilt. -/
theorem yields_rebuild {operation : Context → Buffer.Op Value} (type : Ty)
    (description : Aggregate) (described : schema.kind type = .aggregate description)
    (entry : Entry) (found : schema.find? type = some entry)
    (describes : entry.Describes description) (buildable : description.Buildable schema entry)
    (each : ∀ field ∈ description.fields, ∀ site, Yields config exposed
      (operation (.ofPlace field.type field.markers site none))
      fun value => value.Typed schema field.type) :
    Yields config exposed (rebuild operation type description)
      fun value => value.Typed schema type := by
  obtain rfl : entry.type = type := Schema.type_of_find? found
  unfold Aggregate.Buildable at buildable
  unfold rebuild
  split
  · next index constructor chosen =>
      simp only [chosen] at buildable
      obtain ⟨mirrors, builds⟩ := buildable
      rw [mirrors]
      refine Buffer.yields_bind (yields_decodeArguments config exposed entry.type index 0
        description.fields each) fun arguments typed => Buffer.yields_lift ?_
      have built := builds arguments typed
      cases outcome : constructor.build arguments with
      | ok value =>
          rw [outcome] at built
          exact built
      | error error =>
          rw [outcome] at built
          obtain ⟨text, rfl⟩ := built
          exact Buffer.excused_of_plain _ id
  · next initial chosen =>
      simp only [chosen] at buildable
      obtain ⟨members, rfl, types⟩ := buildable
      refine Buffer.yields_mono (yields_assignFields config exposed entry description describes 0 []
        description.fields (List.forall_mem_nil _) (fun _ listed => listed) members
        ⟨types, List.forall_mem_nil _⟩ each) ?_
      rintro value ⟨after, rfl, filledTypes, typed⟩
      refine .record entry.type description described entry found after filledTypes ?_
      intro field listed
      exact typed field (List.mem_append_left _ (List.mem_reverse.mpr listed))
  · next chosen => simp only [chosen] at buildable

/-! ## Whole walks -/

/-- With enough depth left every place of a sound type yields typed values, and so do the
    fields of an aggregate. The induction is on the depth, for both together. -/
theorem sound_answer (depth : Nat) :
    (∀ visited declared markers, schema.Throughout (schema.Sound exposed) declared →
      Marker.Honest declared markers →
      (.nullable ∈ markers → declared.stripsOption = false → exposed) →
      schema.Suffices visited declared depth →
      SoundAt config exposed schema depth visited declared markers) ∧
    ∀ visited type description, schema.kind type = .aggregate description →
      schema.Throughout (schema.Sound exposed) type → schema.SufficesInside visited depth →
      Yields config exposed
        ((build schema config).answer depth visited (.decodeFields type description)
          : Buffer.Op Value) fun value => value.Typed schema type := by
  induction depth with
  | zero =>
      constructor
      · intro visited declared markers _ _ _ enough
        unfold Schema.Suffices at enough
        omega
      · intro visited type description _ _ enough
        unfold Schema.SufficesInside at enough
        omega
  | succ depth inductionHypothesis =>
      obtain ⟨places, aggregates⟩ := inductionHypothesis
      constructor
      · intro visited declared markers sound honest exposes enough site
        obtain ⟨shape, shaped⟩ := sound.unwrapped.self.1.shape (Marker.element? markers)
          (declared.unwrapped_ne_boxed)
        have unmarked (part : Ty) (soundPart : schema.Throughout (schema.Sound exposed) part)
            (left : schema.Suffices visited part depth) :
            SoundAt config exposed schema depth visited part [] :=
          places visited part [] soundPart (Marker.honest_nil _) (absurd · List.not_mem_nil) left
        have below := yields_codec config exposed depth visited declared.unwrapped
          (Marker.element? markers) shape shaped sound.unwrapped.self.1 honest
          (fun part contained smaller => unmarked part (sound.unwrapped.part contained)
            (enough.smaller (Nat.lt_of_lt_of_le smaller (declared.size_peel_le false))))
          (fun kept => unmarked declared.unwrapped sound.unwrapped
            (enough.smaller (declared.size_unwrapped_lt kept)))
          (fun description described =>
            aggregates visited declared.unwrapped description described sound.unwrapped
              enough.inside)
        have flagged := yields_flagged config exposed depth visited
          (declared.stripsOption || markers.contains .nullable) _ _ below
        rw [answer_decode_place, shaped, Step.lift_ok, LawfulMonad.pure_bind]
        refine Buffer.yields_bind flagged fun inner found => Buffer.yields_lift ?_
        refine Context.rewrap_sound declared inner found.1 fun absent kept => exposes ?_ kept
        have flag := found.2 absent
        rw [kept, Bool.false_or] at flag
        exact List.contains_iff_mem.mp flag
      · intro visited type description described sound enough
        obtain ⟨entry, found, describes, buildable⟩ :=
          sound.self.1.describes description described
        simp only [answer]
        split
        · exact Buffer.yields_fail _ (Buffer.excused_of_plain _ id)
        · next new =>
            refine yields_rebuild config exposed type description described entry found describes
              buildable fun field listed => ?_
            refine places (type :: visited) field.type field.markers
              (sound.part (.field type description described field listed))
              (describes.honest field listed) ?_ ?_
            · intro marked kept
              exact sound.self.2 ⟨description, described, field, listed, marked, kept⟩
            · exact enough.field entry found (Bool.eq_false_iff.mpr new) field.type
                (schema.size_field_le type description described field listed)

/-- A value of a decodable type is taken off typed, or its bytes are to blame. -/
theorem yields_taking (schema : Schema) (type : Ty)
    (decodable : schema.Throughout schema.Decodable type) :
    Yields config (schema.Exposed type) ((build schema config).taking type)
      fun value => value.Typed schema type := by
  have sound : schema.Throughout (schema.Sound (schema.Exposed type)) type :=
    fun part contained => ⟨decodable part contained, fun exposes => ⟨part, contained, exposes⟩⟩
  exact (sound_answer config (schema.Exposed type) _).1 [] type [] sound
    (Marker.honest_nil _) (absurd · List.not_mem_nil) (schema.suffices_root (root type none))
    (.root type)

/-- Decoding is sound: whatever the bytes and the limits, and whatever the serializer
    remembers, it ends in a value of the type asked for, typed all the way down, or in a
    failure that the bytes are to blame for. An absent value is to blame only if a field is
    marked nullable whose type has no option to hold it. -/
theorem decode_sound (schema : Schema) (type : Ty)
    (decodable : schema.Throughout schema.Decodable type) (memory : Memory)
    (reached : (build schema config).Reached memory) (bytes : Bytes) :
    (∃ value later, (build schema config).decode type bytes memory = .ok value later ∧
        value.type = type ∧ value.Typed schema type) ∨
      ∃ error later, (build schema config).decode type bytes memory = .error error later ∧
        ¬ error.rootCause.Internal ∧
        ∀ name, error.rootCause = .unexpectedNull name → schema.Exposed type := by
  have takenFrom : Yields config (schema.Exposed type) ((build schema config).takingFrom type)
      fun value => value.Typed schema type := by
    refine Buffer.yields_bind (yields_taking config schema type decodable) fun value typed =>
      Buffer.yields_lift ?_
    rw [(Value.expect_eq_ok type value value).mpr ⟨typed.type_eq, rfl⟩]
    exact typed
  have settled : Settled (schema.Exposed type) (fun value => value.Typed schema type)
      ((build schema config).decoded type bytes) := by
    have ended := takenFrom bytes
    have reader : (build schema config).reader bytes = Buffer.reader bytes config := rfl
    unfold decoded closed
    rw [reader]
    cases happened : (build schema config).takingFrom type (Buffer.reader bytes config) with
    | error error after =>
        rw [happened] at ended
        exact ended
    | ok value after =>
        rw [happened] at ended
        obtain ⟨typed, rest, rfl⟩ := ended
        cases rest with
        | nil => exact typed
        | cons octet rest => exact Buffer.excused_of_plain _ id
  obtain ⟨later, _, same⟩ := decode_eq_decoded (builtin_static schema config)
    (builtin_makes schema config) type bytes
    (coherent_of_reached (builtin_static schema config) (builtin_makes schema config) memory reached)
  cases outcome : (build schema config).decoded type bytes with
  | ok value =>
      rw [outcome] at settled same
      exact .inl ⟨value, later, same, settled.type_eq, settled⟩
  | error error =>
      rw [outcome] at settled same
      exact .inr ⟨error, later, same, settled.1, settled.2⟩

/-- What fills in for members of trees and plots is of their types. -/
theorem groves_blanks (type : Ty) : ∀ entry, groves.find? type = some entry →
    ∀ member ∈ entry.members, ∀ blank, member.blank = some blank → blank.type = member.type := by
  intro entry found
  have known := List.mem_of_find?_eq_some found
  simp only [groves, List.mem_cons, List.not_mem_nil, or_false] at known
  obtain rfl | rfl := known
  · simp only [Catalogue.declared, Catalogue.member, Catalogue.skipped, List.mem_cons,
      List.not_mem_nil, or_false]
    rintro member (rfl | rfl | rfl) blank ⟨⟩
    rfl
  · simp [Catalogue.declared, Catalogue.member]

/-- A plot is decoded, and three bytes are too few for one. -/
theorem decode_sound_plot :
    groves.Throughout groves.Decodable (.named "Plot") ∧
      (build groves {}).Reached (build groves {}).start ∧
      (∃ value later, (build groves {}).decode (.named "Plot") [0, 0, 0, 3, 0]
          (build groves {}).start = .ok value later ∧ value.type = .named "Plot" ∧
        value.Typed groves (.named "Plot")) ∧
      ∃ error later, (build groves {}).decode (.named "Plot") [0, 0, 0] (build groves {}).start
          = .error error later ∧ ¬ error.rootCause.Internal ∧
        ∀ name, error.rootCause = .unexpectedNull name → groves.Exposed (.named "Plot") := by
  have decodable : groves.Throughout groves.Decodable (.named "Plot") := fun part contained =>
    Schema.decodable_of_derived part (groves_invertible _ (by decide) part contained).1
      (groves_blanks part)
  refine ⟨decodable, .start, ?_, ?_⟩
  · obtain sound | ⟨error, later, failed, _⟩ := decode_sound {} groves (.named "Plot") decodable
      _ .start [0, 0, 0, 3, 0]
    · exact sound
    · have succeeds : Step.succeeded ((build groves {}).decode (.named "Plot") [0, 0, 0, 3, 0]
          (build groves {}).start) = true := by
        decide +kernel
      rw [failed] at succeeds
      cases succeeds
  · obtain ⟨value, later, decoded, _⟩ | sound := decode_sound {} groves (.named "Plot") decodable
      _ .start [0, 0, 0]
    · have fails : Step.succeeded ((build groves {}).decode (.named "Plot") [0, 0, 0]
          (build groves {}).start) = false := by
        decide +kernel
      rw [decoded] at fails
      cases fails
    · exact sound

end Serializer

end Wireform
