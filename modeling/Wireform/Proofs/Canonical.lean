import Wireform.Proofs.Spelling
import Wireform.Proofs.Stream

/-!
# One spelling for each value

Sets and maps can be written in several orders, and what they drop leaves no trace in them.
Every other derived type has one spelling for each of its values: whatever bytes are
decoded, encoding the value gives them back. So the bytes cannot be changed without changing
the value as well, members that do not travel aside.

The invariant says of a value that was taken off the front of a buffer that it is of the
type that was asked for, that it has blanks wherever rebuilding puts them, and that the same
place would write it in the bytes that were taken. The depth that decoding has
spent is enough for encoding, because both nest alike.
-/

namespace Wireform

open Buffer (Takes Writes)

variable {schema : Schema}

/-- The value is of the type, and rebuilding it leaves it as it is. -/
structure Value.Rebuilt (schema : Schema) (type : Ty) (value : Value) : Prop where
  type : value.type = type
  same : value.restored schema = value

/-- The type is described as a derivation describes it and is neither a set nor a map. -/
structure Schema.Canonical (schema : Schema) (type : Ty) : Prop where
  derived : schema.Derived type
  ordered : ∀ kind element, type = .sequence kind element → kind.isSet = false
  unkeyed : ∀ kind key value, type ≠ .map kind key value

/-! ## Layers -/

/-- Rebuilt values are of their type in a way in which layers have no say. -/
theorem Value.Rebuilt.layered (schema : Schema) :
    Layered fun type value => value.Rebuilt schema type where
  type_eq rebuilt := rebuilt.type
  absent _ := ⟨rfl, rfl⟩
  present := by
    intro inner value
    constructor
    · intro rebuilt
      exact ⟨Ty.option.inj rebuilt.type, Value.present.inj rebuilt.same⟩
    · intro rebuilt
      exact ⟨congrArg Ty.option rebuilt.type, congrArg Value.present rebuilt.same⟩
  boxed := by
    intro inner value
    constructor
    · intro rebuilt
      exact ⟨Ty.boxed.inj rebuilt.type, Value.boxed.inj rebuilt.same⟩
    · intro rebuilt
      exact ⟨congrArg Ty.boxed rebuilt.type, congrArg Value.boxed rebuilt.same⟩

/-! ## Codecs -/

/-- A collection that is no set is made of its elements as they are. -/
theorem SequenceKind.collect_eq_of_ordered (kind : SequenceKind) (ordered : kind.isSet = false)
    (element : Ty) (items : List Value) (whole : Value)
    (types : ∀ item ∈ items, item.type = element)
    (collected : schema.collect (.sequence kind element) items = .ok whole) :
    whole = .sequence (.sequence kind element) items := by
  rw [schema.collect_of_type kind element items types] at collected
  cases kind with
  | orderedSet => cases ordered
  | hashedSet => cases ordered
  | array length =>
      simp only [collect] at collected
      split at collected
      · cases collected; rfl
      · cases collected
  | _ => cases collected; rfl

/-- Octets are the octets of the list that they make. -/
theorem Codec.octets?_map (octets : Bytes) : octets? (octets.map Value.u8) = some octets := by
  induction octets with
  | nil => rfl
  | cons octet rest inductionHypothesis =>
      have first : octet? (Value.u8 octet) = some octet := rfl
      rw [octets?, List.map_cons, List.mapM_cons, first]
      exact congrArg (Option.bind · fun later => some (octet :: later)) inductionHypothesis

namespace Serializer

variable (config limits : Config)

/-- What is taken at a place with markers is rebuilt, and would be written in the same bytes
    at any site. -/
def SpelledAt (schema : Schema) (depth : Nat) (visited : List Ty) (declared : Ty)
    (markers : List Marker) : Prop :=
  ∀ site, Takes limits
    ((build schema config).answer depth visited (.decode (.ofPlace declared markers site none))
      : Buffer.Op Value)
    fun value front => value.Rebuilt schema declared ∧ ∀ otherSite,
      Writes ((build schema config).answer depth visited
        (.encode (.ofPlace declared markers otherSite (some value)))) front

/-- An aggregate that is taken is rebuilt, and its fields would be written in the same bytes. -/
def FieldsSpelled (schema : Schema) (depth : Nat) (visited : List Ty) (type : Ty)
    (description : Aggregate) : Prop :=
  Takes limits
    ((build schema config).answer depth visited (.decodeFields type description) : Buffer.Op Value)
    fun value front => value.Rebuilt schema type ∧
      Writes ((build schema config).answer depth visited (.encodeFields type description value)) front

/-- The result is a rebuilt value that the codec would write in the bytes that were taken. -/
def Spells (schema : Schema) (depth : Nat) (visited : List Ty) (type : Ty) (codec : Codec)
    (result : Option Value) (front : Bytes) : Prop :=
  ∃ core, result = some core ∧ core.Rebuilt schema type ∧
    Writes ((codec.encode (some core)).run ((build schema config).answer depth visited)) front

/-- A leaf is taken as it would be written. -/
theorem takes_leaf (depth : Nat) (visited : List Ty) (plain : Leaf) :
    Takes limits ((Codec.leaf plain).decode.run ((build schema config).answer depth visited))
      (Spells config schema depth visited (.leaf plain) (Codec.leaf plain)) := by
  have taken : Takes limits plain.readValue fun value front =>
      ∃ scalar, value = .scalar scalar ∧ scalar.leaf = plain ∧ Writes scalar.write front :=
    Buffer.takes_map Value.scalar plain.takes_read fun scalar _ spelled => ⟨scalar, rfl, spelled⟩
  rw [Codec.run_decode_leaf]
  refine Buffer.takes_map some taken ?_
  rintro _ front ⟨scalar, rfl, rfl, written⟩
  refine ⟨.scalar scalar, rfl, ⟨rfl, rfl⟩, ?_⟩
  rw [Codec.run_encode_leaf]
  refine Buffer.writes_lift ((Value.expect_eq_ok _ _ _).mpr ⟨rfl, rfl⟩) ?_
  simp only [Leaf.writeValue, if_true]
  exact written

/-- A vector of octets is taken as it would be written. -/
theorem takes_octetVector (depth : Nat) (visited : List Ty) :
    Takes limits (Codec.octetVector.decode.run ((build schema config).answer depth visited))
      (Spells config schema depth visited (Ty.vector .u8) Codec.octetVector) := by
  have taken : Takes limits (do
        let octets ← Buffer.readBytes
        return Value.sequence (Ty.vector .u8) (octets.map Value.u8)) fun value front =>
      ∃ octets : Bytes, value = .sequence (Ty.vector .u8) (octets.map Value.u8) ∧
        Writes (Buffer.writeBytes octets) front :=
    Buffer.takes_map _ Buffer.takes_readBytes fun octets _ written => ⟨octets, rfl, written⟩
  rw [Codec.run_decode_octetVector]
  refine Buffer.takes_map some taken ?_
  rintro _ front ⟨octets, rfl, written⟩
  refine ⟨_, rfl, ⟨rfl, ?_⟩, ?_⟩
  · rw [Value.restored, Value.restoredItems_eq_map, List.map_map]
    rfl
  · rw [Codec.run_encode_octetVector]
    refine Buffer.writes_lift ((Value.expect_eq_ok _ _ _).mpr ⟨rfl, rfl⟩) ?_
    simp only [Value.items, if_true, Except.toOption, Option.bind_some, Codec.octets?_map]
    exact written

/-- A member of an enumeration is taken as it would be written. -/
theorem takes_enumeration (depth : Nat) (visited : List Ty) (type : Ty) (names : List String) :
    Takes limits
      ((Codec.enumeration type names).decode.run ((build schema config).answer depth visited))
      (Spells config schema depth visited type (Codec.enumeration type names)) := by
  rw [Codec.run_decode_enumeration]
  refine Buffer.takes_map some (Enumeration.takes_read type names) ?_
  rintro _ front ⟨⟨index, rfl⟩, written⟩
  refine ⟨_, rfl, ⟨rfl, rfl⟩, ?_⟩
  rw [Codec.run_encode_enumeration]
  exact written

/-- A sequence that is no set is taken as it would be written, if its elements are. -/
theorem takes_stream (depth : Nat) (visited : List Ty) (kind : SequenceKind) (element : Ty)
    (ordered : kind.isSet = false)
    (each : SpelledAt config limits schema depth visited element []) :
    Takes limits
      ((Codec.stream (.sequence kind element) element
          (schema.collect (.sequence kind element))).decode.run
        ((build schema config).answer depth visited))
      (Spells config schema depth visited (.sequence kind element)
        (Codec.stream (.sequence kind element) element
          (schema.collect (.sequence kind element)))) := by
  have elements := Buffer.takes_mono (each (.element element)) fun item front spelled =>
    And.imp_right (fun written => written (.element element)) spelled
  rw [Codec.run_decode_stream]
  refine Buffer.takes_bind (Buffer.takes_limits (Buffer.takes_readLongLength _))
    fun count front counted => ?_
  refine Buffer.takes_bind (Buffer.takes_repeated elements count [])
    fun items behind spelled => ?_
  obtain ⟨_, rfl, rfl, rebuilt, written⟩ := spelled
  have kept : Takes limits (Step.lift (schema.collect (.sequence kind element) items))
      fun whole rest => whole = .sequence (.sequence kind element) items ∧ rest = [] :=
    Buffer.takes_lift fun whole collected =>
      ⟨kind.collect_eq_of_ordered ordered element items whole (fun item listed =>
        (rebuilt item listed).type) collected, rfl⟩
  refine Buffer.takes_map some kept ?_
  rintro _ _ ⟨rfl, rfl⟩
  refine ⟨_, rfl, ⟨rfl, ?_⟩, ?_⟩
  · have same : items.map (Value.restored schema) = items.map id :=
      List.map_congr_left fun item listed => (rebuilt item listed).same
    rw [Value.restored, Value.restoredItems_eq_map, same, List.map_id]
  · rw [Codec.run_encode_stream, List.append_nil]
    exact Buffer.writes_lift ((Value.items_eq_ok _ _ _).mpr rfl)
      (Buffer.writes_bind counted written)

/-- The codec of a shape takes what it would write, if the requests that it makes do. -/
theorem takes_codec (depth : Nat) (visited : List Ty) (type : Ty) (marked : Option Ty)
    (shape : Shape) (shaped : schema.shape type marked = .ok shape)
    (canonical : schema.Canonical type)
    (honest : ∀ kind element named, type = .sequence kind element → marked = some named →
      named = element)
    (each : ∀ part, schema.Part type part → SpelledAt config limits schema depth visited part [])
    (nested : SpelledAt config limits schema depth visited type [])
    (fields : ∀ description, schema.kind type = .aggregate description →
      FieldsSpelled config limits schema depth visited type description) :
    Takes limits
      ((shape.codec schema type).decode.run ((build schema config).answer depth visited))
      (Spells config schema depth visited type (shape.codec schema type)) := by
  have fits := schema.fits_of_shape type marked shape shaped
  cases shape with
  | leaf plain =>
      obtain ⟨rfl, _⟩ := fits
      exact takes_leaf config limits depth visited plain
  | octets =>
      cases fits
      exact takes_octetVector config limits depth visited
  | enumeration names => exact takes_enumeration config limits depth visited type names
  | sequence element =>
      obtain ⟨_, declared, described, chosen⟩ := fits
      obtain ⟨kind, rfl⟩ := canonical.derived.chosen_element described chosen honest
      exact takes_stream config limits depth visited kind element
        (canonical.ordered kind element rfl) (each element (.element kind element))
  | map key value =>
      obtain ⟨kind, rfl⟩ := schema.kind_map type key value fits
      exact absurd rfl (canonical.unkeyed kind key value)
  | nested =>
      obtain ⟨inner, rfl⟩ := fits
      simp only [Shape.codec, Codec.run_decode_innerOption]
      refine Buffer.takes_map some (nested (.inner (.option inner))) ?_
      rintro value front ⟨rebuilt, written⟩
      refine ⟨value, rfl, rebuilt, ?_⟩
      rw [Codec.run_encode_innerOption]
      exact written (.inner (.option inner))
  | aggregate description =>
      simp only [Shape.codec, Codec.run_decode_aggregate]
      refine Buffer.takes_map some (fields description fits) ?_
      rintro value front ⟨rebuilt, written⟩
      refine ⟨value, rfl, rebuilt, ?_⟩
      rw [Codec.run_encode_aggregate]
      exact written
  | custom format => exact absurd fits (canonical.derived.not_custom format)

/-- What is taken behind a presence flag would be written with the flag. -/
theorem takes_flagged (depth : Nat) (visited : List Ty) (type : Ty) (flag : Bool) (codec : Codec)
    (below : Takes limits (codec.decode.run ((build schema config).answer depth visited))
      (Spells config schema depth visited type codec)) :
    Takes limits ((codec.flagged flag).decode.run ((build schema config).answer depth visited))
      fun result front => (∀ core, result = some core → core.Rebuilt schema type) ∧
        Writes (((codec.flagged flag).encode result).run
          ((build schema config).answer depth visited)) front := by
  cases flag with
  | false =>
      refine Buffer.takes_mono below ?_
      rintro _ front ⟨core, rfl, rebuilt, written⟩
      refine ⟨?_, written⟩
      rintro other ⟨⟩
      exact rebuilt
  | true =>
      rw [Codec.run_decode_flagged]
      refine Buffer.takes_bind Buffer.takes_readBool fun given front flag => ?_
      cases given with
      | true =>
          refine Buffer.takes_mono below ?_
          rintro _ behind ⟨core, rfl, rebuilt, written⟩
          refine ⟨?_, ?_⟩
          · rintro other ⟨⟩
            exact rebuilt
          · rw [Codec.run_encode_flagged]
            exact Buffer.writes_bind flag written
      | false =>
          refine Buffer.takes_pure none ⟨?_, ?_⟩
          · rintro core ⟨⟩
          · rw [Codec.run_encode_flagged]
            exact Buffer.writes_bind flag Buffer.writes_pure

/-! ## Aggregates -/

/-- The arguments are rebuilt values of the fields, and whatever aggregate has them in its
    fields would be written in the bytes, field by field. -/
def SpellsFields (schema : Schema) (encode : Context → Buffer.Op Unit) (owner : Ty)
    (fields : List Field) (arguments : List Value) (front : Bytes) : Prop :=
  List.Forall₂ (fun (field : Field) argument => argument.Rebuilt schema field.type) fields
      arguments ∧
    ∀ members index,
      List.Forall₂ (fun (field : Field) argument => members[field.slot]? = some argument) fields
        arguments →
      Writes (encodeFields encode owner (.record owner members) index fields) front

/-- What is taken at the place of a field is rebuilt, and would be written in the same bytes at
    any site. -/
def FieldSpelled (schema : Schema) (encode : Context → Buffer.Op Unit)
    (decode : Context → Buffer.Op Value) (field : Field) : Prop :=
  ∀ site, Takes limits (decode (.ofPlace field.type field.markers site none)) fun value front =>
    value.Rebuilt schema field.type ∧ ∀ otherSite,
      Writes (encode (.ofPlace field.type field.markers otherSite (some value))) front

variable {encode : Context → Buffer.Op Unit} {decode : Context → Buffer.Op Value}

/-- No fields are written in no bytes. -/
theorem spellsFields_nil (owner : Ty) : SpellsFields schema encode owner [] [] [] :=
  ⟨.nil, fun _ _ _ => Buffer.writes_pure⟩

/-- One more field is written before the others. -/
theorem spellsFields_cons (owner : Ty) (field : Field) (fields : List Field) (argument : Value)
    (arguments : List Value) (front behind : Bytes) (rebuilt : argument.Rebuilt schema field.type)
    (written : ∀ site,
      Writes (encode (.ofPlace field.type field.markers site (some argument))) front)
    (others : SpellsFields schema encode owner fields arguments behind) :
    SpellsFields schema encode owner (field :: fields) (argument :: arguments)
      (front ++ behind) := by
  refine ⟨.cons rebuilt others.1, fun members index held => ?_⟩
  cases held with
  | cons present later =>
      refine Buffer.writes_bind (Buffer.writes_inField _ _ ?_) (others.2 members (index + 1) later)
      exact Buffer.writes_lift ((Field.get_eq_ok owner field _ argument).mpr ⟨members, rfl, present⟩)
        (written (.field owner index))

/-- The arguments that mirror fields are taken as the fields would be written. -/
theorem takes_decodeArguments (owner : Ty) (constructor position : Nat) (fields : List Field)
    (each : ∀ field ∈ fields, FieldSpelled limits schema encode decode field) :
    Takes limits
      (decodeArguments decode owner constructor position (fields.map Field.parameter))
      (SpellsFields schema encode owner fields) := by
  induction fields generalizing position with
  | nil => exact Buffer.takes_pure _ (spellsFields_nil owner)
  | cons field rest inductionHypothesis =>
      refine Buffer.takes_bind (Buffer.takes_inField _ _
        (each field List.mem_cons_self (.parameter owner constructor position)))
        fun argument front spelled => ?_
      refine Buffer.takes_bind (inductionHypothesis (position + 1) fun other later =>
        each other (List.mem_cons_of_mem _ later)) fun arguments behind others => ?_
      refine Buffer.takes_pure _ ?_
      rw [List.append_nil]
      exact spellsFields_cons owner field rest argument arguments front behind spelled.1 spelled.2
        others

/-- Fields that are assigned are taken as they would be written. -/
theorem takes_assignFields (owner : Ty) (index : Nat) (fields : List Field) (current : List Value)
    (each : ∀ field ∈ fields, FieldSpelled limits schema encode decode field) :
    Takes limits (assignFields decode owner index fields (.record owner current))
      fun value front => ∃ arguments, value = .record owner (Field.put fields arguments current) ∧
        SpellsFields schema encode owner fields arguments front := by
  induction fields generalizing index current with
  | nil => exact Buffer.takes_pure _ ⟨[], rfl, spellsFields_nil owner⟩
  | cons field rest inductionHypothesis =>
      have first : Takes limits
          (Step.inField owner.name field.name do
            let decoded ← decode ((Context.make field.type field.markers).placedAt
              (.field owner index))
            Step.lift (field.set owner decoded (.record owner current)))
          fun value front => ∃ argument, value = .record owner (current.set field.slot argument) ∧
            argument.Rebuilt schema field.type ∧ ∀ site,
              Writes (encode (.ofPlace field.type field.markers site (some argument))) front := by
        refine Buffer.takes_inField _ _ (Buffer.takes_bind_lift
          (each field List.mem_cons_self (.field owner index)) ?_)
        rintro argument front ⟨rebuilt, written⟩ value put
        have expected : argument.expect field.type = .ok argument :=
          (Value.expect_eq_ok _ _ _).mpr ⟨rebuilt.type, rfl⟩
        simp only [Field.set, if_true, expected] at put
        cases put
        exact ⟨argument, rfl, rebuilt, written⟩
      refine Buffer.takes_bind first ?_
      rintro _ front ⟨argument, rfl, rebuilt, written⟩
      refine Buffer.takes_mono (inductionHypothesis (index + 1) (current.set field.slot argument)
        fun other later => each other (List.mem_cons_of_mem _ later)) ?_
      rintro _ behind ⟨arguments, rfl, others⟩
      exact ⟨argument :: arguments, rfl,
        spellsFields_cons owner field rest argument arguments front behind rebuilt written others⟩

/-- An aggregate whose travelling members are filled with arguments, and whose others are its
    blanks, is rebuilt and would be written as its fields. -/
theorem rebuilt_filled (type : Ty) (description : Aggregate)
    (described : schema.kind type = .aggregate description) (entry : Entry)
    (found : schema.find? type = some entry) (members : List Member)
    (fields : description.fields = Member.fieldsFrom 0 members)
    (blanks : entry.blanks description = members.map Member.blank) (arguments : List Value)
    (front : Bytes)
    (spelled : SpellsFields schema encode type description.fields arguments front) :
    (Value.record type (Member.filled members arguments)).Rebuilt schema type ∧
      Writes (encodeFields encode type (.record type (Member.filled members arguments)) 0
        description.fields) front := by
  obtain ⟨each, written⟩ := spelled
  refine ⟨⟨rfl, ?_⟩, written _ 0 ?_⟩
  · have paired : List.Forall₂ (fun (argument : Value) (_ : Field) =>
        argument.restored schema = argument ∧ True) arguments description.fields :=
      each.flip.imp fun _ _ rebuilt => ⟨rebuilt.same, trivial⟩
    have kept := ((List.forall₂_and_left _ _).mp paired).1
    rw [Value.restored, Value.restoredItems_eq_map, Schema.blanks, found, described]
    simp only [blanks, Member.refill_filled _ members arguments kept]
  · rw [fields] at each ⊢
    exact Member.getElem?_filled [] members arguments each.length_eq.symm

/-- An aggregate is taken as it would be written, whichever way it is rebuilt. -/
theorem takes_rebuild (type : Ty) (description : Aggregate)
    (described : schema.kind type = .aggregate description) (entry : Entry)
    (found : schema.find? type = some entry) (describes : entry.Describes description)
    (rebuilds : description.Rebuilds entry)
    (each : ∀ field ∈ description.fields, FieldSpelled limits schema encode decode field) :
    Takes limits (rebuild decode type description) fun value front =>
      value.Rebuilt schema type ∧
        Writes (encodeFields encode type value 0 description.fields) front := by
  obtain rfl : entry.type = type := Schema.type_of_find? found
  unfold Aggregate.Rebuilds at rebuilds
  unfold rebuild
  split
  · next index constructor chosen =>
      simp only [chosen] at rebuilds
      obtain ⟨mirrors, builds⟩ := rebuilds
      rw [mirrors]
      refine Buffer.takes_bind_lift
        (takes_decodeArguments limits entry.type index 0 description.fields each) ?_
      intro arguments front spelled value built
      have types : arguments.map Value.type = description.fields.map Field.type := by
        rw [← List.forall₂_eq_eq_eq, List.forall₂_map_left_iff, List.forall₂_map_right_iff]
        exact spelled.1.flip.imp fun _ _ rebuilt => rebuilt.type
      cases (builds arguments types).symm.trans built
      refine rebuilt_filled entry.type description described entry found entry.members
        describes.fields ?_ arguments front spelled
      simp only [Entry.blanks, chosen]
  · next initial chosen =>
      simp only [chosen] at rebuilds
      obtain ⟨values, rfl, types⟩ := rebuilds
      have lengths : values.length = entry.members.length := by
        simpa using congrArg List.length types
      refine Buffer.takes_mono
        (takes_assignFields limits entry.type 0 description.fields values each) ?_
      rintro _ front ⟨arguments, rfl, spelled⟩
      have put : Field.put (Member.fieldsFrom 0 entry.members) arguments values
          = Member.filled (Member.blankedBy entry.members values) arguments :=
        Member.put_eq_filled [] entry.members values arguments lengths
          (describes.fields ▸ spelled.1.length_eq.symm)
      have blanked := Member.fieldsFrom_blankedBy entry.members values 0 lengths
      have filled := rebuilt_filled entry.type description described entry found
        (Member.blankedBy entry.members values) (describes.fields.trans blanked.symm) (by
          simp only [Entry.blanks, chosen, Member.map_blank_blankedBy]) arguments front spelled
      rw [← describes.fields] at put
      rw [put]
      exact filled
  · next chosen => simp only [chosen] at rebuilds

/-! ## Whole walks -/

/-- Every place of a canonical type takes what it would write, and so do the fields of an
    aggregate. The induction is on how deep requests may nest, for both together. -/
theorem spelled_answer (depth : Nat) :
    (∀ visited declared markers, schema.Throughout schema.Canonical declared →
      Marker.Honest declared markers →
      SpelledAt config limits schema depth visited declared markers) ∧
    ∀ visited type description, schema.kind type = .aggregate description →
      schema.Throughout schema.Canonical type →
      FieldsSpelled config limits schema depth visited type description := by
  induction depth with
  | zero =>
      exact ⟨fun _ _ _ _ _ _ => Buffer.takes_fail _, fun _ _ _ _ _ => Buffer.takes_fail _⟩
  | succ depth inductionHypothesis =>
      obtain ⟨places, aggregates⟩ := inductionHypothesis
      constructor
      · intro visited declared markers canonical honest site
        have unmarked (part : Ty) (canonicalPart : schema.Throughout schema.Canonical part) :
            SpelledAt config limits schema depth visited part [] :=
          places visited part [] canonicalPart (Marker.honest_nil _)
        obtain ⟨shape, shaped⟩ := canonical.unwrapped.self.derived.shape (Marker.element? markers)
          declared.unwrapped_ne_boxed
        have below := takes_codec config limits depth visited declared.unwrapped
          (Marker.element? markers) shape shaped canonical.unwrapped.self honest
          (fun part contained => unmarked part (canonical.unwrapped.part contained))
          (unmarked declared.unwrapped canonical.unwrapped)
          (fun description described =>
            aggregates visited declared.unwrapped description described canonical.unwrapped)
        rw [answer_decode_place, shaped, Step.lift_ok, LawfulMonad.pure_bind]
        refine Buffer.takes_bind_lift (takes_flagged config limits depth visited _
          (declared.stripsOption || markers.contains .nullable) _ below) ?_
        rintro inner front ⟨core, written⟩ whole rewrapped
        obtain ⟨projected, rebuilt⟩ := (Value.Rebuilt.layered schema).project_rewrap declared inner
          whole core (Context.rewrapThrough_of_rewrap (.of declared) inner whole rewrapped)
        refine ⟨rebuilt, fun otherSite => ?_⟩
        rw [answer_encode_place, shaped, Step.lift_ok, LawfulMonad.pure_bind]
        exact Buffer.writes_lift projected written
      · intro visited type description described canonical
        obtain ⟨entry, found, describes, rebuilds⟩ :=
          canonical.self.derived.describes description described
        unfold FieldsSpelled
        simp only [answer]
        split
        · exact Buffer.takes_fail _
        · refine takes_rebuild limits type description described entry found describes rebuilds
            fun field listed => ?_
          exact places (type :: visited) field.type field.markers
            (canonical.part (.field type description described field listed))
            (describes.honest field listed)

/-- A value of a canonical type that is taken off a buffer would be appended in the bytes
    that were taken. -/
theorem takes_takingFrom (type : Ty) (canonical : schema.Throughout schema.Canonical type) :
    Takes limits ((build schema config).takingFrom type) fun value front =>
      value.Rebuilt schema type ∧ Writes ((build schema config).appending value) front := by
  have taken := (spelled_answer config limits
    ((build schema config).nesting (root type none))).1 [] type [] canonical
    (Marker.honest_nil _) (.root type)
  refine Buffer.takes_bind_lift taken ?_
  rintro value front ⟨rebuilt, written⟩ result expected
  obtain ⟨_, rfl⟩ := (Value.expect_eq_ok _ _ _).mp expected
  refine ⟨rebuilt, ?_⟩
  obtain rfl := rebuilt.type
  exact written (.root _)

/-- A value that was decoded is rebuilt and would be appended in all of the bytes. -/
theorem spelled_of_decode (type : Ty) (canonical : schema.Throughout schema.Canonical type)
    (bytes : Bytes) (memory : Memory) (reached : (build schema config).Reached memory)
    (value : Value) (later : Memory)
    (decoded : (build schema config).decode type bytes memory = .ok value later) :
    value.Rebuilt schema type ∧ Writes ((build schema config).appending value) bytes := by
  obtain ⟨_, same⟩ := decode_of_reached schema config type bytes memory reached
  obtain ⟨after, taken, emptied⟩ := taken_of_decoded _ type bytes value
    (Step.lift_eq_ok (same.symm.trans decoded))
  obtain ⟨front, rest, rfl, rfl, spelled⟩ :=
    takes_takingFrom config config type canonical _ _ _ taken
  obtain rfl : rest = [] := by simpa [Buffer.reader] using emptied
  rw [List.append_nil]
  exact spelled

/-- What was decoded is encoded in the same bytes, whatever the bytes and the limits and
    whatever the serializer remembers at either end. So bytes that are decoded to values that
    differ in nothing but members that do not travel are the same bytes. -/
theorem encode_decode (schema : Schema) (config : Config) (type : Ty)
    (canonical : schema.Throughout schema.Canonical type) (bytes : Bytes) (memory : Memory)
    (reached : (build schema config).Reached memory) (value : Value) (later : Memory)
    (decoded : (build schema config).decode type bytes memory = .ok value later) :
    (∀ other, (build schema config).Reached other →
      ∃ after, (build schema config).encode value other = .ok bytes after) ∧
    ∀ others other alike after, (build schema config).Reached other →
      (build schema config).decode type others other = .ok alike after →
      alike.restored schema = value.restored schema → others = bytes := by
  obtain ⟨rebuilt, written⟩ :=
    spelled_of_decode config type canonical bytes memory reached value later decoded
  constructor
  · intro other again
    obtain ⟨after, same⟩ := encode_of_reached schema config value other again
    have appended := written [] config
    rw [List.append_nil] at appended
    exact ⟨after, same.trans (congrArg (Step.lift · after) (encoded_of_appended appended))⟩
  · intro others other alike after again decodedOthers restored
    obtain ⟨rebuiltAlike, writtenOthers⟩ :=
      spelled_of_decode config type canonical others other again alike after decodedOthers
    rw [rebuiltAlike.same, rebuilt.same] at restored
    subst restored
    exact Buffer.eq_of_writes writtenOthers written

/-- A tree is made of types with one spelling for each value. -/
theorem tree_canonical : groves.Throughout groves.Canonical (.named "Tree") := by
  refine Schema.throughout_of_closed [.named "Tree", .vector (.named "Tree"), .string]
    List.mem_cons_self (by decide) ?_
  simp only [List.mem_cons, List.not_mem_nil, or_false]
  rintro part (rfl | rfl | rfl)
  · refine ⟨(groves_invertible _ (by decide)).self.1, ?_, ?_⟩
    · rintro kind element ⟨⟩
    · rintro kind key value ⟨⟩
  · refine ⟨(groves_invertible _ (by decide)).self.1, ?_, ?_⟩
    · rintro kind element ⟨⟩
      rfl
    · rintro kind key value ⟨⟩
  · refine ⟨(groves_invertible _ (by decide)).self.1, ?_, ?_⟩
    · rintro kind element ⟨⟩
    · rintro kind key value ⟨⟩

/-- The bytes of a tree come back from its value, and no other bytes make a tree that differs
    in its forgotten depth only. -/
theorem encode_decode_tree :
    let bytes : Bytes := [0, 0, 0, 3, 111, 97, 107, 0, 0, 0, 0, 0, 0, 0, 0]
    groves.Throughout groves.Canonical (.named "Tree") ∧
      (build groves {}).Reached (build groves {}).start ∧
      ∃ tree later, (build groves {}).decode (.named "Tree") bytes (build groves {}).start
          = .ok tree later ∧
        (∃ after, (build groves {}).encode tree (build groves {}).start = .ok bytes after) ∧
        ∀ others alike after,
          (build groves {}).decode (.named "Tree") others (build groves {}).start
            = .ok alike after →
          alike.restored groves = tree.restored groves → others = bytes := by
  intro bytes
  have canonical := tree_canonical
  have fresh : (build groves {}).Reached (build groves {}).start := .start
  obtain ⟨tree, later, decoded⟩ := Step.exists_of_succeeded (show Step.succeeded
    ((build groves {}).decode (.named "Tree") bytes (build groves {}).start) = true by
      decide +kernel)
  obtain ⟨encoded, unique⟩ := encode_decode groves {} (.named "Tree") canonical bytes _ fresh tree
    later decoded
  exact ⟨canonical, fresh, tree, later, decoded, encoded _ fresh,
    fun others alike after => unique others _ alike after fresh⟩

end Serializer

end Wireform
