import Wireform.Proofs.Growth
import Wireform.Proofs.Regained

/-!
# What a serializer gives back

A serializer without rules of a user's gives back what it has written whenever it reads that
at all. This needs no limits to be kept, no element to be of the type that markers name, and no
constructor to accept its arguments: where something is amiss, writing or reading fails, and
nothing is claimed. It is enough that the types are recoverable.

The steps follow the codecs, from the leaves up to places and aggregates, and meet in an
induction on how deep requests may nest. What is asked of a value on the way is that it is formed if
it is of the type of its place, since an element may be written as something that it is not.
-/

namespace Wireform

open Buffer (Grows Recovers)

variable {schema : Schema} {config : Config} {domain : Ty → Value → Prop}

/-- A list that consists of octets is made of them. -/
theorem Codec.eq_of_octets? (items : List Value) (octets : Bytes)
    (held : octets? items = some octets) : items = octets.map Value.u8 := by
  induction items generalizing octets with
  | nil => cases held; rfl
  | cons item rest inductionHypothesis =>
      rw [octets?, List.mapM_cons] at held
      obtain ⟨octet, first, held⟩ := Option.bind_eq_some_iff.mp held
      obtain ⟨others, later, same⟩ := Option.bind_eq_some_iff.mp held
      cases same
      obtain rfl : item = Value.u8 octet := by
        unfold octet? at first
        split at first
        · cases first; rfl
        · cases first
      rw [inductionHypothesis others later, List.map_cons]

namespace Serializer

/-! ## What a place gives back -/

section Recovering

variable {depth : Nat} {visited : List Ty}

/-- What is written at a place of the type is regained at any such place. -/
def RecoversAt (schema : Schema) (config : Config) (domain : Ty → Value → Prop) (depth : Nat)
    (visited : List Ty) (declared : Ty) (markers : List Marker) (value : Value) : Prop :=
  value.Befits schema domain declared → ∀ site otherSite, Recovers config
    ((build schema config).answer depth visited
      (.encode (.ofPlace declared markers site (some value))))
    ((build schema config).answer depth visited
      (.decode (.ofPlace declared markers otherSite none)) : Buffer.Op Value)
    (Value.Regained schema domain declared value)

/-- What is written as the fields of an aggregate is regained as the aggregate. -/
def RecoversFields (schema : Schema) (config : Config) (domain : Ty → Value → Prop) (depth : Nat)
    (visited : List Ty) (type : Ty) (description : Aggregate) (value : Value) : Prop :=
  value.Befits schema domain type → Recovers config
    ((build schema config).answer depth visited (.encodeFields type description value))
    ((build schema config).answer depth visited (.decodeFields type description) : Buffer.Op Value)
    (Value.Regained schema domain type value)

/-- What is written for a field at its place is regained at any place of the field. -/
structure RecoversField (schema : Schema) (config : Config) (domain : Ty → Value → Prop)
    (encode : Context → Buffer.Op Unit) (decode : Context → Buffer.Op Value) (field : Field) :
    Prop where
  grows : ∀ site member, Grows (encode (.ofPlace field.type field.markers site (some member)))
  recovers : ∀ member, member.Befits schema domain field.type → ∀ site otherSite,
    Recovers config (encode (.ofPlace field.type field.markers site (some member)))
      (decode (.ofPlace field.type field.markers otherSite none))
      (Value.Regained schema domain field.type member)

/-- A leaf is given back. -/
theorem recovers_leaf (kind : Leaf) (value : Value) :
    Recovers config
      (((Codec.leaf kind).encode (some value)).run ((build schema config).answer depth visited))
      ((Codec.leaf kind).decode.run ((build schema config).answer depth visited))
      (Option.Rel (Value.Regained schema domain (.leaf kind)) (some value)) := by
  simp only [Codec.run_encode_leaf, Codec.run_decode_leaf]
  refine Buffer.recovers_lift_bind fun result expected => ?_
  obtain ⟨own, rfl⟩ := (Value.expect_eq_ok _ value result).mp expected
  refine Buffer.recovers_map some (Leaf.recovers_value kind result) ?_
  rintro _ rfl
  exact .some ⟨own, fun formed => (Value.renewed_of_leaf formed).symm⟩

/-- A vector of octets is given back. -/
theorem recovers_octetVector (value : Value) :
    Recovers config
      ((Codec.octetVector.encode (some value)).run ((build schema config).answer depth visited))
      (Codec.octetVector.decode.run ((build schema config).answer depth visited))
      (Option.Rel (Value.Regained schema domain (Ty.vector .u8)) (some value)) := by
  rw [Codec.run_encode_octetVector, Codec.run_decode_octetVector]
  refine Buffer.recovers_lift_bind fun result expected => ?_
  obtain ⟨own, rfl⟩ := (Value.expect_eq_ok _ value result).mp expected
  split
  · next octets held =>
      cases opened : result.items (Ty.vector .u8) with
      | error error => rw [opened] at held; cases held
      | ok items =>
          rw [opened] at held
          cases (Value.items_eq_ok _ result items).mp opened
          obtain rfl := Codec.eq_of_octets? items octets held
          have vector : Recovers config (Buffer.writeBytes octets)
              (do return Value.sequence (Ty.vector .u8) ((← Buffer.readBytes).map Value.u8))
              (· = Value.sequence (Ty.vector .u8) (octets.map Value.u8)) := by
            refine Buffer.recovers_bind_pure (Buffer.recovers_bytes octets) ?_
            rintro _ rfl buffer whole last made
            cases made
            exact ⟨rfl, rfl⟩
          refine Buffer.recovers_map some vector ?_
          rintro _ rfl
          refine .some ⟨rfl, fun _ => ?_⟩
          rw [Value.renewed_sequence _ (some .u8) rfl, List.map_map]
          rfl
  · exact Buffer.recovers_fail _

/-- A sequence is given back if its elements are, though as elements of the type that was chosen
    for them. -/
theorem recovers_stream (type element : Ty) (declared : Option Ty)
    (described : schema.kind type = .sequence declared)
    (grows : ∀ site item, Grows ((build schema config).answer depth visited
      (.encode (.ofPlace element [] site (some item)))))
    (each : ∀ item, RecoversAt schema config domain depth visited element [] item) (value : Value)
    (befits : value.Befits schema domain type) :
    Recovers config
      (((Codec.stream type element (schema.collect type)).encode (some value)).run
        ((build schema config).answer depth visited))
      ((Codec.stream type element (schema.collect type)).decode.run
        ((build schema config).answer depth visited))
      (Option.Rel (Value.Regained schema domain type) (some value)) := by
  rw [Codec.run_encode_stream, Codec.run_decode_stream]
  refine Buffer.recovers_lift_bind fun items opened => ?_
  cases (Value.items_eq_ok type value items).mp opened
  have eachGrows : ∀ item ∈ items, Grows ((build schema config).answer depth visited
      (.encode ((Codec.elementPlace element).withValue item))) := fun item _ => grows _ item
  refine Buffer.recovers_bind (Buffer.emits_writeLongLength _).appends.grows
    (Buffer.grows_forM items eachGrows)
    (Buffer.recovers_limits (Buffer.recovers_longLength _ items.length)) ?_
  rintro _ rfl
  refine Buffer.recovers_bind_pure (Buffer.recovers_each items eachGrows
    fun item listed => each item (befits.items described element item listed) (.element element)
      (.element element)) ?_
  intro others regained buffer whole last made
  cases collected : schema.collect type others with
  | error error => rw [collected] at made; cases made
  | ok found =>
      rw [collected] at made
      cases made
      exact ⟨.some (Value.regained_sequence type element declared described items others found
        regained collected), rfl⟩

/-- A map is given back if its keys and values are. -/
theorem recovers_map (kind : MapKind) (key part : Ty)
    (growsKey : ∀ site item, Grows ((build schema config).answer depth visited
      (.encode (.ofPlace key [] site (some item)))))
    (growsPart : ∀ site item, Grows ((build schema config).answer depth visited
      (.encode (.ofPlace part [] site (some item)))))
    (keys : ∀ item, RecoversAt schema config domain depth visited key [] item)
    (parts : ∀ item, RecoversAt schema config domain depth visited part [] item) (value : Value)
    (befits : value.Befits schema domain (.map kind key part)) :
    Recovers config
      (((Codec.map (.map kind key part) key part).encode (some value)).run
        ((build schema config).answer depth visited))
      ((Codec.map (.map kind key part) key part).decode.run
        ((build schema config).answer depth visited))
      (Option.Rel (Value.Regained schema domain (.map kind key part)) (some value)) := by
  rw [Codec.run_encode_map, Codec.run_decode_map]
  refine Buffer.recovers_lift_bind fun entries opened => ?_
  cases (Value.entries_eq_ok _ value entries).mp opened
  have eachGrows : ∀ entry ∈ entries, Grows (do
      (build schema config).answer depth visited
        (.encode ((Codec.keyPlace key).withValue entry.1))
      (build schema config).answer depth visited
        (.encode ((Codec.valuePlace part).withValue entry.2))) :=
    fun entry _ => Buffer.grows_bind (growsKey _ entry.1) (growsPart _ entry.2)
  obtain ⟨formedKeys, formedParts⟩ := (befits rfl).entries
  have each (entry : Value × Value) (listed : entry ∈ entries) : Recovers config
      (do
        (build schema config).answer depth visited
          (.encode ((Codec.keyPlace key).withValue entry.1))
        (build schema config).answer depth visited
          (.encode ((Codec.valuePlace part).withValue entry.2)))
      (Program.decodeEntry ((build schema config).answer depth visited) (Codec.keyPlace key)
        (Codec.valuePlace part))
      fun other => Value.Regained schema domain key entry.1 other.1 ∧
        Value.Regained schema domain part entry.2 other.2 := by
    refine Buffer.recovers_bind (growsKey _ entry.1) (growsPart _ entry.2)
      (keys entry.1 (.of_formed (formedKeys entry listed) key) (.key key) (.key key))
      fun first regained => ?_
    refine Buffer.recovers_bind_pure
      (parts entry.2 (.of_formed (formedParts entry listed) part) (.value part) (.value part)) ?_
    intro second regainedToo buffer whole last made
    cases made
    exact ⟨⟨regained, regainedToo⟩, rfl⟩
  refine Buffer.recovers_bind (Buffer.emits_writeLength _).appends.grows
    (Buffer.grows_forM entries eachGrows)
    (Buffer.recovers_limits (Buffer.recovers_length _ entries.length)) ?_
  rintro _ rfl
  refine Buffer.recovers_bind_pure (Buffer.recovers_each entries eachGrows each) ?_
  intro others regained buffer whole last made
  cases collected : Schema.collectEntries (.map kind key part) others with
  | error error => rw [collected] at made; cases made
  | ok found =>
      rw [collected] at made
      cases made
      exact ⟨.some (Value.regained_map kind key part entries others found regained collected),
        rfl⟩

/-- The codec of a shape gives back what is below the layers of a place, if the requests that it
    makes are given back. -/
theorem recovers_codec (type : Ty) (marked : Option Ty) (shape : Shape)
    (shaped : schema.shape type marked = .ok shape)
    (recoverable : schema.Throughout (schema.Recoverable config domain) type)
    (recoverableMarked : ∀ element, marked = some element →
      schema.Throughout (schema.Recoverable config domain) element)
    (grows : ∀ declared site item, schema.Throughout (schema.Recoverable config domain) declared →
      Grows ((build schema config).answer depth visited
        (.encode (.ofPlace declared [] site (some item)))))
    (each : ∀ declared item, schema.Throughout (schema.Recoverable config domain) declared →
      RecoversAt schema config domain depth visited declared [] item)
    (fields : ∀ description item, schema.kind type = .aggregate description →
      RecoversFields schema config domain depth visited type description item)
    (value : Value) (befits : value.Befits schema domain type) :
    Recovers config
      (((shape.codec schema type).encode (some value)).run
        ((build schema config).answer depth visited))
      ((shape.codec schema type).decode.run ((build schema config).answer depth visited))
      (Option.Rel (Value.Regained schema domain type) (some value)) := by
  have fits := schema.fits_of_shape type marked shape shaped
  cases shape with
  | leaf kind =>
      obtain ⟨rfl, _⟩ := fits
      exact recovers_leaf kind value
  | octets =>
      cases fits
      exact recovers_octetVector value
  | enumeration names =>
      simp only [Shape.codec, Codec.run_encode_enumeration, Codec.run_decode_enumeration]
      refine Buffer.recovers_map some (Enumeration.recovers_member type names
        (recoverable.self.distinct names fits) value) fun result fine => ?_
      exact .some ⟨fine.1, fun formed =>
        fine.2.trans (Value.renewed_of_enumeration fits formed).symm⟩
  | sequence element =>
      obtain ⟨_, declared, described, chosen⟩ := fits
      have recoverableElement := recoverable.chosen recoverableMarked described chosen
      exact recovers_stream type element declared described
        (fun site item => grows element site item recoverableElement)
        (fun item => each element item recoverableElement) value befits
  | map key part =>
      obtain ⟨kind, rfl⟩ := schema.kind_map type key part fits
      have recoverableKey := recoverable.part (.key kind key part)
      have recoverablePart := recoverable.part (.value kind key part)
      exact recovers_map kind key part
        (fun site item => grows key site item recoverableKey)
        (fun site item => grows part site item recoverablePart)
        (fun item => each key item recoverableKey) (fun item => each part item recoverablePart)
        value befits
  | nested =>
      simp only [Shape.codec, Codec.run_encode_innerOption, Codec.run_decode_innerOption]
      exact Buffer.recovers_map some
        (each type value recoverable befits (.inner type) (.inner type)) fun _ => .some
  | aggregate description =>
      simp only [Shape.codec, Codec.run_encode_aggregate, Codec.run_decode_aggregate]
      exact Buffer.recovers_map some (fields description value fits befits) fun _ => .some
  | custom format =>
      simp only [Shape.codec, Codec.custom, Codec.presentOnly, Program.run_map, run_buffer_answer,
        Custom.writeValue]
      split
      · next own =>
          refine Buffer.recovers_map some
            ((recoverable.self.formats format fits).recovers value own
              ((befits own).domain_of_custom format fits)) ?_
          rintro result rfl
          refine .some ⟨own, fun _ => (Value.renewed_of_custom result format ?_).symm⟩
          rw [own]
          exact fits
      · exact Buffer.recovers_fail _

/-- A flag is given back, and what stands behind it. -/
theorem recovers_flagged {related : Value → Value → Prop} (flag : Bool) (codec : Codec)
    (inner : Option Value)
    (grows : ∀ core, inner = some core →
      Grows ((codec.encode (some core)).run ((build schema config).answer depth visited)))
    (below : ∀ core, inner = some core → Recovers config
      ((codec.encode (some core)).run ((build schema config).answer depth visited))
      (codec.decode.run ((build schema config).answer depth visited))
      (Option.Rel related (some core)))
    (absent : inner = none → flag = true) :
    Recovers config
      (((codec.flagged flag).encode inner).run ((build schema config).answer depth visited))
      ((codec.flagged flag).decode.run ((build schema config).answer depth visited))
      (Option.Rel related inner) := by
  cases flag with
  | false =>
      cases inner with
      | none => cases absent rfl
      | some core => exact below core rfl
  | true =>
      rw [Codec.run_encode_flagged, Codec.run_decode_flagged]
      cases inner with
      | none =>
          refine Buffer.recovers_bind (Buffer.emits_writeBool false).appends.grows
            Buffer.emits_pure.appends.grows (Buffer.recovers_bool false) ?_
          rintro _ rfl
          exact Buffer.recovers_pure none .none
      | some core =>
          refine Buffer.recovers_bind (Buffer.emits_writeBool true).appends.grows (grows core rfl)
            (Buffer.recovers_bool true) ?_
          rintro _ rfl
          exact below core rfl

/-- A place gives back a value if the codec gives back what is below its layers. -/
theorem recovers_place (declared : Ty) (markers : List Marker) (value : Value)
    (codecs : value.Befits schema domain declared → ∀ shape inner,
      schema.shape declared.unwrapped (Marker.element? markers) = .ok shape →
      Context.projectThrough declared.layers value = .ok inner →
      Recovers config
        ((((shape.codec schema declared.unwrapped).flagged
          (declared.stripsOption || markers.contains .nullable)).encode inner).run
            ((build schema config).answer depth visited))
        (((shape.codec schema declared.unwrapped).flagged
          (declared.stripsOption || markers.contains .nullable)).decode.run
            ((build schema config).answer depth visited))
        (Option.Rel (Value.Regained schema domain declared.unwrapped) inner)) :
    RecoversAt schema config domain (depth + 1) visited declared markers value := by
  intro befits site otherSite
  rw [answer_encode_place, answer_decode_place]
  refine Buffer.recovers_lift_bind fun shape shaped =>
    Buffer.recovers_lift_bind fun inner projected => ?_
  rw [shaped]
  exact Buffer.recovers_bind_lift (codecs befits shape inner shaped projected)
    fun found result regained rewrapped =>
      Value.regained_place declared value inner found result projected regained rewrapped

/-! ## Aggregates -/

section Aggregates

variable {encode : Context → Buffer.Op Unit} {decode : Context → Buffer.Op Value}

/-- The arguments of a constructor are regained from the fields of a value. -/
theorem recovers_decodeArguments (owner : Ty) (value : Value) (constructor index position : Nat)
    (fields : List Field) (parameters : List Parameter)
    (matching : List.Forall₂ (fun (field : Field) (parameter : Parameter) =>
      parameter.type = field.type ∧ parameter.markers = field.markers) fields parameters)
    (each : ∀ field ∈ fields, RecoversField schema config domain encode decode field)
    (befits : ∀ field ∈ fields, ∀ member, field.get owner value = .ok member →
      member.Befits schema domain field.type) :
    Recovers config (encodeFields encode owner value index fields)
      (decodeArguments decode owner constructor position parameters)
      (List.Forall₂ (Value.RegainedField schema domain owner value) fields) := by
  induction matching generalizing index position with
  | nil => exact Buffer.recovers_pure [] .nil
  | @cons field parameter rest others same _ inductionHypothesis =>
      obtain ⟨name, type, markers⟩ := parameter
      obtain ⟨rfl, rfl⟩ := same
      obtain ⟨own, later⟩ := List.forall_mem_cons.mp each
      obtain ⟨here, others⟩ := List.forall_mem_cons.mp befits
      have first : Recovers config
          (Step.inField owner.name field.name do
            encode (((Context.make field.type field.markers).withValue
              (← Step.lift (field.get owner value))).placedAt (.field owner index)))
          (Step.inField owner.name name
            (decode ((Context.make field.type field.markers).placedAt
              (.parameter owner constructor position))))
          (Value.RegainedField schema domain owner value field) :=
        Buffer.recovers_inField _ _ _ _ (Buffer.recovers_lift_bind fun child got =>
          Buffer.recovers_mono (own.recovers child (here child got) _ _)
            fun _ regained => ⟨child, got, regained⟩)
      refine Buffer.recovers_bind
        (Buffer.grows_inField _ _ (Buffer.grows_lift_bind fun child _ => own.grows _ child))
        (grows_encodeFields owner value (index + 1) rest
          fun field listed => (later field listed).grows)
        first fun argument regained => ?_
      refine Buffer.recovers_bind_pure
        (inductionHypothesis (index + 1) (position + 1) later others) ?_
      intro arguments all buffer whole last made
      cases made
      exact ⟨.cons regained all, rfl⟩

/-- Assigned fields are regained from the fields of a value. -/
theorem recovers_assignFields (owner : Ty) (value : Value) (index position : Nat)
    (fields : List Field) (current : List Value)
    (each : ∀ field ∈ fields, RecoversField schema config domain encode decode field)
    (befits : ∀ field ∈ fields, ∀ member, field.get owner value = .ok member →
      member.Befits schema domain field.type) :
    Recovers config (encodeFields encode owner value index fields)
      (assignFields decode owner position fields (.record owner current))
      fun result => ∃ arguments, result = .record owner (Field.put fields arguments current) ∧
        List.Forall₂ (Value.RegainedField schema domain owner value) fields arguments := by
  induction fields generalizing index position current with
  | nil => exact Buffer.recovers_pure _ ⟨[], rfl, .nil⟩
  | cons field rest inductionHypothesis =>
      obtain ⟨own, later⟩ := List.forall_mem_cons.mp each
      obtain ⟨here, others⟩ := List.forall_mem_cons.mp befits
      have first : Recovers config
          (Step.inField owner.name field.name do
            encode (((Context.make field.type field.markers).withValue
              (← Step.lift (field.get owner value))).placedAt (.field owner index)))
          (Step.inField owner.name field.name do
            Step.lift (field.set owner
              (← decode ((Context.make field.type field.markers).placedAt (.field owner position)))
              (.record owner current)))
          fun changed => ∃ argument, changed = .record owner (current.set field.slot argument) ∧
            Value.RegainedField schema domain owner value field argument := by
        refine Buffer.recovers_inField _ _ _ _ (Buffer.recovers_lift_bind fun child got =>
          Buffer.recovers_bind_lift (own.recovers child (here child got) _ _)
            fun argument changed regained put => ?_)
        have expected := (Value.expect_eq_ok field.type argument argument).mpr
          ⟨regained.type_eq, rfl⟩
        simp only [Field.set, if_true, expected] at put
        cases put
        exact ⟨argument, rfl, child, got, regained⟩
      refine Buffer.recovers_bind
        (Buffer.grows_inField _ _ (Buffer.grows_lift_bind fun child _ => own.grows _ child))
        (grows_encodeFields owner value (index + 1) rest
          fun field listed => (later field listed).grows)
        first ?_
      rintro _ ⟨argument, rfl, regained⟩
      refine Buffer.recovers_mono
        (inductionHypothesis (index + 1) (position + 1) (current.set field.slot argument) later
          others) ?_
      rintro _ ⟨arguments, rfl, all⟩
      exact ⟨argument :: arguments, rfl, .cons regained all⟩

/-- An aggregate is regained from its fields, whichever way it is rebuilt. -/
theorem recovers_rebuild (type : Ty) (description : Aggregate)
    (described : schema.kind type = .aggregate description) (entry : Entry)
    (found : schema.find? type = some entry)
    (fields : description.fields = Member.fieldsFrom 0 entry.members)
    (retains : description.Retains entry)
    (each : ∀ field ∈ description.fields, RecoversField schema config domain encode decode field)
    (value : Value) (befits : value.Befits schema domain type) :
    Recovers config (encodeFields encode type value 0 description.fields)
      (rebuild decode type description) (Value.Regained schema domain type value) := by
  obtain rfl : entry.type = type := Schema.type_of_find? found
  have kept := retains
  unfold Aggregate.Retains at kept
  unfold rebuild
  split
  · next index constructor chosen =>
      simp only [chosen] at kept
      obtain ⟨matching, builds⟩ := kept
      refine Buffer.recovers_bind_lift (recovers_decodeArguments entry.type value index 0 0
        description.fields constructor.parameters matching each
        (befits.field described)) fun arguments whole regained built => ?_
      have types : arguments.map Value.type = description.fields.map Field.type :=
        map_eq_of_related regained Field.type Value.type fun _ _ found => by
          obtain ⟨_, _, own⟩ := found
          exact own.type_eq
      rw [builds arguments whole types built]
      exact Value.regained_filled entry.type description described entry found entry.members fields
        (by simp only [Entry.blanks, chosen]) rfl value arguments regained
  · next initial chosen =>
      simp only [chosen] at kept
      obtain ⟨values, rfl, lengths⟩ := kept
      refine Buffer.recovers_mono
        (recovers_assignFields entry.type value 0 0 description.fields values each
          (befits.field described)) ?_
      rintro _ ⟨arguments, rfl, regained⟩
      have counts : arguments.length = (Member.fieldsFrom 0 entry.members).length :=
        fields ▸ regained.length_eq.symm
      have put : Field.put (Member.fieldsFrom 0 entry.members) arguments values
          = Member.filled (Member.blankedBy entry.members values) arguments :=
        Member.put_eq_filled [] entry.members values arguments lengths counts
      have blanked := Member.fieldsFrom_blankedBy entry.members values 0 lengths
      rw [fields, put]
      refine Value.regained_filled entry.type description described entry found
        (Member.blankedBy entry.members values) (fields.trans blanked.symm) ?_ ?_ value arguments
        regained
      · simp only [Entry.blanks, chosen, Member.map_blank_blankedBy]
      · rw [Member.blankedBy, List.length_zipWith, lengths, Nat.min_self]
  · exact Buffer.recovers_from_fail _

end Aggregates

end Recovering

/-- Every place gives back what it has written, and so do the fields of aggregates, if the types
    are recoverable. The induction is on how deep requests may nest, for both together. -/
theorem recovers_answer (depth : Nat) :
    (∀ visited declared markers value,
      schema.Throughout (schema.Recoverable config domain) declared →
      (∀ element, Marker.element? markers = some element →
        schema.Throughout (schema.Recoverable config domain) element) →
      RecoversAt schema config domain depth visited declared markers value) ∧
    ∀ visited type description value, schema.kind type = .aggregate description →
      schema.Throughout (schema.Recoverable config domain) type →
      RecoversFields schema config domain depth visited type description value := by
  induction depth with
  | zero =>
      exact ⟨fun _ _ _ _ _ _ _ _ _ => Buffer.recovers_fail _, fun _ _ _ _ _ _ _ =>
        Buffer.recovers_fail _⟩
  | succ depth inductionHypothesis =>
      obtain ⟨places, aggregates⟩ := inductionHypothesis
      obtain ⟨growsAt, growsFields⟩ := @grows_answer schema config depth
      have growing {type : Ty}
          (recoverable : schema.Throughout (schema.Recoverable config domain) type) :
          schema.Throughout schema.Growing type :=
        recoverable.mono fun _ own => own.growing
      constructor
      · intro visited declared markers value recoverable recoverableMarked
        refine recovers_place declared markers value fun befits shape inner shaped projected => ?_
        refine recovers_flagged _ _ inner (fun core _ => ?_) (fun core same => ?_) fun absent => ?_
        · exact grows_codec declared.unwrapped _ shape shaped (growing recoverable.unwrapped)
            (fun element named => growing (recoverableMarked element named))
            (fun other site item otherGrowing => growsAt visited other [] site item otherGrowing
              fun _ named => by cases named)
            (fun description item described =>
              growsFields visited _ description item described (growing recoverable.unwrapped)) core
        · exact recovers_codec declared.unwrapped _ shape shaped recoverable.unwrapped
            recoverableMarked
            (fun other site item otherRecoverable => growsAt visited other [] site item
              (growing otherRecoverable) fun _ named => by cases named)
            (fun other item otherRecoverable => places visited other [] item otherRecoverable
              fun _ named => by cases named)
            (fun description item described =>
              aggregates visited _ description item described recoverable.unwrapped) core
            (befits.project core (same ▸ projected))
        · subst absent
          rw [stripsOption_of_project declared value projected, Bool.true_or]
      · intro visited type description value described recoverable befits
        obtain ⟨entry, found, fields, retains⟩ :=
          recoverable.self.retains description described
        simp only [answer]
        split
        · exact Buffer.recovers_fail _
        · refine recovers_rebuild type description described entry found fields retains
            (fun field listed => ?_) value befits
          have part := recoverable.part (.field type description described field listed)
          have marked (element : Ty) (named : Marker.element? field.markers = some element) :
              schema.Throughout (schema.Recoverable config domain) element :=
            recoverable.part (.marked type description described field listed element
              (Marker.streamable_of_element? _ _ named))
          refine ⟨fun site member => ?_, fun member befitsField site otherSite => ?_⟩
          · exact growsAt (type :: visited) field.type field.markers site member (growing part)
              fun element named => growing (marked element named)
          · exact places (type :: visited) field.type field.markers member part marked
              befitsField site otherSite

/-- What is appended for a value is regained when it is taken off as a value of the same type. -/
theorem recovers_appending (value : Value)
    (recoverable : schema.Throughout (schema.Recoverable config domain) value.type)
    (formed : value.Formed schema domain value.type) :
    Recovers config ((build schema config).appending value)
      ((build schema config).taking value.type)
      (Value.Regained schema domain value.type value) :=
  (recovers_answer ((build schema config).nesting (root value.type (some value)))).1 []
    value.type [] value recoverable (fun _ named => by cases named) (fun _ => formed)
    (.root value.type) (.root value.type)

end Serializer

end Wireform
