import Wireform.Proofs.Lawful

/-!
# Built-in codecs are lawful

A built-in codec has no say in how the requests that it makes are answered. If what it asks to
be encoded comes back alike, then what it is given does: a leaf by itself, a collection from
its elements, a map from its entries, a nested option from its own place, and an aggregate from
its fields, whichever way it is rebuilt. Nothing is known here of the rules that answer.

A value that is encoded at the place of a field may come back at that of the parameter, so this
is part of what is asked of places. What is written for collections, texts and octets has to be
of lengths that the limits admit.
-/

namespace Wireform

open Buffer (Conveys)

/-! ## Codecs -/

variable {schema : Schema} {config : Config}

/-- A value of a leaf type is conveyed as it is. -/
theorem Leaf.conveys_value (plain : Scalar) (good : Value → Prop) (fine : good (.scalar plain))
    (admitted : ∀ piece ∈ plain.layout, piece.Admitted config) :
    Conveys config (plain.leaf.writeValue (.scalar plain)) plain.leaf.readValue good := by
  have writes : plain.leaf.writeValue (.scalar plain) = plain.write := if_pos rfl
  rw [writes]
  refine Buffer.conveys_of_reads _ _ plain.emits_write.appends (fun succeeds => ?_) fine
  exact Buffer.reads_bind_pure (Leaf.reads_read config plain succeeds admitted)
    (Buffer.reads_pure _)

/-- A member of an enumeration is conveyed by its name. -/
theorem Enumeration.conveys_member (type : Ty) (names : List String) (distinct : names.Nodup)
    (index : Nat) (known : index < names.length)
    (admitted : ∀ piece ∈ Piece.text (names[index]?.getD ""), piece.Admitted config) :
    Conveys config (write type names (.member type index)) (read type names)
      (Value.Alike schema type (.member type index)) := by
  have named : names[index]? = some names[index] := List.getElem?_eq_getElem known
  have writes : write type names (.member type index) = Buffer.writeString names[index] := by
    simp only [write, nameOf, named, if_true]
  refine Buffer.conveys_of_reads (Piece.wire (Piece.text (names[index]?.getD ""))) _ ?_
    (fun succeeds => reads_read config type names distinct index known succeeds admitted)
    (.refl _ _)
  rw [writes, named, Option.getD_some]
  exact (Buffer.emits_writeString names[index]).appends

namespace Codec

variable (serializer : Serializer) (depth : Nat) (visited : List Ty)

/-- A codec for the values of a type conveys what it conveys by itself. -/
theorem conveys_typed (type : Ty) (write : Value → Buffer.Op Unit) (read : Buffer.Op Value)
    (alike : Value → Value → Prop) (value : Value)
    (conveys : Conveys config (write value) read (alike value)) :
    Conveys config (((typed type write read).encode (some value)).run
        (serializer.answer depth visited))
      ((typed type write read).decode.run (serializer.answer depth visited))
      (Option.Rel alike (some value)) := by
  simp only [typed, presentOnly, Program.run_bind, Program.run_map, Program.run_lift,
    Serializer.run_buffer_answer]
  refine Buffer.conveys_lift_bind fun result expected => ?_
  obtain ⟨_, rfl⟩ := (Value.expect_eq_ok type value result).mp expected
  exact Buffer.conveys_map some conveys fun _ alike => .some alike

/-- A vector of octets is conveyed as a byte string. -/
theorem conveys_octetVector (octets : Bytes) (held : octets? (octets.map Value.u8) = some octets)
    (admitted : ∀ piece ∈ Piece.counted octets, piece.Admitted config) :
    Conveys config
      ((octetVector.encode (some (.sequence (Ty.vector .u8) (octets.map Value.u8)))).run
        (serializer.answer depth visited))
      (octetVector.decode.run (serializer.answer depth visited))
      (Option.Rel (Value.Alike schema (Ty.vector .u8))
        (some (.sequence (Ty.vector .u8) (octets.map Value.u8)))) := by
  rw [run_encode_octetVector, run_decode_octetVector]
  refine Buffer.conveys_lift_bind fun result expected => ?_
  obtain ⟨_, rfl⟩ := (Value.expect_eq_ok _ _ result).mp expected
  simp only [Value.items, if_true, Except.toOption, Option.bind_some, held]
  refine Buffer.conveys_of_reads _ _ (Buffer.emits_writeBytes octets).appends (fun succeeds => ?_)
    (.some (.refl _ _))
  have read := Buffer.reads_readBytes config octets succeeds admitted
  exact Buffer.reads_map some (Buffer.reads_bind_pure read (Buffer.reads_pure _))

/-- A collection is conveyed if its elements are. -/
theorem conveys_stream (kind : SequenceKind) (element : Ty) (items : List Value)
    (keyed : schema.Keyed (.sequence kind element))
    (typed : ∀ item ∈ items, item.Typed schema element) (holds : kind.Holds items)
    (admitted : config.collectionLengths.contains items.length = true)
    (each : ∀ item ∈ items, Conveys config
      (serializer.answer depth visited (.encode ((elementPlace element).withValue item)))
      (serializer.answer depth visited (.decode (elementPlace element)) : Buffer.Op Value)
      (Value.Alike schema element item)) :
    Conveys config
      (((stream (.sequence kind element) element
          (schema.collect (.sequence kind element))).encode
            (some (.sequence (.sequence kind element) items))).run
        (serializer.answer depth visited))
      ((stream (.sequence kind element) element
          (schema.collect (.sequence kind element))).decode.run
        (serializer.answer depth visited))
      (Option.Rel (Value.Alike schema (.sequence kind element))
        (some (.sequence (.sequence kind element) items))) := by
  rw [run_encode_stream, run_decode_stream]
  refine Buffer.conveys_lift_bind fun opened same => ?_
  cases (Value.items_eq_ok _ _ opened).mp same
  refine Buffer.conveys_bind (Buffer.conveys_limits
    (Buffer.conveys_longLength config.collectionLengths items.length admitted)) ?_
  rintro _ rfl
  refine Buffer.conveys_bind_pure (Buffer.conveys_each items each) fun others alikes => ?_
  obtain ⟨whole, collected, alike⟩ := schema.collect_alike kind element items others keyed
    (fun item listed => (typed item listed).type_eq) holds alikes
  refine ⟨some whole, .some alike, fun rest => ?_⟩
  rw [collected]
  rfl

/-- A map is conveyed if its keys and its values are. -/
theorem conveys_map (kind : MapKind) (key part : Ty) (entries : List (Value × Value))
    (keyed : schema.Keyed (.map kind key part))
    (typedKeys : ∀ entry ∈ entries, entry.1.Typed schema key)
    (typedParts : ∀ entry ∈ entries, entry.2.Typed schema part) (holds : kind.Holds entries)
    (admitted : config.collectionLengths.contains entries.length = true)
    (keys : ∀ entry ∈ entries, Conveys config
      (serializer.answer depth visited (.encode ((keyPlace key).withValue entry.1)))
      (serializer.answer depth visited (.decode (keyPlace key)) : Buffer.Op Value)
      (Value.Alike schema key entry.1))
    (parts : ∀ entry ∈ entries, Conveys config
      (serializer.answer depth visited (.encode ((valuePlace part).withValue entry.2)))
      (serializer.answer depth visited (.decode (valuePlace part)) : Buffer.Op Value)
      (Value.Alike schema part entry.2)) :
    Conveys config
      (((map (.map kind key part) key part).encode
          (some (.map (.map kind key part) entries))).run (serializer.answer depth visited))
      ((map (.map kind key part) key part).decode.run (serializer.answer depth visited))
      (Option.Rel (Value.Alike schema (.map kind key part))
        (some (.map (.map kind key part) entries))) := by
  rw [run_encode_map, run_decode_map]
  refine Buffer.conveys_lift_bind fun opened same => ?_
  cases (Value.entries_eq_ok _ _ opened).mp same
  refine Buffer.conveys_bind (Buffer.conveys_limits
    (Buffer.conveys_length config.collectionLengths entries.length admitted)) ?_
  rintro _ rfl
  have each : ∀ entry ∈ entries, Conveys config
      (do
        serializer.answer depth visited (.encode ((keyPlace key).withValue entry.1))
        serializer.answer depth visited (.encode ((valuePlace part).withValue entry.2)))
      (Program.decodeEntry (serializer.answer depth visited) (keyPlace key) (valuePlace part))
      (Schema.AlikeEntries schema key part entry) := by
    intro entry listed
    refine Buffer.conveys_bind (keys entry listed) fun first alikeKey => ?_
    refine Buffer.conveys_bind_pure (parts entry listed) fun second alikePart => ?_
    exact ⟨(first, second), ⟨alikeKey, alikePart⟩, fun _ => rfl⟩
  refine Buffer.conveys_bind_pure (Buffer.conveys_each entries each) fun others alikes => ?_
  obtain ⟨whole, collected, alike⟩ := Schema.collectEntries_alike kind key part entries others
    keyed (fun entry listed => ⟨(typedKeys entry listed).type_eq, (typedParts entry listed).type_eq⟩)
    holds alikes
  refine ⟨some whole, .some alike, fun rest => ?_⟩
  rw [collected]
  rfl

end Codec

namespace Serializer

variable (serializer : Serializer) (depth : Nat) (visited : List Ty)

/-- What the limits admit at the place comes back alike, at the same site or at that of the
    parameter that receives the field. -/
def ComesBack (declared : Ty) (markers : List Marker) (value : Value) : Prop :=
  ∀ site other, site.Receives other →
    serializer.Admits (.ofPlace declared markers site (some value)) →
    Conveys serializer.config
      (serializer.answer depth visited (.encode (.ofPlace declared markers site (some value))))
      (serializer.answer depth visited (.decode (.ofPlace declared markers other none))
        : Buffer.Op Value)
      (Value.Alike serializer.schema declared value)

/-- An aggregate whose fields the limits admit comes back alike. -/
def FieldsComeBack (type : Ty) (description : Aggregate) (value : Value) : Prop :=
  (∀ child ∈ (Shape.aggregate description).children type value, serializer.Admits child) →
    Conveys serializer.config
      (serializer.answer depth visited (.encodeFields type description value))
      (serializer.answer depth visited (.decodeFields type description) : Buffer.Op Value)
      (Value.Alike serializer.schema type value)

end Serializer

/-- The codec of a shape conveys the typed values whose lengths and parts the limits admit, if
    the requests that it makes do. -/
theorem Shape.conveys_codec (serializer : Serializer) (depth : Nat) (visited : List Ty) (type : Ty)
    (marked : Option Ty) (shape : Shape)
    (shaped : serializer.schema.shape type marked = .ok shape)
    (invertible : serializer.schema.Throughout serializer.schema.Invertible type)
    (honest : ∀ kind element named, type = .sequence kind element → marked = some named →
      named = element)
    (value : Value) (typed : value.Typed serializer.schema type)
    (admitted : ∀ piece ∈ shape.pieces value, piece.Admitted serializer.config)
    (children : ∀ child ∈ shape.children type value, serializer.Admits child)
    (each : ∀ declared part, serializer.schema.Throughout serializer.schema.Invertible declared →
      part.Typed serializer.schema declared →
      serializer.ComesBack depth visited declared [] part)
    (fields : ∀ description, serializer.schema.kind type = .aggregate description →
      serializer.FieldsComeBack depth visited type description value) :
    Conveys serializer.config
      (((shape.codec serializer.schema type).encode (some value)).run
        (serializer.answer depth visited))
      ((shape.codec serializer.schema type).decode.run (serializer.answer depth visited))
      (Option.Rel (Value.Alike serializer.schema type) (some value)) := by
  have fits := serializer.schema.fits_of_shape type marked shape shaped
  have derived := invertible.self.1
  have keyed := invertible.self.2
  cases shape with
  | leaf plain =>
      obtain ⟨rfl, _⟩ := fits
      obtain ⟨held, rfl, rfl⟩ := typed.scalar_of_leaf
      exact Codec.conveys_typed serializer depth visited _ _ _ _ _
        (Leaf.conveys_value held _ (.refl _ _) admitted)
  | octets =>
      cases fits
      obtain ⟨items, rfl, typedItems, _⟩ := typed.items_of_sequence .vector .u8
      obtain ⟨octets, held, rfl⟩ := Codec.octets?_of_typed items typedItems
      refine Codec.conveys_octetVector serializer depth visited octets held ?_
      have counted : Piece.Admitted serializer.config
          (.byteLength (octets.map Value.u8).length) := admitted _ List.mem_cons_self
      rw [List.length_map] at counted
      simp only [Piece.counted, List.mem_cons, List.not_mem_nil, or_false]
      rintro piece (rfl | rfl)
      · exact counted
      · trivial
  | enumeration names =>
      obtain ⟨index, rfl, known⟩ := typed.member_of_kind names fits
      simp only [codec, Codec.run_encode_enumeration, Codec.run_decode_enumeration]
      exact Buffer.conveys_map some (Enumeration.conveys_member type names
        (derived.distinct names fits) index known admitted) fun _ alike => .some alike
  | sequence element =>
      obtain ⟨_, declared, described, chosen⟩ := fits
      obtain ⟨kind, rfl⟩ := derived.chosen_element described chosen honest
      obtain ⟨items, rfl, typedItems, holds⟩ := typed.items_of_sequence kind element
      refine Codec.conveys_stream serializer depth visited kind element items keyed typedItems holds
        (admitted _ List.mem_cons_self) fun item listed => ?_
      exact each element item (invertible.part (.element kind element)) (typedItems item listed)
        (.element element) _ (.same _) (children _ (List.mem_map_of_mem listed))
  | map key part =>
      obtain ⟨kind, rfl⟩ := serializer.schema.kind_map type key part fits
      obtain ⟨entries, rfl, typedKeys, typedParts, holds⟩ := typed.entries_of_map kind key part
      have among (entry : Value × Value) (listed : entry ∈ entries) :
          serializer.Admits (.ofPlace key [] (.key key) (some entry.1)) ∧
            serializer.Admits (.ofPlace part [] (.value part) (some entry.2)) :=
        ⟨children _ (List.mem_flatMap.mpr ⟨entry, listed, List.mem_cons_self⟩),
          children _ (List.mem_flatMap.mpr ⟨entry, listed, List.mem_cons_of_mem _
            List.mem_cons_self⟩)⟩
      refine Codec.conveys_map serializer depth visited kind key part entries keyed typedKeys
        typedParts holds (admitted _ List.mem_cons_self) ?_ ?_
      · intro entry listed
        exact each key entry.1 (invertible.part (.key kind key part)) (typedKeys entry listed)
          (.key key) _ (.same _) (among entry listed).1
      · intro entry listed
        exact each part entry.2 (invertible.part (.value kind key part)) (typedParts entry listed)
          (.value part) _ (.same _) (among entry listed).2
  | nested =>
      have below := each type value invertible typed (.inner type) _ (.same _)
        (children _ List.mem_cons_self)
      simp only [codec, Codec.run_encode_innerOption, Codec.run_decode_innerOption]
      exact Buffer.conveys_map some below fun _ alike => .some alike
  | aggregate description =>
      simp only [codec, Codec.run_encode_aggregate, Codec.run_decode_aggregate]
      exact Buffer.conveys_map some (fields description fits children) fun _ alike => .some alike
  | custom format => exact absurd fits (derived.not_custom format)

/-- A codec for the values of a type is lawful at a place of that type. -/
theorem Codec.LawfulTyped.lawful {serializer : Serializer} {context : Context} {codec : Codec}
    (lawful : codec.LawfulTyped serializer.config context.unwrapped
      (Value.Typed serializer.schema context.unwrapped)
      (Value.Alike serializer.schema context.unwrapped))
    (depth : Nat) :
    codec.Lawful serializer depth
      (fun value => value.isSome = true ∧ serializer.Occurs context value)
      (Value.Alike serializer.schema context.unwrapped) := by
  obtain ⟨write, read, rfl, conveys⟩ := lawful
  rintro visited value ⟨present, whole, typed, _, projected⟩
  obtain ⟨core, rfl⟩ := Option.isSome_iff_exists.mp present
  have typedCore := typed.project context.declared false whole core projected
  exact conveys_typed serializer depth visited _ _ _ _ core (conveys core typedCore)

/-! ## Aggregates -/

section Aggregates

variable {encode : Context → Buffer.Op Unit} {decode : Context → Buffer.Op Value}

/-- The field's member is there, and what is encoded at its place is decoded alike wherever it is
    received. -/
def ConveysField (schema : Schema) (config : Config) (encode : Context → Buffer.Op Unit)
    (decode : Context → Buffer.Op Value) (owner : Ty) (members : List Value) (field : Field)
    (index : Nat) : Prop :=
  ∃ member, members[field.slot]? = some member ∧ member.type = field.type ∧
    ∀ other, (Site.field owner index).Receives other →
      Conveys config (encode (.ofPlace field.type field.markers (.field owner index) (some member)))
        (decode (.ofPlace field.type field.markers other none))
        (Value.Alike schema field.type member)

/-- A member that is there is the one that is encoded. -/
theorem conveys_member {α : Type} {read : Buffer.Op α} {good : α → Prop} (owner : Ty)
    (members : List Value) (field : Field) (index : Nat) (member : Value)
    (present : members[field.slot]? = some member)
    (conveys : Conveys config
      (encode (.ofPlace field.type field.markers (.field owner index) (some member))) read good) :
    Conveys config
      (do
        let child ← Step.lift (field.get owner (.record owner members))
        encode (((Context.make field.type field.markers).withValue child).placedAt
          (.field owner index)))
      read good := by
  refine Buffer.conveys_lift_bind fun child got => ?_
  obtain ⟨others, same, listed⟩ := (Field.get_eq_ok owner field _ child).mp got
  cases same
  cases present.symm.trans listed
  exact conveys

/-- The arguments of a mirroring constructor are conveyed as the fields. -/
theorem conveys_decodeArguments (owner : Ty) (constructor index : Nat) (members : List Value)
    (fields : List Field)
    (each : ∀ pair ∈ fields.zipIdx index,
      ConveysField schema config encode decode owner members pair.1 pair.2) :
    Conveys config
      (Serializer.encodeFields encode owner (.record owner members) index fields)
      (Serializer.decodeArguments decode owner constructor index (fields.map Field.parameter))
      (Value.AlikeFields schema members fields) := by
  induction fields generalizing index with
  | nil => exact Buffer.conveys_pure [] .nil
  | cons field rest inductionHypothesis =>
      obtain ⟨member, present, typed, conveys⟩ := each (field, index) List.mem_cons_self
      have later := inductionHypothesis (index + 1) fun pair listed =>
        each pair (List.mem_cons_of_mem _ listed)
      have first := conveys_member owner members field index member present
        (conveys (.parameter owner constructor index) (.parameter owner index constructor))
      refine Buffer.conveys_bind (Buffer.conveys_inField owner.name field.name owner.name field.name
        first) fun argument alike => ?_
      refine Buffer.conveys_bind_pure later fun arguments alikes => ?_
      exact ⟨argument :: arguments, .cons ⟨member, present, typed, alike⟩ alikes, fun _ => rfl⟩

/-- Assigned fields are conveyed as the fields. -/
theorem conveys_assignFields (owner : Ty) (index : Nat) (members : List Value)
    (fields : List Field) (current : List Value)
    (each : ∀ pair ∈ fields.zipIdx index,
      ConveysField schema config encode decode owner members pair.1 pair.2) :
    Conveys config
      (Serializer.encodeFields encode owner (.record owner members) index fields)
      (Serializer.assignFields decode owner index fields (.record owner current))
      fun value => ∃ arguments, value = .record owner (Field.put fields arguments current) ∧
        Value.AlikeFields schema members fields arguments := by
  induction fields generalizing index current with
  | nil => exact Buffer.conveys_pure _ ⟨[], rfl, .nil⟩
  | cons field rest inductionHypothesis =>
      obtain ⟨member, present, typed, conveys⟩ := each (field, index) List.mem_cons_self
      have first := conveys_member owner members field index member present
        (conveys (.field owner index) (.same _))
      have assigned : Conveys config
          (do
            let child ← Step.lift (field.get owner (.record owner members))
            encode (((Context.make field.type field.markers).withValue child).placedAt
              (.field owner index)))
          (do
            let decoded ← decode ((Context.make field.type field.markers).placedAt
              (.field owner index))
            Step.lift (field.set owner decoded (.record owner current)))
          fun value => ∃ argument, value = .record owner (current.set field.slot argument) ∧
            Value.Alike schema field.type member argument := by
        refine Buffer.conveys_bind_lift first fun argument alike => ?_
        have expected : argument.expect field.type = .ok argument :=
          (Value.expect_eq_ok _ _ _).mpr ⟨alike.type_eq.trans typed, rfl⟩
        refine ⟨.record owner (current.set field.slot argument), ?_, argument, rfl, alike⟩
        simp only [Field.set, if_true, expected]
        rfl
      refine Buffer.conveys_bind (Buffer.conveys_inField owner.name field.name owner.name field.name
        assigned) ?_
      rintro _ ⟨argument, rfl, alike⟩
      have later := inductionHypothesis (index + 1) (current.set field.slot argument)
        fun pair listed => each pair (List.mem_cons_of_mem _ listed)
      refine Buffer.conveys_mono later ?_
      rintro _ ⟨arguments, rfl, alikes⟩
      exact ⟨argument :: arguments, rfl, .cons ⟨member, present, typed, alike⟩ alikes⟩

/-- An aggregate is conveyed as its fields, whichever way it is rebuilt. -/
theorem conveys_rebuild (type : Ty) (description : Aggregate)
    (described : schema.kind type = .aggregate description) (entry : Entry)
    (found : schema.find? type = some entry) (describes : entry.Describes description)
    (rebuilds : description.Rebuilds entry) (members : List Value)
    (declared : members.map Value.type = entry.members.map Member.type)
    (each : ∀ pair ∈ description.fields.zipIdx,
      ConveysField schema config encode decode type members pair.1 pair.2) :
    Conveys config
      (Serializer.encodeFields encode type (.record type members) 0 description.fields)
      (Serializer.rebuild decode type description)
      (Value.Alike schema type (.record type members)) := by
  obtain rfl : entry.type = type := Schema.type_of_find? found
  have lengths : members.length = entry.members.length := by
    simpa using congrArg List.length declared
  unfold Aggregate.Rebuilds at rebuilds
  unfold Serializer.rebuild
  split
  · next index constructor chosen =>
      simp only [chosen] at rebuilds
      obtain ⟨mirrors, builds⟩ := rebuilds
      rw [mirrors]
      refine Buffer.conveys_bind_lift
        (conveys_decodeArguments entry.type index 0 members description.fields each) ?_
      intro arguments alikes
      have types : arguments.map Value.type = description.fields.map Field.type :=
        map_eq_of_related alikes _ _ fun field argument alike => by
          obtain ⟨member, _, typed, alike⟩ := alike
          exact alike.type_eq.trans typed
      refine ⟨_, builds arguments types, ?_⟩
      refine Value.alike_filled entry.type description described entry found entry.members
        describes.fields ?_ members arguments lengths alikes
      simp only [Entry.blanks, chosen]
  · next initial chosen =>
      simp only [chosen] at rebuilds
      obtain ⟨values, rfl, types⟩ := rebuilds
      have initialLengths : values.length = entry.members.length := by
        simpa using congrArg List.length types
      refine Buffer.conveys_mono
        (conveys_assignFields entry.type 0 members description.fields values each) ?_
      rintro _ ⟨arguments, rfl, alikes⟩
      have put : Field.put (Member.fieldsFrom 0 entry.members) arguments values
          = Member.filled (Member.blankedBy entry.members values) arguments :=
        Member.put_eq_filled [] entry.members values arguments initialLengths
          (describes.fields ▸ alikes.length_eq.symm)
      have blanked := Member.fieldsFrom_blankedBy entry.members values 0 initialLengths
      have counted : members.length = (Member.blankedBy entry.members values).length := by
        rw [Member.blankedBy, List.length_zipWith, initialLengths, Nat.min_self, lengths]
      rw [← describes.fields] at put
      rw [put]
      refine Value.alike_filled entry.type description described entry found
        (Member.blankedBy entry.members values) (describes.fields.trans blanked.symm) ?_ members
        arguments counted alikes
      simp only [Entry.blanks, chosen, Member.map_blank_blankedBy]
  · next chosen => simp only [chosen] at rebuilds

end Aggregates

end Wireform
