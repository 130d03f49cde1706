import Wireform.Proofs.Derived
import Wireform.Proofs.Reads

/-!
# Round trips

What a serializer without rules of a user's has written for values of derived types it
reads back, value by value and whatever stands behind, with blanks in the members that
did not travel. Nothing but the lengths that were written can be in the way: the limits
of the reader have to admit them.

That something could be written matters here as well. It excludes values that the
layout alone would allow, such as a list too long for its prefix, a character of two
units, or an aggregate inside one of the same type; the reader would refuse the last
one just as the writer does.
-/

namespace Wireform

/-! ## Layers -/

/-- What becomes of a value is of its type, and below options and boxes it becomes of what is in
    them. -/
structure Value.Through (image : Value → Value) : Prop where
  type : ∀ value, (image value).type = value.type
  absent : ∀ inner, image (.absent inner) = .absent inner
  present : ∀ value, image (.present value) = .present (image value)
  boxed : ∀ value, image (.boxed value) = .boxed (image value)

/-- Rebuilding a value goes through layers. -/
theorem Value.through_restored (schema : Schema) : Through (restored schema) where
  type := type_restored schema
  absent _ := rfl
  present _ := rfl
  boxed _ := rfl

/-- What goes through layers goes through stripped ones. -/
theorem Value.Through.project {image : Value → Value} (through : Through image) (type : Ty)
    (stripped : Bool) (value : Value) (inner : Option Value)
    (projected : Context.projectThrough (type.peel stripped).1 value = .ok inner) :
    Context.projectThrough (type.peel stripped).1 (image value) = .ok (inner.map image) := by
  induction type generalizing stripped value with
  | boxed below inductionHypothesis =>
      obtain ⟨next, rfl, same, later⟩ :=
        (Context.projectThrough_pointer below _ value inner).mp projected
      exact (Context.projectThrough_pointer below _ _ _).mpr
        ⟨_, through.boxed next, (through.type next).trans same,
          inductionHypothesis stripped next later⟩
  | option below inductionHypothesis =>
      cases stripped with
      | true =>
          cases projected
          rfl
      | false =>
          obtain ⟨rfl, rfl⟩ | ⟨next, rfl, same, later⟩ :=
            (Context.projectThrough_nullable below _ value inner).mp projected
          · exact (Context.projectThrough_nullable below _ _ _).mpr
              (.inl ⟨through.absent below, rfl⟩)
          · exact (Context.projectThrough_nullable below _ _ _).mpr (.inr
              ⟨_, through.present next, (through.type next).trans same,
                inductionHypothesis true next later⟩)
  | _ =>
      cases stripped
      all_goals
        cases projected
        rfl

/-! ## Collections -/

namespace Schema

variable {schema : Schema}

/-- The type is described as a derivation describes it, and its sets and maps stay what
    they are when they are rebuilt. -/
def Invertible (schema : Schema) (type : Ty) : Prop := schema.Derived type ∧ schema.Keyed type

/-- Elements and keys that travel whole are rebuilt as they were. -/
theorem restored_of_key {type : Ty} (invertible : schema.Throughout schema.Invertible type)
    (whole : schema.Whole type) (value : Value) (typed : value.Typed schema type) :
    value.restored schema = value :=
  Value.restored_of_whole typed (invertible.mono fun _ both => both.1) whole

/-- A collection is rebuilt from its rebuilt elements. -/
theorem collect_restored (kind : SequenceKind) (element : Ty) (items : List Value)
    (invertible : schema.Throughout schema.Invertible (.sequence kind element))
    (each : ∀ item ∈ items, item.Typed schema element) (holds : kind.Holds items) :
    schema.collect (.sequence kind element) (items.map (Value.restored schema))
      = .ok (Value.restored schema (.sequence (.sequence kind element) items)) := by
  have types : ∀ item ∈ items.map (Value.restored schema), item.type = element := by
    intro item listed
    obtain ⟨original, among, rfl⟩ := List.mem_map.mp listed
    rw [Value.type_restored, (each original among).type_eq]
  have unchanged (set : kind.isSet = true) : items.map (Value.restored schema) = items := by
    have same : items.map (Value.restored schema) = items.map id :=
      List.map_congr_left fun item listed =>
        restored_of_key (invertible.part (.element kind element)) (invertible.self.2 set) item
          (each item listed)
    rw [same, List.map_id]
  have kept : kind.Holds (items.map (Value.restored schema)) := by
    cases kind with
    | vector => trivial
    | deque => trivial
    | orderedSet => rw [unchanged rfl]; exact holds
    | hashedSet => rw [unchanged rfl]; exact holds
    | array length => exact (List.length_map _).trans holds
  rw [schema.collect_of_type kind element _ types, kind.collect_of_holds _ kept, Value.restored,
    Value.restoredItems_eq_map]
  rfl

/-- A map is rebuilt from its rebuilt entries. -/
theorem collectEntries_restored (kind : MapKind) (key part : Ty) (entries : List (Value × Value))
    (invertible : schema.Throughout schema.Invertible (.map kind key part))
    (keys : ∀ entry ∈ entries, entry.1.Typed schema key)
    (parts : ∀ entry ∈ entries, entry.2.Typed schema part) (holds : kind.Holds entries) :
    collectEntries (.map kind key part)
        (entries.map fun entry => (entry.1.restored schema, entry.2.restored schema))
      = .ok (Value.restored schema (.map (.map kind key part) entries)) := by
  have same : (entries.map fun entry => (entry.1.restored schema, entry.2.restored schema))
      = entries.map fun entry => (entry.1, entry.2.restored schema) :=
    List.map_congr_left fun entry listed => by
      rw [restored_of_key (invertible.part (.key kind key part)) invertible.self.2 entry.1
        (keys entry listed)]
  have kept : kind.Holds (entries.map fun entry => (entry.1, entry.2.restored schema)) := by
    cases kind with
    | ordered => exact List.pairwise_map.mpr holds
    | hashed => exact List.pairwise_map.mpr holds
  have types : ∀ entry ∈ entries.map fun entry => (entry.1, entry.2.restored schema),
      entry.1.type = key ∧ entry.2.type = part := by
    intro entry listed
    obtain ⟨original, among, rfl⟩ := List.mem_map.mp listed
    exact ⟨(keys original among).type_eq,
      (Value.type_restored schema _).trans (parts original among).type_eq⟩
  rw [same, collectEntries_of_type kind key part _ types, kind.collect_of_holds _ kept,
    Value.restored, Value.restoredEntries_eq_map, same]

end Schema

open Buffer (Reads Succeeds)

/-! ## What the engine reads -/

/-- A list of octets holds the octets that it is made of. -/
theorem Codec.octets?_of_typed {schema : Schema} (items : List Value)
    (each : ∀ item ∈ items, item.Typed schema .u8) :
    ∃ octets, octets? items = some octets ∧ octets.map Value.u8 = items := by
  induction items with
  | nil => exact ⟨[], rfl, rfl⟩
  | cons item rest inductionHypothesis =>
      obtain ⟨octets, held, same⟩ :=
        inductionHypothesis fun other later => each other (List.mem_cons_of_mem _ later)
      obtain ⟨plain, rfl, small⟩ := Value.Typed.scalar_of_leaf .u8 (each item List.mem_cons_self)
      cases plain with
      | u8 octet =>
          refine ⟨octet :: octets, ?_, congrArg (Value.u8 octet :: ·) same⟩
          have first : octet? (.scalar (.u8 octet)) = some octet := rfl
          rw [octets?, List.mapM_cons, first]
          exact congrArg (Option.bind · fun later => some (octet :: later)) held
      | _ => cases small

namespace Serializer

variable (schema : Schema) (config : Config)

/-- What can be written at a place with markers, of lengths that the limits admit, is
    read back there. -/
def ReadsBack (depth : Nat) (visited : List Ty) (declared : Ty) (markers : List Marker)
    (value : Value) : Prop :=
  (∀ piece ∈ value.layoutAt schema declared markers, piece.Admitted config) →
    ∀ site, Succeeds ((build schema config).answer depth visited
        (.encode (.ofPlace declared markers site (some value)))) →
      ∀ otherSite, Reads config
        ((build schema config).answer depth visited
          (.decode (.ofPlace declared markers otherSite none)) : Buffer.Op Value)
        (Piece.wire (value.layoutAt schema declared markers)) (value.restored schema)

/-- What can be written as the fields of an aggregate, of lengths that the limits admit,
    is read back as the aggregate. -/
def ReadsBackFields (depth : Nat) (visited : List Ty) (type : Ty) (description : Aggregate)
    (value : Value) : Prop :=
  (∀ piece ∈ value.layout schema type none, piece.Admitted config) →
    Succeeds ((build schema config).answer depth visited (.encodeFields type description value)) →
      Reads config
        ((build schema config).answer depth visited (.decodeFields type description)
          : Buffer.Op Value)
        (Piece.wire (value.layout schema type none)) (value.restored schema)

/-- A leaf reads back what it can write. -/
theorem reads_leaf (depth : Nat) (visited : List Ty) (plain : Scalar)
    (admitted : ∀ piece ∈ plain.layout, piece.Admitted config)
    (succeeds : Succeeds (((Codec.leaf plain.leaf).encode (some (.scalar plain))).run
      ((build schema config).answer depth visited))) :
    Reads config ((Codec.leaf plain.leaf).decode.run ((build schema config).answer depth visited))
      (Piece.wire plain.layout) (some (.scalar plain)) := by
  rw [Codec.run_encode_leaf] at succeeds
  obtain ⟨result, expected, written⟩ := Buffer.succeeds_lift succeeds
  obtain ⟨_, rfl⟩ := (Value.expect_eq_ok _ _ result).mp expected
  simp only [Leaf.writeValue, if_true] at written
  rw [Codec.run_decode_leaf]
  exact Buffer.reads_map some
    (Buffer.reads_bind_pure (Leaf.reads_read config plain written admitted) (Buffer.reads_pure _))

/-- A vector of octets is read back if it can be written. -/
theorem reads_octetVector (depth : Nat) (visited : List Ty) (octets : Bytes)
    (held : Codec.octets? (octets.map Value.u8) = some octets)
    (admitted : ∀ piece ∈ Piece.counted octets, piece.Admitted config)
    (succeeds : Succeeds ((Codec.octetVector.encode
        (some (.sequence (Ty.vector .u8) (octets.map Value.u8)))).run
      ((build schema config).answer depth visited))) :
    Reads config (Codec.octetVector.decode.run ((build schema config).answer depth visited))
      (Piece.wire (Piece.counted octets))
      (some (.sequence (Ty.vector .u8) (octets.map Value.u8))) := by
  rw [Codec.run_encode_octetVector] at succeeds
  obtain ⟨result, expected, written⟩ := Buffer.succeeds_lift succeeds
  obtain ⟨_, rfl⟩ := (Value.expect_eq_ok _ _ result).mp expected
  simp only [Value.items, if_true, Except.toOption, Option.bind_some, held] at written
  rw [Codec.run_decode_octetVector]
  exact Buffer.reads_map some
    (Buffer.reads_bind_pure (Buffer.reads_readBytes config octets written admitted)
      (Buffer.reads_pure _))

/-- A member is read back if it can be written and its name is its own. -/
theorem reads_enumeration (depth : Nat) (visited : List Ty) (type : Ty) (names : List String)
    (distinct : names.Nodup) (index : Nat) (known : index < names.length)
    (admitted : ∀ piece ∈ Piece.text (names[index]?.getD ""), piece.Admitted config)
    (succeeds : Succeeds (((Codec.enumeration type names).encode (some (.member type index))).run
      ((build schema config).answer depth visited))) :
    Reads config
      ((Codec.enumeration type names).decode.run ((build schema config).answer depth visited))
      (Piece.wire (Piece.text (names[index]?.getD ""))) (some (.member type index)) := by
  rw [Codec.run_encode_enumeration] at succeeds
  rw [Codec.run_decode_enumeration]
  exact Buffer.reads_map some
    (Enumeration.reads_read config type names distinct index known succeeds admitted)

/-- A sequence is read from the number of its elements and the bytes that each of them is read
    from, if it is collected from what is read. -/
theorem reads_elements (depth : Nat) (visited : List Ty) (type element : Ty) (items : List Value)
    (form : Value → Bytes) (image : Value → Value) (result : Value)
    (fits : items.length < 0x8000000000000000)
    (admitted : (Piece.elementCount items.length).Admitted config)
    (each : ∀ item ∈ items, Reads config
      ((build schema config).answer depth visited (.decode (Codec.elementPlace element)))
      (form item) (image item))
    (collected : schema.collect type (items.map image) = .ok result) :
    Reads config
      ((Codec.stream type element (schema.collect type)).decode.run
        ((build schema config).answer depth visited))
      ((Piece.elementCount items.length).bytes ++ items.flatMap form) (some result) := by
  have count := Buffer.reads_readLongLength config config.collectionLengths items.length fits
    admitted
  have read := Buffer.reads_repeated items form image each []
  rw [Codec.run_decode_stream]
  refine Buffer.reads_bind (Buffer.reads_limits count) (Buffer.reads_bind_pure read ?_)
  exact Buffer.reads_map some (Buffer.reads_lift collected)

/-- A sequence is read back if it can be written, its elements are read back, and it is collected
    from them. -/
theorem reads_stream (depth : Nat) (visited : List Ty) (type element : Ty) (items : List Value)
    (collected : schema.collect type (items.map (Value.restored schema))
      = .ok (Value.restored schema (.sequence type items)))
    (each : ∀ item ∈ items, ReadsBack schema config depth visited element [] item)
    (admitted : ∀ piece ∈ Piece.elementCount items.length
        :: items.flatMap fun item => item.layout schema element none, piece.Admitted config)
    (succeeds : Succeeds
      (((Codec.stream type element (schema.collect type)).encode (some (.sequence type items))).run
        ((build schema config).answer depth visited))) :
    Reads config
      ((Codec.stream type element (schema.collect type)).decode.run
        ((build schema config).answer depth visited))
      (Piece.wire (Piece.elementCount items.length
        :: items.flatMap fun item => item.layout schema element none))
      (some (Value.restored schema (.sequence type items))) := by
  rw [Codec.run_encode_stream] at succeeds
  obtain ⟨opened, same, written⟩ := Buffer.succeeds_lift succeeds
  cases (Value.items_eq_ok _ _ opened).mp same
  obtain ⟨counted, elements⟩ := Buffer.succeeds_bind written
  have eachReads : ∀ item ∈ items, Reads config
      ((build schema config).answer depth visited (.decode (Codec.elementPlace element)))
      (Piece.wire (item.layout schema element none)) (item.restored schema) := by
    intro item listed
    have back := each item listed
    unfold ReadsBack at back
    rw [Value.layoutAt_nil] at back
    exact back (fun piece among => admitted piece (List.mem_cons_of_mem _
        (List.mem_flatMap.mpr ⟨item, listed, among⟩)))
      (.element element) (Buffer.succeeds_forM elements item listed) (.element element)
  rw [Piece.wire_cons, Piece.wire_flatMap]
  exact reads_elements schema config depth visited type element items _ _ _
    (Buffer.lt_of_writeLongLength counted) (admitted _ List.mem_cons_self) eachReads collected

/-- A map is read back if it can be written and its entries are read back. -/
theorem reads_map (depth : Nat) (visited : List Ty) (kind : MapKind) (key part : Ty)
    (entries : List (Value × Value))
    (invertible : schema.Throughout schema.Invertible (.map kind key part))
    (typedKeys : ∀ entry ∈ entries, entry.1.Typed schema key)
    (typedParts : ∀ entry ∈ entries, entry.2.Typed schema part) (holds : kind.Holds entries)
    (keys : ∀ entry ∈ entries, ReadsBack schema config depth visited key [] entry.1)
    (parts : ∀ entry ∈ entries, ReadsBack schema config depth visited part [] entry.2)
    (admitted : ∀ piece ∈ Piece.entryCount entries.length
        :: entries.flatMap fun entry =>
          entry.1.layout schema key none ++ entry.2.layout schema part none, piece.Admitted config)
    (succeeds : Succeeds
      (((Codec.map (.map kind key part) key part).encode
          (some (.map (.map kind key part) entries))).run
        ((build schema config).answer depth visited))) :
    Reads config
      ((Codec.map (.map kind key part) key part).decode.run
        ((build schema config).answer depth visited))
      (Piece.wire (Piece.entryCount entries.length
        :: entries.flatMap fun entry =>
          entry.1.layout schema key none ++ entry.2.layout schema part none))
      (some (Value.restored schema (.map (.map kind key part) entries))) := by
  rw [Codec.run_encode_map] at succeeds
  obtain ⟨opened, same, written⟩ := Buffer.succeeds_lift succeeds
  cases (Value.entries_eq_ok _ _ opened).mp same
  obtain ⟨counted, elements⟩ := Buffer.succeeds_bind written
  have count := Buffer.reads_readLength config config.collectionLengths entries.length
    (Buffer.lt_of_writeLength counted) (admitted _ List.mem_cons_self)
  have eachReads : ∀ entry ∈ entries, Reads config
      (Program.decodeEntry ((build schema config).answer depth visited) (Codec.keyPlace key)
        (Codec.valuePlace part))
      (Piece.wire (entry.1.layout schema key none ++ entry.2.layout schema part none))
      (entry.1.restored schema, entry.2.restored schema) := by
    intro entry listed
    have among (piece : Piece) (piece_mem : piece ∈ entry.1.layout schema key none
        ++ entry.2.layout schema part none) : piece.Admitted config :=
      admitted piece (List.mem_cons_of_mem _ (List.mem_flatMap.mpr ⟨entry, listed, piece_mem⟩))
    obtain ⟨keyWritten, partWritten⟩ :=
      Buffer.succeeds_bind (Buffer.succeeds_forM elements entry listed)
    have keyBack := keys entry listed
    have partBack := parts entry listed
    unfold ReadsBack at keyBack partBack
    rw [Value.layoutAt_nil] at keyBack partBack
    rw [Piece.wire_append]
    refine Buffer.reads_bind
      (keyBack (fun piece own => among piece (List.mem_append_left _ own)) (.key key) keyWritten
        (.key key)) ?_
    exact Buffer.reads_bind_pure
      (partBack (fun piece own => among piece (List.mem_append_right _ own)) (.value part)
        partWritten (.value part))
      (Buffer.reads_pure _)
  have collected := Schema.collectEntries_restored kind key part entries invertible typedKeys
    typedParts holds
  have read := Buffer.reads_repeated entries _ _ eachReads []
  rw [Codec.run_decode_map, Piece.wire_cons, Piece.wire_flatMap]
  refine Buffer.reads_bind (Buffer.reads_limits count) (Buffer.reads_bind_pure read ?_)
  exact Buffer.reads_map some (Buffer.reads_lift collected)

/-- The codec of a shape reads back what it can write, if the requests that it makes are
    read back. -/
theorem reads_codec (depth : Nat) (visited : List Ty) (type : Ty) (marked : Option Ty)
    (shape : Shape) (shaped : schema.shape type marked = .ok shape)
    (invertible : schema.Throughout schema.Invertible type)
    (honest : ∀ kind element named, type = .sequence kind element → marked = some named →
      named = element)
    (each : ∀ declared value, schema.Throughout schema.Invertible declared →
      value.Typed schema declared → ReadsBack schema config depth visited declared [] value)
    (fields : ∀ description value, schema.kind type = .aggregate description →
      value.Typed schema type → ReadsBackFields schema config depth visited type description value)
    (value : Value) (typed : value.Typed schema type)
    (admitted : ∀ piece ∈ value.layout schema type (if type.isOption then none else marked),
      piece.Admitted config)
    (succeeds : Succeeds (((shape.codec schema type).encode (some value)).run
      ((build schema config).answer depth visited))) :
    Reads config ((shape.codec schema type).decode.run ((build schema config).answer depth visited))
      (Piece.wire (value.layout schema type (if type.isOption then none else marked)))
      (some (value.restored schema)) := by
  have fits := schema.fits_of_shape type marked shape shaped
  have derived := invertible.self.1
  cases shape with
  | leaf plain =>
      obtain ⟨rfl, _⟩ := fits
      obtain ⟨held, rfl, rfl⟩ := typed.scalar_of_leaf
      exact reads_leaf schema config depth visited held admitted succeeds
  | octets =>
      cases fits
      obtain ⟨items, rfl, typedItems, _⟩ := typed.items_of_sequence .vector .u8
      obtain ⟨octets, held, rfl⟩ := Codec.octets?_of_typed items typedItems
      have kept : Value.restored schema (.sequence (.sequence .vector .u8) (octets.map Value.u8))
          = .sequence (Ty.vector .u8) (octets.map Value.u8) := by
        rw [Value.restored, Value.restoredItems_eq_map, List.map_map]
        rfl
      change ∀ piece ∈ Value.layout schema _ (Ty.vector .u8) marked, piece.Admitted config at admitted
      change Reads config _ (Piece.wire (Value.layout schema _ (Ty.vector .u8) marked)) _
      rw [Value.layout_octets schema _ _ octets held] at admitted
      rw [Value.layout_octets schema _ _ octets held, kept]
      exact reads_octetVector schema config depth visited octets held admitted succeeds
  | enumeration names =>
      obtain ⟨index, rfl, known⟩ := typed.member_of_kind names fits
      rw [Value.layout_member schema type type names fits] at admitted ⊢
      exact reads_enumeration schema config depth visited type names (derived.distinct names fits)
        index known admitted succeeds
  | sequence element =>
      obtain ⟨other, declared, described, chosen⟩ := fits
      obtain ⟨kind, rfl⟩ := derived.chosen_element described chosen honest
      obtain ⟨items, rfl, typedItems, holds⟩ := typed.items_of_sequence kind element
      have laid := Value.layout_sequence schema (.sequence kind element) (.sequence kind element)
        element _ marked other described chosen items
      change ∀ piece ∈ Value.layout schema _ (.sequence kind element) marked, _ at admitted
      change Reads config _ (Piece.wire (Value.layout schema _ (.sequence kind element) marked)) _
      rw [laid] at admitted ⊢
      exact reads_stream schema config depth visited _ element items
        (Schema.collect_restored kind element items invertible typedItems holds)
        (fun item listed => each element item (invertible.part (.element kind element))
          (typedItems item listed))
        admitted succeeds
  | map key part =>
      obtain ⟨kind, rfl⟩ := schema.kind_map type key part fits
      obtain ⟨entries, rfl, typedKeys, typedParts, holds⟩ := typed.entries_of_map kind key part
      change ∀ piece ∈ Value.layout schema _ (.map kind key part) marked, _ at admitted
      change Reads config _ (Piece.wire (Value.layout schema _ (.map kind key part) marked)) _
      rw [Value.layout_map] at admitted ⊢
      exact reads_map schema config depth visited kind key part entries invertible typedKeys
        typedParts holds
        (fun entry listed => each key entry.1 (invertible.part (.key kind key part))
          (typedKeys entry listed))
        (fun entry listed => each part entry.2 (invertible.part (.value kind key part))
          (typedParts entry listed))
        admitted succeeds
  | nested =>
      obtain ⟨inner, rfl⟩ := fits
      have back := each (.option inner) value invertible typed
      unfold ReadsBack at back
      rw [Value.layoutAt_nil] at back
      simp only [Shape.codec, Codec.run_encode_innerOption] at succeeds
      simp only [Shape.codec, Codec.run_decode_innerOption]
      exact Buffer.reads_map some
        (back admitted (.inner (.option inner)) succeeds (.inner (.option inner)))
  | aggregate description =>
      simp only [Shape.codec, Codec.run_encode_aggregate] at succeeds
      simp only [Shape.codec, Codec.run_decode_aggregate]
      rw [Value.layout_aggregate schema type description fits value _ none] at admitted ⊢
      exact Buffer.reads_map some (fields description value fits typed admitted succeeds)
  | custom format => exact absurd fits (derived.not_custom format)

/-- What a place has written is read back, flag and layers included, if the codec reads
    back what is below the layers. -/
theorem reads_flagged (depth : Nat) (visited : List Ty) (declared : Ty) (markers : List Marker)
    (shape : Shape) (value : Value) (inner : Option Value)
    (projected : Context.projectThrough declared.layers value = .ok inner)
    (admitted : ∀ piece ∈ value.layoutAt schema declared markers, piece.Admitted config)
    (succeeds : Succeeds ((((shape.codec schema declared.unwrapped).flagged
        (declared.stripsOption || markers.contains .nullable)).encode inner).run
      ((build schema config).answer depth visited)))
    (below : ∀ core, inner = some core →
      (∀ piece ∈ core.layout schema declared.unwrapped
          (if declared.unwrapped.isOption then none else Marker.element? markers),
        piece.Admitted config) →
      Succeeds (((shape.codec schema declared.unwrapped).encode (some core)).run
        ((build schema config).answer depth visited)) →
      Reads config ((shape.codec schema declared.unwrapped).decode.run
          ((build schema config).answer depth visited))
        (Piece.wire (core.layout schema declared.unwrapped
          (if declared.unwrapped.isOption then none else Marker.element? markers)))
        (some (core.restored schema))) :
    Reads config (((shape.codec schema declared.unwrapped).flagged
          (declared.stripsOption || markers.contains .nullable)).decode.run
        ((build schema config).answer depth visited))
      (Piece.wire (value.layoutAt schema declared markers)) (inner.map (Value.restored schema)) := by
  obtain ⟨rfl, strips, laid⟩ | ⟨core, rfl, laid⟩ :=
    Value.layoutAt_project schema declared markers value inner projected
  · rw [laid, strips, Bool.true_or, Codec.run_decode_flagged]
    exact Buffer.reads_bind (Buffer.reads_readBool config false) (Buffer.reads_pure none)
  · rw [laid] at admitted ⊢
    have own := below core rfl fun piece listed => admitted piece (List.mem_append_right _ listed)
    cases flag : declared.stripsOption || markers.contains .nullable with
    | false =>
        rw [flag] at succeeds
        exact own succeeds
    | true =>
        rw [flag, Codec.run_encode_flagged] at succeeds
        rw [Codec.run_decode_flagged]
        exact Buffer.reads_bind (Buffer.reads_readBool config true)
          (own (Buffer.succeeds_bind succeeds).2)

/-- A place reads what its codec reads below the layers, and puts these around it. -/
theorem reads_place (depth : Nat) (visited : List Ty) (declared : Ty) (markers : List Marker)
    (site : Site) (shape : Shape) (image : Value → Value) (through : Value.Through image)
    (value : Value) (inner : Option Value) (bytes : Bytes)
    (shaped : schema.shape declared.unwrapped (Marker.element? markers) = .ok shape)
    (projected : Context.projectThrough declared.layers value = .ok inner)
    (read : Reads config (((shape.codec schema declared.unwrapped).flagged
          (declared.stripsOption || markers.contains .nullable)).decode.run
        ((build schema config).answer depth visited)) bytes (inner.map image)) :
    Reads config ((build schema config).answer (depth + 1) visited
        (.decode (.ofPlace declared markers site none)) : Buffer.Op Value) bytes (image value) := by
  have rewrapped : (Context.of declared).rewrap (inner.map image) = .ok (image value) :=
    (Context.of declared).rewrap_of_rewrapThrough _ _
      (Context.rewrap_project declared false (image value) _
        (through.project declared false value inner projected))
  rw [answer_decode_place]
  exact Buffer.reads_bind (Buffer.reads_lift shaped)
    (Buffer.reads_bind_pure read (Buffer.reads_lift rewrapped))

/-! ## Aggregates -/

/-- If the fields of an aggregate can be written in succession, each can at its place. -/
theorem succeeds_encodeFields {operation : Context → Buffer.Op Unit} (owner : Ty)
    (members : List Value) (index : Nat) (fields : List Field)
    (succeeds : Succeeds (encodeFields operation owner (.record owner members) index fields)) :
    ∀ field ∈ fields, ∃ member site, members[field.slot]? = some member ∧
      Succeeds (operation (.ofPlace field.type field.markers site (some member))) := by
  induction fields generalizing index with
  | nil => exact List.forall_mem_nil _
  | cons field rest inductionHypothesis =>
      obtain ⟨first, others⟩ := Buffer.succeeds_bind succeeds
      intro other listed
      obtain rfl | later := List.mem_cons.mp listed
      · obtain ⟨member, got, written⟩ := Buffer.succeeds_lift (Buffer.succeeds_inField first)
        obtain ⟨own, same, present⟩ := (Field.get_eq_ok owner other _ member).mp got
        cases same
        exact ⟨member, .field owner index, present, written⟩
      · exact inductionHypothesis (index + 1) others other later

/-- The field's member is there, and what is laid out for it is read back at any site. -/
def ReadsField (operation : Context → Buffer.Op Value) (members : List Value) (field : Field) :
    Prop :=
  ∃ member, members[field.slot]? = some member ∧ member.type = field.type ∧
    ∀ site, Reads config (operation (.ofPlace field.type field.markers site none))
      (Piece.wire (member.layoutAt schema field.type field.markers)) (member.restored schema)

/-- What a present member is laid out as goes before what follows it. -/
theorem layouts_cons (members : List Value) (field : Field) (rest : List Field) (member : Value)
    (present : members[field.slot]? = some member) :
    Field.layouts (field :: rest) (Value.itemLayouts schema members)
      = member.layoutAt schema field.type field.markers
        ++ Field.layouts rest (Value.itemLayouts schema members) := by
  simp only [Field.layouts, List.flatMap_cons, Value.itemLayouts_eq_map, List.getElem?_map, present,
    Option.map_some, Value.layoutAt]

/-- The arguments of a mirroring constructor are read back as the values of the fields. -/
theorem reads_decodeArguments {operation : Context → Buffer.Op Value} (owner : Ty)
    (constructor position : Nat) (members : List Value) (fields : List Field)
    (each : ∀ field ∈ fields, ReadsField schema config operation members field) :
    Reads config
      (decodeArguments operation owner constructor position (fields.map Field.parameter))
      (Piece.wire (Field.layouts fields (Value.itemLayouts schema members)))
      (Field.values fields (members.map (Value.restored schema))) := by
  induction fields generalizing position with
  | nil => exact Buffer.reads_pure _
  | cons field rest inductionHypothesis =>
      obtain ⟨member, present, _, reads⟩ := each field List.mem_cons_self
      have others := inductionHypothesis (position + 1) fun other later =>
        each other (List.mem_cons_of_mem _ later)
      have restored : (members.map (Value.restored schema))[field.slot]?
          = some (member.restored schema) := by
        rw [List.getElem?_map, present]
        rfl
      rw [layouts_cons schema members field rest member present, Piece.wire_append, Field.values,
        List.filterMap_cons, restored]
      refine Buffer.reads_bind
        (Buffer.reads_inField _ _ (reads (.parameter owner constructor position))) ?_
      exact Buffer.reads_bind_pure others (Buffer.reads_pure _)

/-- Assigned fields are read back and put in one after another. -/
theorem reads_assignFields {operation : Context → Buffer.Op Value} (owner : Ty) (index : Nat)
    (members : List Value) (fields : List Field) (current : List Value)
    (each : ∀ field ∈ fields, ReadsField schema config operation members field) :
    Reads config (assignFields operation owner index fields (.record owner current))
      (Piece.wire (Field.layouts fields (Value.itemLayouts schema members)))
      (.record owner (Field.assigned (members.map (Value.restored schema)) fields current)) := by
  induction fields generalizing index current with
  | nil => exact Buffer.reads_pure _
  | cons field rest inductionHypothesis =>
      obtain ⟨member, present, typed, reads⟩ := each field List.mem_cons_self
      have others := inductionHypothesis (index + 1) (current.set field.slot (member.restored schema))
        fun other later => each other (List.mem_cons_of_mem _ later)
      have restored : (members.map (Value.restored schema))[field.slot]?
          = some (member.restored schema) := by
        rw [List.getElem?_map, present]
        rfl
      have expected : (member.restored schema).expect field.type = .ok (member.restored schema) :=
        (Value.expect_eq_ok field.type _ _).mpr ⟨(Value.type_restored schema member).trans typed, rfl⟩
      have put : field.set owner (member.restored schema) (.record owner current)
          = .ok (.record owner (current.set field.slot (member.restored schema))) := by
        simp only [Field.set, if_true, expected]
        rfl
      rw [layouts_cons schema members field rest member present, Piece.wire_append, Field.assigned,
        restored]
      refine Buffer.reads_bind (Buffer.reads_inField _ _ ?_) others
      exact Buffer.reads_bind_pure (reads (.field owner index)) (Buffer.reads_lift put)

/-- An aggregate is rebuilt from its fields, whichever way it is rebuilt. -/
theorem reads_rebuild {operation : Context → Buffer.Op Value} (type : Ty) (description : Aggregate)
    (described : schema.kind type = .aggregate description) (entry : Entry)
    (found : schema.find? type = some entry) (describes : entry.Describes description)
    (rebuilds : description.Rebuilds entry) (members : List Value)
    (declared : members.map Value.type = entry.members.map Member.type)
    (each : ∀ field ∈ description.fields, ReadsField schema config operation members field) :
    Reads config (rebuild operation type description)
      (Piece.wire (Field.layouts description.fields (Value.itemLayouts schema members)))
      (Value.restored schema (.record type members)) := by
  have same : entry.type = type := Schema.type_of_find? found
  have lengths : (members.map (Value.restored schema)).length = entry.members.length := by
    simpa using congrArg List.length declared
  have restored : Value.restored schema (.record type members)
      = .record type (Member.refill (entry.blanks description)
          (members.map (Value.restored schema))) := by
    rw [Value.restored, Value.restoredItems_eq_map, Schema.blanks, found, described]
  rw [restored, rebuild]
  unfold Aggregate.Rebuilds at rebuilds
  unfold Entry.blanks
  split
  · next index constructor chosen =>
      simp only [chosen] at rebuilds ⊢
      obtain ⟨mirrors, builds⟩ := rebuilds
      have types : (Field.values description.fields (members.map (Value.restored schema))).map
          Value.type = description.fields.map Field.type := by
        refine Field.types_of_values _ _ fun field listed => ?_
        obtain ⟨member, present, typed, _⟩ := each field listed
        refine ⟨member.restored schema, ?_, (Value.type_restored schema member).trans typed⟩
        rw [List.getElem?_map, present]
        rfl
      have built := builds _ types
      rw [same, describes.fields, Member.filled_values _ _ lengths, ← describes.fields] at built
      rw [mirrors]
      exact Buffer.reads_bind_pure
        (reads_decodeArguments schema config type index 0 members description.fields each)
        (Buffer.reads_lift built)
  · next initial chosen =>
      simp only [chosen] at rebuilds ⊢
      obtain ⟨others, rfl, initialTypes⟩ := rebuilds
      have initialLengths : others.length = entry.members.length := by
        simpa using congrArg List.length initialTypes
      have assigned := reads_assignFields schema config type 0 members description.fields others each
      rw [describes.fields, Member.assigned_eq_refill _ _ _ lengths initialLengths,
        ← describes.fields] at assigned
      rw [same]
      exact assigned
  · next chosen =>
      simp only [chosen] at rebuilds

/-- Whatever can be written at a place of an invertible type is read back there. The
    induction is on how deep requests may nest, for values at places and fields of
    aggregates together. -/
theorem reads_answer (depth : Nat) :
    (∀ visited declared markers value, schema.Throughout schema.Invertible declared →
      Marker.Honest declared markers → value.Typed schema declared →
      ReadsBack schema config depth visited declared markers value) ∧
    ∀ visited type description value, schema.kind type = .aggregate description →
      schema.Throughout schema.Invertible type → value.Typed schema type →
      ReadsBackFields schema config depth visited type description value := by
  induction depth with
  | zero =>
      constructor
      · intro visited declared markers value _ _ _ _ site succeeds
        exact absurd succeeds (Buffer.not_succeeds_fail _)
      · intro visited type description value _ _ _ _ succeeds
        exact absurd succeeds (Buffer.not_succeeds_fail _)
  | succ depth inductionHypothesis =>
      obtain ⟨places, aggregates⟩ := inductionHypothesis
      constructor
      · intro visited declared markers value invertible honest typed admitted site succeeds otherSite
        rw [answer_encode_place] at succeeds
        obtain ⟨shape, shaped, taken⟩ := Buffer.succeeds_lift succeeds
        obtain ⟨inner, projected, written⟩ := Buffer.succeeds_lift taken
        have read := reads_flagged schema config depth visited declared markers shape value inner
          projected admitted written fun core same => by
            subst same
            exact reads_codec schema config depth visited declared.unwrapped
              (Marker.element? markers) shape shaped invertible.unwrapped honest
              (fun other item otherInvertible otherTyped =>
                places visited other [] item otherInvertible (Marker.honest_nil other)
                  otherTyped)
              (fun description item described itemTyped =>
                aggregates visited _ description item described invertible.unwrapped itemTyped)
              core (typed.project declared false value core projected)
        exact reads_place schema config depth visited declared markers otherSite shape _
          (Value.through_restored schema) value inner _
          shaped projected read
      · intro visited type description value described invertible typed admitted succeeds
        obtain ⟨entry, found, describes, rebuilds⟩ :=
          invertible.self.1.describes description described
        obtain ⟨other, members, rfl, again, declared, fields⟩ :=
          typed.members_of_kind description described
        cases found.symm.trans again
        simp only [answer] at succeeds ⊢
        split at succeeds
        · exact absurd succeeds (Buffer.not_succeeds_fail _)
        · next unvisited =>
            simp only [if_neg unvisited, Value.layout, described] at admitted ⊢
            refine reads_rebuild schema config type description described entry found describes
              rebuilds members declared fun field listed => ?_
            obtain ⟨member, site, present, written⟩ :=
              succeeds_encodeFields type members 0 description.fields succeeds field listed
            have typedMember := fields field listed member present
            refine ⟨member, present, typedMember.type_eq, fun otherSite => ?_⟩
            refine places (type :: visited) field.type field.markers member
              (invertible.part (.field type description described field listed))
              (describes.honest field listed) typedMember ?_ site written otherSite
            intro piece own
            refine admitted piece (List.mem_flatMap.mpr ⟨field, listed, ?_⟩)
            simp only [Value.itemLayouts_eq_map, List.getElem?_map, present, Option.map_some]
            exact own

end Serializer

end Wireform
