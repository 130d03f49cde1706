import Wireform.Proofs.Canonical
import Wireform.Proofs.Gathering
import Wireform.Proofs.Soundness

/-!
# What decoding makes

A decoded value of a derived type is typed all the way down, and rebuilding it leaves it as it is:
its members that do not travel are the blanks, always the same ones for a type. So the order of values
tells any two decoded values of a type apart, although the members that do not travel may be of types
about which nothing is known.

Such a value can also be encoded again. Sets and maps are written in another order than they were
read in, and without what they have dropped, so the bytes need not be those that were read. But
there are such bytes: nothing that was read is too long to be written, a set is no larger than what
it was read from, and an aggregate that was not refused inside of itself is not refused now.
-/

namespace Wireform

open Buffer (Takes Writes)

variable {schema : Schema}

/-! ## Telling decoded values apart -/

namespace Value

/-- Lists that are equal in order are equal if the order tells apart what stands at one position in
    both. -/
theorem eq_of_orderItems (items others : List Value)
    (apart : ∀ (index : Nat) (item other : Value), items[index]? = some item →
      others[index]? = some other → item.order other = .eq → item = other)
    (equal : orderItems items others = .eq) : items = others := by
  induction items generalizing others with
  | nil =>
      cases others with
      | nil => rfl
      | cons other rest => cases equal
  | cons item rest inductionHypothesis =>
      cases others with
      | nil => cases equal
      | cons other behind =>
          rw [orderItems, Ordering.then_eq_eq] at equal
          rw [apart 0 item other rfl rfl equal.1,
            inductionHypothesis behind (fun index => apart (index + 1)) equal.2]

/-- Lists of entries that are equal in order are equal if the order tells keys and values apart. -/
theorem eq_of_orderEntries (entries others : List (Value × Value))
    (keys : ∀ entry ∈ entries, ∀ other ∈ others, entry.1.order other.1 = .eq → entry.1 = other.1)
    (parts : ∀ entry ∈ entries, ∀ other ∈ others, entry.2.order other.2 = .eq → entry.2 = other.2)
    (equal : orderEntries entries others = .eq) : entries = others := by
  induction entries generalizing others with
  | nil =>
      cases others with
      | nil => rfl
      | cons other rest => cases equal
  | cons entry rest inductionHypothesis =>
      cases others with
      | nil => cases equal
      | cons other behind =>
          rw [orderEntries, Ordering.then_eq_eq, Ordering.then_eq_eq] at equal
          have first := keys entry List.mem_cons_self other List.mem_cons_self equal.1
          have second := parts entry List.mem_cons_self other List.mem_cons_self equal.2.1
          rw [Prod.ext first second, inductionHypothesis behind
            (fun entry listed other among =>
              keys entry (List.mem_cons_of_mem _ listed) other (List.mem_cons_of_mem _ among))
            (fun entry listed other among =>
              parts entry (List.mem_cons_of_mem _ listed) other (List.mem_cons_of_mem _ among))
            equal.2.2]

/-- The value is typed, and rebuilding it leaves it as it is. -/
structure Decoded (schema : Schema) (type : Ty) (value : Value) : Prop where
  typed : value.Typed schema type
  same : value.restored schema = value

namespace Decoded

variable {type : Ty}

/-- The elements of a decoded sequence are decoded. -/
theorem items_of_sequence {kind : SequenceKind} {element : Ty} {items : List Value}
    (decoded : (sequence (.sequence kind element) items).Decoded schema (.sequence kind element)) :
    ∀ item ∈ items, item.Decoded schema element := by
  obtain ⟨held, again, each, -⟩ := decoded.typed.items_of_sequence kind element
  cases again
  have same := decoded.same
  rw [restored, restoredItems_eq_map] at same
  have kept : items.map (restored schema) = items.map id := by
    rw [List.map_id]
    exact (Value.sequence.inj same).2
  exact fun item listed => ⟨each item listed, List.map_inj_left.mp kept item listed⟩

/-- The keys and the values of a decoded map are decoded. -/
theorem entries_of_map {kind : MapKind} {key part : Ty} {entries : List (Value × Value)}
    (decoded : (map (.map kind key part) entries).Decoded schema (.map kind key part)) :
    ∀ entry ∈ entries, entry.1.Decoded schema key ∧ entry.2.Decoded schema part := by
  obtain ⟨held, again, keys, parts, -⟩ := decoded.typed.entries_of_map kind key part
  cases again
  have same := decoded.same
  rw [restored, restoredEntries_eq_map] at same
  have kept : (entries.map fun entry => (restored schema entry.1, restored schema entry.2))
      = entries.map id := by
    rw [List.map_id]
    exact (Value.map.inj same).2
  intro entry listed
  obtain ⟨first, second⟩ := Prod.ext_iff.mp (List.map_inj_left.mp kept entry listed)
  exact ⟨⟨keys entry listed, first⟩, ⟨parts entry listed, second⟩⟩

/-- At each position a record that is rebuilt as it was holds the blank, or else what the member that
    stands there is rebuilt as. -/
theorem member_of_record {members : List Value}
    (same : restored schema (.record type members) = .record type members) (index : Nat)
    (member : Value) (here : members[index]? = some member) :
    member = (((schema.blanks type)[index]?).join).getD (restored schema member) := by
  rw [restored, restoredItems_eq_map] at same
  have each := congrArg (fun list : List Value => list[index]?) (Value.record.inj same).2
  rw [Member.getElem?_refill, List.getElem?_map, here] at each
  exact (Option.some.inj each).symm

end Decoded

end Value

/-- A member without a blank travels, whichever way the aggregate is rebuilt. -/
theorem Entry.travels_of_blanks (entry : Entry) (description : Aggregate)
    (rebuilds : description.Rebuilds entry) (index : Nat) (member : Member)
    (declared : entry.members[index]? = some member)
    (unblanked : ((entry.blanks description)[index]?).join = none) : member.blank = none := by
  unfold blanks at unblanked
  unfold Aggregate.Rebuilds at rebuilds
  cases chosen : description.strategy with
  | construct position constructor =>
      simp only [chosen] at unblanked
      simpa [declared] using unblanked
  | assign initial =>
      simp only [chosen] at rebuilds
      obtain ⟨values, rfl, types⟩ := rebuilds
      have lengths : values.length = entry.members.length := by
        simpa using congrArg List.length types
      obtain ⟨inside, -⟩ := List.getElem?_eq_some_iff.mp declared
      obtain ⟨value, found⟩ : ∃ value, values[index]? = some value :=
        ⟨_, List.getElem?_eq_getElem (lengths ▸ inside)⟩
      have paired : (entry.members.zip values)[index]? = some (member, value) :=
        List.getElem?_zip_eq_some.mpr ⟨declared, found⟩
      simpa [chosen, paired] using unblanked
  | unavailable =>
      simp only [chosen] at rebuilds

namespace Value

/-- The order tells any two decoded values of a derived type apart. The induction is on how the
    first of them is typed. Members that do not travel are the same in both. -/
theorem discrete_decoded (type : Ty) (derived : schema.Throughout schema.Derived type) :
    Discrete (Decoded schema type) := by
  rintro one other ⟨typed, same⟩ decoded equal
  induction typed generalizing other with
  | scalar plain =>
      obtain ⟨held, rfl, -⟩ := decoded.typed.scalar_of_leaf plain.leaf
      exact congrArg Value.scalar (Scalar.eq_of_order plain held equal)
  | member type names described index known =>
      obtain ⟨position, rfl, -⟩ := decoded.typed.member_of_kind names described
      rw [order, Nat.compare_eq_eq] at equal
      rw [equal]
  | absent inner =>
      cases decoded.typed with
      | absent => rfl
      | present _ held typed => cases equal
      | member _ _ described => cases described
      | record _ _ described => cases described
  | present inner value held inductionHypothesis =>
      cases decoded.typed with
      | absent => cases equal
      | present _ found typed =>
          exact congrArg Value.present (inductionHypothesis (derived.part (.option inner))
            found (Value.present.inj same) ⟨typed, Value.present.inj decoded.same⟩ equal)
      | member _ _ described => cases described
      | record _ _ described => cases described
  | boxed inner value held inductionHypothesis =>
      cases decoded.typed with
      | boxed _ found typed =>
          exact congrArg Value.boxed (inductionHypothesis (derived.part (.boxed inner))
            found (Value.boxed.inj same) ⟨typed, Value.boxed.inj decoded.same⟩ equal)
      | member _ _ described => cases described
      | record _ _ described => cases described
  | sequence kind element items each holds inductionHypothesis =>
      obtain ⟨others, rfl, -, -⟩ := decoded.typed.items_of_sequence kind element
      have own := Decoded.items_of_sequence ⟨.sequence kind element items each holds, same⟩
      refine congrArg _ (eq_of_orderItems items others (fun index item found listed there alike => ?_)
        equal)
      have among := List.mem_of_getElem? listed
      exact inductionHypothesis item among (derived.part (.element kind element)) found
        (own item among).same (decoded.items_of_sequence found (List.mem_of_getElem? there)) alike
  | map kind key part entries keys parts holds keysHypothesis partsHypothesis =>
      obtain ⟨others, rfl, -, -, -⟩ := decoded.typed.entries_of_map kind key part
      have own := Decoded.entries_of_map ⟨.map kind key part entries keys parts holds, same⟩
      refine congrArg _ (eq_of_orderEntries entries others
        (fun entry listed found there alike => ?_) (fun entry listed found there alike => ?_) equal)
      · exact keysHypothesis entry listed (derived.part (.key kind key part)) found.1
          (own entry listed).1.same (decoded.entries_of_map found there).1 alike
      · exact partsHypothesis entry listed (derived.part (.value kind key part)) found.2
          (own entry listed).2.same (decoded.entries_of_map found there).2 alike
  | record type description described entry found members declared fields inductionHypothesis =>
      obtain ⟨again, others, rfl, foundAgain, declaredOthers, fieldsOthers⟩ :=
        decoded.typed.members_of_kind description described
      cases found.symm.trans foundAgain
      obtain ⟨another, found', describes, rebuilds⟩ := derived.self.describes description described
      cases found.symm.trans found'
      have blanks : schema.blanks type = entry.blanks description := by
        rw [Schema.blanks, found, described]
      refine congrArg _ (eq_of_orderItems members others
        (fun index member other here there alike => ?_) equal)
      have own := Decoded.member_of_record same index member here
      have his := Decoded.member_of_record decoded.same index other there
      rw [blanks] at own his
      cases blank : ((entry.blanks description)[index]?).join with
      | some value =>
          rw [blank] at own his
          exact own.trans his.symm
      | none =>
          rw [blank] at own his
          obtain ⟨inside, -⟩ := List.getElem?_eq_some_iff.mp here
          have lengths : members.length = entry.members.length := by
            simpa using congrArg List.length declared
          have position := List.getElem?_eq_getElem (lengths ▸ inside)
          have field := describes.field_of_travels index _ position
            (entry.travels_of_blanks description rebuilds index _ position blank)
          exact inductionHypothesis _ field member here
            (derived.part (.field type description described _ field)) other own.symm
            ⟨fieldsOthers _ field other there, his.symm⟩ alike

end Value

/-- The type is described as a derivation describes it, and what is rebuilt of typed values is
    typed. -/
structure Schema.Restorable (schema : Schema) (type : Ty) : Prop where
  derived : schema.Derived type
  decodable : schema.Decodable type

/-! ## Encoding decoded values -/

namespace Buffer

/-- Some of the items can be written one after another if all of them can. -/
theorem exists_writes_forM {α : Type} (operation : α → Op Unit) (items : List α)
    (each : ∀ item ∈ items, ∃ bytes, Writes (operation item) bytes) :
    ∃ bytes, Writes (items.forM operation) bytes := by
  induction items with
  | nil => exact ⟨[], writes_pure⟩
  | cons item rest inductionHypothesis =>
      obtain ⟨first, others⟩ := List.forall_mem_cons.mp each
      obtain ⟨front, written⟩ := first
      obtain ⟨behind, writtenToo⟩ := inductionHypothesis others
      exact ⟨front ++ behind, writes_bind written writtenToo⟩

/-- All results of an operation that is repeated are as good as each is. -/
theorem takes_all {α : Type} {config : Config} {operation : Op α} {good : α → Prop}
    (takes : Takes config operation fun result _ => good result) (count : Nat)
    (collected : List α) (before : ∀ result ∈ collected, good result) :
    Takes config (repeated operation count collected) fun results _ =>
      results.length = collected.length + count ∧ ∀ result ∈ results, good result := by
  induction count generalizing collected with
  | zero =>
      exact takes_pure _ ⟨List.length_reverse, fun result listed =>
        before result (List.mem_reverse.mp listed)⟩
  | succ count inductionHypothesis =>
      refine takes_bind takes fun result front holds => ?_
      refine takes_mono (inductionHypothesis (result :: collected)
        (List.forall_mem_cons.mpr ⟨holds, before⟩)) fun results behind ends => ?_
      rw [List.length_cons] at ends
      exact ⟨by omega, ends.2⟩

/-- A length that is read is not negative. -/
theorem takes_length_lt {config : Config} (width : Nat) (range : Range) :
    Takes config (readNumber width >>= checkLength width range) fun length _ =>
      2 * length < Bytes.capacity width := by
  refine takes_bind (takes_readNumber width) fun number front _ => ?_
  refine takes_mono (takes_checkLength width range number) ?_
  rintro length behind ⟨-, rfl, fits⟩
  exact fits

end Buffer

/-- A collection keeps no more elements than it is gathered from. What it keeps is among them, and
    a set keeps nothing twice. -/
theorem SequenceKind.length_collect_le (kind : SequenceKind) (items kept : List Value)
    (collected : kind.collect items = .ok kept) : kept.length ≤ items.length := by
  obtain ⟨holds, among⟩ := kind.holds_of_collect items kept collected
  cases kind with
  | orderedSet =>
      exact (List.subperm_of_subset (Value.nodup_of_ascending holds) among).length_le
  | hashedSet =>
      exact (List.subperm_of_subset (Value.nodup_of_apart holds) among).length_le
  | array length =>
      simp only [collect] at collected
      split at collected
      · cases collected; exact Nat.le_refl _
      · cases collected
  | _ => cases collected; exact Nat.le_refl _

/-- A map keeps no more entries than it is gathered from. -/
theorem MapKind.length_collect_le (kind : MapKind) (entries : List (Value × Value)) :
    (kind.collect entries).length ≤ entries.length := by
  obtain ⟨holds, among⟩ := kind.holds_collect entries
  have keys : ((kind.collect entries).map Prod.fst).Nodup := by
    cases kind with
    | ordered => exact Value.nodup_of_ascending (List.pairwise_map.mpr holds)
    | hashed => exact Value.nodup_of_apart (List.pairwise_map.mpr holds)
  exact (List.subperm_of_subset (List.Pairwise.of_map Prod.fst (fun _ _ => mt (congrArg Prod.fst))
    keys) among).length_le

namespace Serializer

variable (config limits : Config)

/-- What is taken at a place with markers is rebuilt and could be written there, at any site. -/
def WritableAt (schema : Schema) (depth : Nat) (visited : List Ty) (declared : Ty)
    (markers : List Marker) : Prop :=
  ∀ site, Takes limits
    ((build schema config).answer depth visited (.decode (.ofPlace declared markers site none))
      : Buffer.Op Value)
    fun value _ => value.Rebuilt schema declared ∧ ∃ bytes, ∀ otherSite,
      Writes ((build schema config).answer depth visited
        (.encode (.ofPlace declared markers otherSite (some value)))) bytes

/-- An aggregate that is taken is rebuilt, and its fields could be written. -/
def FieldsWritable (schema : Schema) (depth : Nat) (visited : List Ty) (type : Ty)
    (description : Aggregate) : Prop :=
  Takes limits
    ((build schema config).answer depth visited (.decodeFields type description) : Buffer.Op Value)
    fun value _ => value.Rebuilt schema type ∧ ∃ bytes,
      Writes ((build schema config).answer depth visited (.encodeFields type description value)) bytes

/-- A collection is rebuilt from elements that are, and can be written if they can. -/
theorem writable_stream (depth : Nat) (visited : List Ty) (kind : SequenceKind) (element : Ty)
    (each : WritableAt config limits schema depth visited element []) :
    Takes limits
      ((Codec.stream (.sequence kind element) element
          (schema.collect (.sequence kind element))).decode.run
        ((build schema config).answer depth visited))
      fun result _ => ∃ bytes, Spells config schema depth visited (.sequence kind element)
        (Codec.stream (.sequence kind element) element
          (schema.collect (.sequence kind element))) result bytes := by
  rw [Codec.run_decode_stream]
  refine Buffer.takes_bind (Buffer.takes_limits (Buffer.takes_length_lt 8 _))
    fun count _ counted => ?_
  refine Buffer.takes_bind (Buffer.takes_all (each (.element element)) count []
    (List.forall_mem_nil _)) fun items _ taken => ?_
  obtain ⟨lengths, good⟩ := taken
  rw [schema.collect_of_type kind element items fun item listed => (good item listed).1.type]
  have gathered : Takes limits
      (Step.lift (Value.sequence (.sequence kind element) <$> kind.collect items))
      fun whole _ => ∃ kept, kind.collect items = .ok kept ∧
        whole = .sequence (.sequence kind element) kept :=
    Buffer.takes_lift fun whole collected => by
      cases collects : kind.collect items with
      | error error => rw [collects] at collected; cases collected
      | ok kept =>
          rw [collects] at collected
          cases collected
          exact ⟨kept, rfl, rfl⟩
  refine Buffer.takes_map some gathered ?_
  · rintro _ _ ⟨kept, collected, rfl⟩
    have among := (kind.holds_of_collect items kept collected).2
    have same : kept.map (Value.restored schema) = kept.map id :=
      List.map_congr_left fun item listed => (good item (among item listed)).1.same
    obtain ⟨bytes, written⟩ := Buffer.exists_writes_forM (fun item =>
        (build schema config).answer depth visited
          (.encode ((Codec.elementPlace element).withValue item))) kept fun item listed => by
      obtain ⟨-, bytes, written⟩ := good item (among item listed)
      exact ⟨bytes, written (.element element)⟩
    have fits : kept.length < 0x8000000000000000 := by
      have fewer := kind.length_collect_le items kept collected
      have capacity : Bytes.capacity 8 = 2 * 0x8000000000000000 := by decide
      rw [List.length_nil] at lengths
      omega
    refine ⟨Bytes.bigEndian 8 kept.length ++ bytes, _, rfl, ⟨rfl, ?_⟩, ?_⟩
    · rw [Value.restored, Value.restoredItems_eq_map, same, List.map_id]
    · rw [Codec.run_encode_stream]
      exact Buffer.writes_lift ((Value.items_eq_ok _ _ _).mpr rfl)
        (Buffer.writes_bind (Buffer.writes_writeLongLength _ fits) written)

/-- A map is rebuilt from keys and values that are, and can be written if they can. -/
theorem writable_map (depth : Nat) (visited : List Ty) (kind : MapKind) (key part : Ty)
    (keys : WritableAt config limits schema depth visited key [])
    (parts : WritableAt config limits schema depth visited part []) :
    Takes limits
      ((Codec.map (.map kind key part) key part).decode.run
        ((build schema config).answer depth visited))
      fun result _ => ∃ bytes, Spells config schema depth visited (.map kind key part)
        (Codec.map (.map kind key part) key part) result bytes := by
  have entry : Takes limits
      (Program.decodeEntry ((build schema config).answer depth visited) (Codec.keyPlace key)
        (Codec.valuePlace part)) fun entry _ =>
      (entry.1.Rebuilt schema key ∧ entry.2.Rebuilt schema part) ∧ ∃ bytes, Writes (do
        (build schema config).answer depth visited
          (.encode ((Codec.keyPlace key).withValue entry.1))
        (build schema config).answer depth visited
          (.encode ((Codec.valuePlace part).withValue entry.2))) bytes := by
    refine Buffer.takes_bind (keys (.key key)) ?_
    rintro first _ ⟨rebuilt, front, written⟩
    refine Buffer.takes_bind (parts (.value part)) ?_
    rintro second _ ⟨rebuiltToo, behind, writtenToo⟩
    exact Buffer.takes_pure _ ⟨⟨rebuilt, rebuiltToo⟩, front ++ behind,
      Buffer.writes_bind (written (.key key)) (writtenToo (.value part))⟩
  rw [Codec.run_decode_map]
  refine Buffer.takes_bind (Buffer.takes_limits (Buffer.takes_length_lt 4 _))
    fun count _ counted => ?_
  refine Buffer.takes_bind (Buffer.takes_all entry count [] (List.forall_mem_nil _))
    fun entries _ taken => ?_
  obtain ⟨lengths, good⟩ := taken
  rw [Schema.collectEntries_of_type kind key part entries fun entry listed =>
    ⟨(good entry listed).1.1.type, (good entry listed).1.2.type⟩]
  refine Buffer.takes_pure _ ?_
  have among := (kind.holds_collect entries).2
  have same : ((kind.collect entries).map fun entry =>
      (entry.1.restored schema, entry.2.restored schema)) = (kind.collect entries).map id :=
    List.map_congr_left fun entry listed =>
      Prod.ext (good entry (among entry listed)).1.1.same (good entry (among entry listed)).1.2.same
  obtain ⟨bytes, written⟩ := Buffer.exists_writes_forM _ (kind.collect entries)
    fun entry listed => (good entry (among entry listed)).2
  have fits : (kind.collect entries).length < 0x80000000 := by
    have fewer := kind.length_collect_le entries
    have capacity : Bytes.capacity 4 = 2 * 0x80000000 := by decide
    rw [List.length_nil] at lengths
    omega
  refine ⟨Bytes.bigEndian 4 (kind.collect entries).length ++ bytes, _, rfl, ⟨rfl, ?_⟩, ?_⟩
  · rw [Value.restored, Value.restoredEntries_eq_map, same, List.map_id]
  · rw [Codec.run_encode_map]
    exact Buffer.writes_lift ((Value.entries_eq_ok _ _ _).mpr rfl)
      (Buffer.writes_bind (Buffer.writes_writeLength _ fits) written)

/-- What the codec of a shape takes it could write, if that holds of the requests that it makes. -/
theorem writable_codec (depth : Nat) (visited : List Ty) (type : Ty) (marked : Option Ty)
    (shape : Shape) (shaped : schema.shape type marked = .ok shape) (derived : schema.Derived type)
    (honest : ∀ kind element named, type = .sequence kind element → marked = some named →
      named = element)
    (each : ∀ part, schema.Part type part → WritableAt config limits schema depth visited part [])
    (nested : WritableAt config limits schema depth visited type [])
    (fields : ∀ description, schema.kind type = .aggregate description →
      FieldsWritable config limits schema depth visited type description) :
    Takes limits
      ((shape.codec schema type).decode.run ((build schema config).answer depth visited))
      fun result _ => ∃ bytes,
        Spells config schema depth visited type (shape.codec schema type) result bytes := by
  have fits := schema.fits_of_shape type marked shape shaped
  cases shape with
  | leaf plain =>
      obtain ⟨rfl, _⟩ := fits
      exact Buffer.takes_mono (takes_leaf config limits depth visited plain)
        fun _ front spelled => ⟨front, spelled⟩
  | octets =>
      cases fits
      exact Buffer.takes_mono (takes_octetVector config limits depth visited)
        fun _ front spelled => ⟨front, spelled⟩
  | enumeration names =>
      exact Buffer.takes_mono (takes_enumeration config limits depth visited type names)
        fun _ front spelled => ⟨front, spelled⟩
  | sequence element =>
      obtain ⟨_, declared, described, chosen⟩ := fits
      obtain ⟨kind, rfl⟩ := derived.chosen_element described chosen honest
      exact writable_stream config limits depth visited kind element (each _ (.element kind element))
  | map key part =>
      obtain ⟨kind, rfl⟩ := schema.kind_map type key part fits
      exact writable_map config limits depth visited kind key part (each _ (.key kind key part))
        (each _ (.value kind key part))
  | nested =>
      obtain ⟨inner, rfl⟩ := fits
      simp only [Shape.codec, Codec.run_decode_innerOption]
      refine Buffer.takes_map some (nested (.inner (.option inner))) ?_
      rintro value _ ⟨rebuilt, bytes, written⟩
      refine ⟨bytes, value, rfl, rebuilt, ?_⟩
      rw [Codec.run_encode_innerOption]
      exact written (.inner (.option inner))
  | aggregate description =>
      simp only [Shape.codec, Codec.run_decode_aggregate]
      refine Buffer.takes_map some (fields description fits) ?_
      rintro value _ ⟨rebuilt, bytes, written⟩
      refine ⟨bytes, value, rfl, rebuilt, ?_⟩
      rw [Codec.run_encode_aggregate]
      exact written
  | custom format => exact absurd fits (derived.not_custom format)

/-- What is taken behind a presence flag could be written with the flag. -/
theorem writable_flagged (depth : Nat) (visited : List Ty) (type : Ty) (flag : Bool) (codec : Codec)
    (below : Takes limits (codec.decode.run ((build schema config).answer depth visited))
      fun result _ => ∃ bytes, Spells config schema depth visited type codec result bytes) :
    Takes limits ((codec.flagged flag).decode.run ((build schema config).answer depth visited))
      fun result _ => (∀ core, result = some core → core.Rebuilt schema type) ∧ ∃ bytes,
        Writes (((codec.flagged flag).encode result).run
          ((build schema config).answer depth visited)) bytes := by
  have rebuilt {result : Option Value} {bytes : Bytes}
      (spelled : Spells config schema depth visited type codec result bytes) :
      ∀ core, result = some core → core.Rebuilt schema type := by
    obtain ⟨core, rfl, rebuilt, -⟩ := spelled
    rintro other ⟨⟩
    exact rebuilt
  cases flag with
  | false =>
      refine Buffer.takes_mono below ?_
      rintro _ _ ⟨bytes, spelled⟩
      refine ⟨rebuilt spelled, bytes, ?_⟩
      obtain ⟨core, rfl, -, written⟩ := spelled
      exact written
  | true =>
      rw [Codec.run_decode_flagged]
      refine Buffer.takes_bind Buffer.takes_readBool fun given front flag => ?_
      cases given with
      | true =>
          refine Buffer.takes_mono below ?_
          rintro _ _ ⟨bytes, spelled⟩
          refine ⟨rebuilt spelled, front ++ bytes, ?_⟩
          obtain ⟨core, rfl, -, written⟩ := spelled
          rw [Codec.run_encode_flagged]
          exact Buffer.writes_bind flag written
      | false =>
          refine Buffer.takes_pure none ⟨?_, front ++ [], ?_⟩
          · rintro core ⟨⟩
          · rw [Codec.run_encode_flagged]
            exact Buffer.writes_bind flag Buffer.writes_pure

section Aggregates

variable {encode : Context → Buffer.Op Unit} {decode : Context → Buffer.Op Value}

/-- What is taken at the place of a field is rebuilt and could be written there. -/
def FieldWritable (schema : Schema) (encode : Context → Buffer.Op Unit)
    (decode : Context → Buffer.Op Value) (field : Field) : Prop :=
  ∀ site, Takes limits (decode (.ofPlace field.type field.markers site none)) fun value _ =>
    value.Rebuilt schema field.type ∧ ∃ bytes, ∀ otherSite,
      Writes (encode (.ofPlace field.type field.markers otherSite (some value))) bytes

/-- The arguments that mirror fields could be written as the fields. -/
theorem writable_decodeArguments (owner : Ty) (constructor position : Nat) (fields : List Field)
    (each : ∀ field ∈ fields, FieldWritable limits schema encode decode field) :
    Takes limits
      (decodeArguments decode owner constructor position (fields.map Field.parameter))
      fun arguments _ => ∃ bytes, SpellsFields schema encode owner fields arguments bytes := by
  induction fields generalizing position with
  | nil => exact Buffer.takes_pure _ ⟨[], spellsFields_nil owner⟩
  | cons field rest inductionHypothesis =>
      refine Buffer.takes_bind (Buffer.takes_inField _ _
        (each field List.mem_cons_self (.parameter owner constructor position))) ?_
      rintro argument _ ⟨rebuilt, front, written⟩
      refine Buffer.takes_bind (inductionHypothesis (position + 1) fun other later =>
        each other (List.mem_cons_of_mem _ later)) ?_
      rintro arguments _ ⟨behind, others⟩
      exact Buffer.takes_pure _ ⟨front ++ behind, spellsFields_cons owner field rest argument
        arguments front behind rebuilt written others⟩

/-- Fields that are assigned could be written. -/
theorem writable_assignFields (owner : Ty) (index : Nat) (fields : List Field)
    (current : List Value)
    (each : ∀ field ∈ fields, FieldWritable limits schema encode decode field) :
    Takes limits (assignFields decode owner index fields (.record owner current))
      fun value _ => ∃ arguments bytes,
        value = .record owner (Field.put fields arguments current) ∧
        SpellsFields schema encode owner fields arguments bytes := by
  induction fields generalizing index current with
  | nil => exact Buffer.takes_pure _ ⟨[], [], rfl, spellsFields_nil owner⟩
  | cons field rest inductionHypothesis =>
      have first : Takes limits
          (Step.inField owner.name field.name do
            let decoded ← decode ((Context.make field.type field.markers).placedAt
              (.field owner index))
            Step.lift (field.set owner decoded (.record owner current)))
          fun value _ => ∃ argument bytes,
            value = .record owner (current.set field.slot argument) ∧
            argument.Rebuilt schema field.type ∧ ∀ site,
              Writes (encode (.ofPlace field.type field.markers site (some argument))) bytes := by
        refine Buffer.takes_inField _ _ (Buffer.takes_bind_lift
          (each field List.mem_cons_self (.field owner index)) ?_)
        rintro argument _ ⟨rebuilt, bytes, written⟩ value put
        have expected : argument.expect field.type = .ok argument :=
          (Value.expect_eq_ok _ _ _).mpr ⟨rebuilt.type, rfl⟩
        simp only [Field.set, if_true, expected] at put
        cases put
        exact ⟨argument, bytes, rfl, rebuilt, written⟩
      refine Buffer.takes_bind first ?_
      rintro _ _ ⟨argument, front, rfl, rebuilt, written⟩
      refine Buffer.takes_mono (inductionHypothesis (index + 1) (current.set field.slot argument)
        fun other later => each other (List.mem_cons_of_mem _ later)) ?_
      rintro _ _ ⟨arguments, behind, rfl, others⟩
      exact ⟨argument :: arguments, front ++ behind, rfl,
        spellsFields_cons owner field rest argument arguments front behind rebuilt written others⟩

/-- An aggregate that is rebuilt from its own fields could be written, whichever way it is
    rebuilt. -/
theorem writable_rebuild (type : Ty) (description : Aggregate)
    (described : schema.kind type = .aggregate description) (entry : Entry)
    (found : schema.find? type = some entry) (describes : entry.Describes description)
    (rebuilds : description.Rebuilds entry)
    (each : ∀ field ∈ description.fields, FieldWritable limits schema encode decode field) :
    Takes limits (rebuild decode type description) fun value _ =>
      value.Rebuilt schema type ∧ ∃ bytes,
        Writes (encodeFields encode type value 0 description.fields) bytes := by
  obtain rfl : entry.type = type := Schema.type_of_find? found
  unfold Aggregate.Rebuilds at rebuilds
  unfold rebuild
  split
  · next index constructor chosen =>
      simp only [chosen] at rebuilds
      obtain ⟨mirrors, builds⟩ := rebuilds
      rw [mirrors]
      refine Buffer.takes_bind_lift
        (writable_decodeArguments limits entry.type index 0 description.fields each) ?_
      rintro arguments _ ⟨bytes, spelled⟩ value built
      have types : arguments.map Value.type = description.fields.map Field.type := by
        rw [← List.forall₂_eq_eq_eq, List.forall₂_map_left_iff, List.forall₂_map_right_iff]
        exact spelled.1.flip.imp fun _ _ rebuilt => rebuilt.type
      cases (builds arguments types).symm.trans built
      have filled := rebuilt_filled entry.type description described entry found entry.members
        describes.fields (by simp only [Entry.blanks, chosen]) arguments bytes spelled
      exact ⟨filled.1, bytes, filled.2⟩
  · next initial chosen =>
      simp only [chosen] at rebuilds
      obtain ⟨values, rfl, types⟩ := rebuilds
      have lengths : values.length = entry.members.length := by
        simpa using congrArg List.length types
      refine Buffer.takes_mono
        (writable_assignFields limits entry.type 0 description.fields values each) ?_
      rintro _ _ ⟨arguments, bytes, rfl, spelled⟩
      have put : Field.put (Member.fieldsFrom 0 entry.members) arguments values
          = Member.filled (Member.blankedBy entry.members values) arguments :=
        Member.put_eq_filled [] entry.members values arguments lengths
          (describes.fields ▸ spelled.1.length_eq.symm)
      have blanked := Member.fieldsFrom_blankedBy entry.members values 0 lengths
      have filled := rebuilt_filled entry.type description described entry found
        (Member.blankedBy entry.members values) (describes.fields.trans blanked.symm) (by
          simp only [Entry.blanks, chosen, Member.map_blank_blankedBy]) arguments bytes spelled
      rw [← describes.fields] at put
      rw [put]
      exact ⟨filled.1, bytes, filled.2⟩
  · next chosen => simp only [chosen] at rebuilds

end Aggregates

/-- Every place of a derived type could write what it takes, and so could the fields of an
    aggregate. The induction is on how deep requests may nest, for both together; what decoding
    has spent of it is enough for encoding. -/
theorem writable_answer (depth : Nat) :
    (∀ visited declared markers, schema.Throughout schema.Derived declared →
      Marker.Honest declared markers →
      WritableAt config limits schema depth visited declared markers) ∧
    ∀ visited type description, schema.kind type = .aggregate description →
      schema.Throughout schema.Derived type →
      FieldsWritable config limits schema depth visited type description := by
  induction depth with
  | zero =>
      exact ⟨fun _ _ _ _ _ _ => Buffer.takes_fail _, fun _ _ _ _ _ => Buffer.takes_fail _⟩
  | succ depth inductionHypothesis =>
      obtain ⟨places, aggregates⟩ := inductionHypothesis
      constructor
      · intro visited declared markers derived honest site
        have unmarked (part : Ty) (derivedPart : schema.Throughout schema.Derived part) :
            WritableAt config limits schema depth visited part [] :=
          places visited part [] derivedPart (Marker.honest_nil _)
        obtain ⟨shape, shaped⟩ := derived.unwrapped.self.shape (Marker.element? markers)
          declared.unwrapped_ne_boxed
        have below := writable_codec config limits depth visited declared.unwrapped
          (Marker.element? markers) shape shaped derived.unwrapped.self honest
          (fun part contained => unmarked part (derived.unwrapped.part contained))
          (unmarked declared.unwrapped derived.unwrapped)
          (fun description described =>
            aggregates visited declared.unwrapped description described derived.unwrapped)
        rw [answer_decode_place, shaped, Step.lift_ok, LawfulMonad.pure_bind]
        refine Buffer.takes_bind_lift (writable_flagged config limits depth visited _
          (declared.stripsOption || markers.contains .nullable) _ below) ?_
        rintro inner _ ⟨core, bytes, written⟩ whole rewrapped
        obtain ⟨projected, rebuilt⟩ := (Value.Rebuilt.layered schema).project_rewrap declared inner
          whole core (Context.rewrapThrough_of_rewrap (.of declared) inner whole rewrapped)
        refine ⟨rebuilt, bytes, fun otherSite => ?_⟩
        rw [answer_encode_place, shaped, Step.lift_ok, LawfulMonad.pure_bind]
        exact Buffer.writes_lift projected written
      · intro visited type description described derived
        obtain ⟨entry, found, describes, rebuilds⟩ := derived.self.describes description described
        unfold FieldsWritable
        simp only [answer]
        split
        · exact Buffer.takes_fail _
        · refine writable_rebuild limits type description described entry found describes rebuilds
            fun field listed => ?_
          exact places (type :: visited) field.type field.markers
            (derived.part (.field type description described field listed))
            (describes.honest field listed)

/-- The limits of a serializer have no part in how requests are answered. It is those of the buffer
    that count. -/
theorem answer_config (schema : Schema) (config other : Config) (depth : Nat) (visited : List Ty)
    (request : Request) :
    (build schema config).answer depth visited request
      = (build schema other).answer depth visited request := by
  induction depth generalizing visited request with
  | zero => cases request <;> rfl
  | succ depth inductionHypothesis =>
      have same (visited : List Ty) : (build schema config).answer depth visited
          = (build schema other).answer depth visited :=
        funext fun request => inductionHypothesis visited request
      cases request with
      | look => rfl
      | replace buffer => rfl
      | path => rfl
      | encodeFields type description value => simp only [answer, same]
      | decodeFields type description => simp only [answer, same]
      | _ => simp only [answer, same]; rfl

/-- What is taken off a buffer is decoded if the type is restorable, and it could be appended to
    another one. -/
theorem takes_taking (type : Ty) (restorable : schema.Throughout schema.Restorable type) :
    Takes limits ((build schema config).taking type) fun value _ =>
      value.Decoded schema type ∧ ∃ bytes, Writes ((build schema config).appending value) bytes := by
  intro bytes value after taken
  have yields := yields_taking limits schema type (restorable.mono fun _ both => both.decodable)
    bytes
  have again : (build schema limits).taking type (Buffer.reader bytes limits) = .ok value after :=
    (congrFun (answer_config schema limits config _ [] _) _).trans taken
  rw [again] at yields
  obtain ⟨front, rest, split, left, rebuilt, written, writes⟩ := (writable_answer config limits
    ((build schema config).nesting (root type none))).1 [] type []
      (restorable.mono fun _ both => both.derived) (Marker.honest_nil _) (.root type) bytes value
      after taken
  obtain rfl := rebuilt.type
  exact ⟨front, rest, split, left, ⟨yields.1, rebuilt.same⟩, written, writes (.root _)⟩

end Serializer

end Wireform
