import Wireform.Proofs.Collections
import Wireform.Proofs.Formats

/-!
# Codecs and combinators

There are two ways to a map, an enumeration or an optional value. A serializer finds a codec for the
type and works on values of which it knows no type; by hand, the operations of a buffer are combined
for the type at hand. Here it is shown that a type of leaves, enumerations, options and maps goes
over the wire the same way by either: what is written is the same and fails for the same reasons,
and so does what is read, in the same place.

What is read by hand is a hashed map, while the type may ask for an ordered one. So the two are
compared as finite maps. This needs keys that are told apart in both ways alike, and keys that hold
hashed maps would not be, since these are listed in any order. But hashed maps are neither ordered
nor hashed themselves, so they are not found in keys.
-/

namespace Wireform

/-! ## Assembled types -/

/-- No hashed map is in the type, so that its values can be keys. -/
def Ty.isKey : Ty → Bool
  | .option inner => inner.isKey
  | .map .ordered key part => key.isKey && part.isKey
  | .map .hashed _ _ => false
  | _ => true

/-- The format that a type made of leaves, enumerations, options and maps is assembled to. -/
inductive Schema.Assembles (schema : Schema) : Ty → Format → Prop
  | leaf (plain : Leaf) (supported : plain ∈ Leaf.supported) :
      Assembles schema (.leaf plain) (.leaf plain)
  | enumeration (type : Ty) (names : List String)
      (described : schema.kind type = .enumeration names) :
      Assembles schema type (.enumeration type names)
  | option (inner : Ty) (format : Format) (assembles : Assembles schema inner format) :
      Assembles schema (.option inner) (.optional format)
  | map (kind : MapKind) (key part : Ty) (keyFormat partFormat : Format)
      (keys : Assembles schema key keyFormat) (parts : Assembles schema part partFormat)
      (hashable : key.isKey = true) :
      Assembles schema (.map kind key part) (.map keyFormat partFormat)

/-- The value with a hashed map in place of each ordered one. -/
def Format.hashed : Format → Value → Value
  | .optional inner, .absent _ => .absent inner.type
  | .optional inner, .present value => .present (inner.hashed value)
  | .map key part, .map _ entries =>
      .map (.map .hashed key.type part.type)
        (entries.map fun entry => (key.hashed entry.1, part.hashed entry.2))
  | _, value => value

/-- A typed value of an option is absent, or it holds a typed value. -/
theorem Value.Typed.option_cases {schema : Schema} {inner : Ty} {value : Value}
    (typed : value.Typed schema (.option inner)) :
    value = .absent inner ∨ ∃ held, value = .present held ∧ held.Typed schema inner := by
  cases typed with
  | absent => exact .inl rfl
  | present _ held typed => exact .inr ⟨held, rfl, typed⟩
  | member _ _ described => cases described
  | record _ _ described => cases described

namespace Schema.Assembles

variable {schema : Schema} {type : Ty} {format : Format}

/-- A typed value is one of the format, but for the maps. -/
theorem holds_hashed (assembles : schema.Assembles type format) (value : Value)
    (typed : value.Typed schema type) : format.Holds (format.hashed value) := by
  induction assembles generalizing value with
  | leaf plain supported => exact typed.scalar_of_leaf plain
  | enumeration type names described => exact typed.member_of_kind names described
  | option inner format assembles inductionHypothesis =>
      obtain rfl | ⟨held, rfl, own⟩ := typed.option_cases
      · exact .inl rfl
      · exact .inr ⟨_, rfl, inductionHypothesis held own⟩
  | map kind key part keyFormat partFormat keys parts hashable keysHypothesis partsHypothesis =>
      obtain ⟨entries, rfl, typedKeys, typedParts, -⟩ := typed.entries_of_map kind key part
      exact ⟨_, rfl, List.forall_mem_map.mpr fun entry listed =>
        ⟨keysHypothesis entry.1 (typedKeys entry listed),
          partsHypothesis entry.2 (typedParts entry listed)⟩⟩

/-- The order tells typed values apart. -/
theorem discrete (assembles : schema.Assembles type format) :
    Value.Discrete (Value.Typed schema type) := by
  induction assembles with
  | leaf plain supported =>
      intro one other typed typedOther equal
      obtain ⟨left, rfl, -⟩ := typed.scalar_of_leaf plain
      obtain ⟨right, rfl, -⟩ := typedOther.scalar_of_leaf plain
      rw [Scalar.eq_of_order left right equal]
  | enumeration type names described =>
      intro one other typed typedOther equal
      obtain ⟨index, rfl, -⟩ := typed.member_of_kind names described
      obtain ⟨position, rfl, -⟩ := typedOther.member_of_kind names described
      rw [Nat.compare_eq_eq.mp equal]
  | option inner format assembles inductionHypothesis =>
      intro one other typed typedOther equal
      obtain rfl | ⟨left, rfl, own⟩ := typed.option_cases <;>
        obtain rfl | ⟨right, rfl, ownOther⟩ := typedOther.option_cases
      · rfl
      · cases equal
      · cases equal
      · rw [inductionHypothesis left right own ownOther equal]
  | map kind key part keyFormat partFormat keys parts hashable keysHypothesis partsHypothesis =>
      intro one other typed typedOther equal
      obtain ⟨entries, rfl, typedKeys, typedParts, -⟩ := typed.entries_of_map kind key part
      obtain ⟨others, rfl, keysOther, partsOther, -⟩ := typedOther.entries_of_map kind key part
      rw [keysHypothesis.entries partsHypothesis entries others
        (fun entry listed => ⟨typedKeys entry listed, typedParts entry listed⟩)
        (fun entry listed => ⟨keysOther entry listed, partsOther entry listed⟩) equal]

end Schema.Assembles

namespace Format

/-- The listing that is read by hand where a serializer decodes the value. -/
def relisted (format : Format) (value : Value) : Value := format.listing (format.hashed value)

/-- The relisting of a map is collected of its entries with keys and values relisted. -/
theorem relisted_map (key part : Format) (own : Ty) (entries : List (Value × Value)) :
    (map key part).relisted (.map own entries)
      = .map (.map .hashed key.type part.type) (MapKind.ordered.collect
          (entries.map fun entry => (key.relisted entry.1, part.relisted entry.2))) := by
  simp only [relisted, hashed, listing, List.map_map, Function.comp_def]

end Format

namespace Schema.Assembles

variable {schema : Schema} {key part : Ty} {keyFormat partFormat : Format}

/-- The relisting of a typed value is a value of the format. -/
theorem holds_relisted {type : Ty} {format : Format} (assembles : schema.Assembles type format)
    (value : Value) (typed : value.Typed schema type) : format.Holds (format.relisted value) :=
  format.holds_listing _ (assembles.holds_hashed value typed)

/-- Maps are relisted alike exactly if the relistings of their entries that were last written are the
    same. -/
theorem collect_relisted_iff (keys : schema.Assembles key keyFormat)
    (entries others : List (Value × Value)) (typed : ∀ entry ∈ entries, entry.1.Typed schema key)
    (typedOthers : ∀ entry ∈ others, entry.1.Typed schema key) :
    let relist (entry : Value × Value) := (keyFormat.relisted entry.1, partFormat.relisted entry.2)
    MapKind.ordered.collect (entries.map relist) = MapKind.ordered.collect (others.map relist) ↔
      ∀ image, Value.LastWritten (· = ·) (entries.map relist) image ↔
        Value.LastWritten (· = ·) (others.map relist) image :=
  keyFormat.discrete.collect_eq_iff _ _
    (List.forall_mem_map.mpr fun entry listed => keys.holds_relisted entry.1 (typed entry listed))
    (List.forall_mem_map.mpr fun entry listed =>
      keys.holds_relisted entry.1 (typedOthers entry listed))

/-- If keys with the same relisting are the same, the last entries of a map stay the last ones. -/
theorem lastWritten_relisted
    (apart : ∀ one other, one.Typed schema key → other.Typed schema key →
      keyFormat.relisted one = keyFormat.relisted other → one = other)
    (entries : List (Value × Value)) (typed : ∀ entry ∈ entries, entry.1.Typed schema key)
    (image : Value × Value) :
    Value.LastWritten (· = ·)
        (entries.map fun entry => (keyFormat.relisted entry.1, partFormat.relisted entry.2)) image
      ↔ ∃ entry, Value.LastWritten (· = ·) entries entry ∧
          (keyFormat.relisted entry.1, partFormat.relisted entry.2) = image :=
  Value.lastWritten_map (· = ·) _ entries (fun one among other listed =>
    ⟨congrArg keyFormat.relisted, apart one.1 other.1 (typed one among) (typed other listed)⟩) image

/-- Entries of a map that holds them are the ones that were last written. -/
theorem lastWritten_of_holds (keys : schema.Assembles key keyFormat) (kind : MapKind)
    (entries : List (Value × Value)) (typed : ∀ entry ∈ entries, entry.1.Typed schema key)
    (holds : kind.Holds entries) (entry : Value × Value) :
    Value.LastWritten (· = ·) entries entry ↔ entry ∈ entries := by
  have gathers := (kind.gathers_collect keys.discrete entries typed).2 entry
  rw [kind.collect_of_holds entries holds] at gathers
  exact gathers.symm

/-- Values that can be keys are the same if they are relisted alike. -/
theorem eq_of_relisted {type : Ty} {format : Format} (assembles : schema.Assembles type format)
    (hashable : type.isKey = true) (one other : Value) (typed : one.Typed schema type)
    (typedOther : other.Typed schema type) (same : format.relisted one = format.relisted other) :
    one = other := by
  induction assembles generalizing one other with
  | leaf plain supported => exact same
  | enumeration type names described => exact same
  | option inner format assembles inductionHypothesis =>
      obtain rfl | ⟨left, rfl, own⟩ := typed.option_cases <;>
        obtain rfl | ⟨right, rfl, ownOther⟩ := typedOther.option_cases
      · rfl
      · cases same
      · cases same
      · rw [inductionHypothesis hashable left right own ownOther (Value.present.inj same)]
  | map kind key part keyFormat partFormat keys parts _ keysHypothesis partsHypothesis =>
      cases kind with
      | hashed => cases hashable
      | ordered =>
          obtain ⟨hashableKey, hashablePart⟩ := Bool.and_eq_true_iff.mp hashable
          obtain ⟨entries, rfl, typedKeys, typedParts, ascends⟩ :=
            typed.entries_of_map .ordered key part
          obtain ⟨others, rfl, keysOther, partsOther, ascendsOther⟩ :=
            typedOther.entries_of_map .ordered key part
          rw [Format.relisted_map, Format.relisted_map] at same
          have written := (keys.collect_relisted_iff entries others typedKeys keysOther).mp
            (Value.map.inj same).2
          simp only [lastWritten_relisted (keysHypothesis hashableKey) _ typedKeys,
            lastWritten_relisted (keysHypothesis hashableKey) _ keysOther,
            keys.lastWritten_of_holds .ordered _ typedKeys ascends,
            keys.lastWritten_of_holds .ordered _ keysOther ascendsOther] at written
          -- an entry and the one that is relisted like it on the other side are the same
          have alike {entry found : Value × Value} (ownKey : entry.1.Typed schema key)
              (ownPart : entry.2.Typed schema part) (otherKey : found.1.Typed schema key)
              (otherPart : found.2.Typed schema part)
              (same : (keyFormat.relisted found.1, partFormat.relisted found.2)
                = (keyFormat.relisted entry.1, partFormat.relisted entry.2)) : found = entry :=
            Prod.ext (keysHypothesis hashableKey _ _ otherKey ownKey (congrArg Prod.fst same))
              (partsHypothesis hashablePart _ _ otherPart ownPart (congrArg Prod.snd same))
          refine congrArg _ (Value.ext_of_ascending Prod.fst entries others ascends ascendsOther
            fun entry => ⟨fun listed => ?_, fun listed => ?_⟩)
          · obtain ⟨found, among, same⟩ := (written _).mp ⟨entry, listed, rfl⟩
            obtain rfl := alike (typedKeys entry listed) (typedParts entry listed)
              (keysOther found among) (partsOther found among) same
            exact among
          · obtain ⟨found, among, same⟩ := (written _).mpr ⟨entry, listed, rfl⟩
            obtain rfl := alike (keysOther entry listed) (partsOther entry listed)
              (typedKeys found among) (typedParts found among) same
            exact among

/-- A map is relisted like the entries that it is gathered from. -/
theorem collect_relisted (keys : schema.Assembles key keyFormat) (hashable : key.isKey = true)
    (kind : MapKind) (entries : List (Value × Value))
    (typed : ∀ entry ∈ entries, entry.1.Typed schema key) :
    let relist (entry : Value × Value) := (keyFormat.relisted entry.1, partFormat.relisted entry.2)
    MapKind.ordered.collect ((kind.collect entries).map relist)
      = MapKind.ordered.collect (entries.map relist) := by
  obtain ⟨holds, among⟩ := kind.holds_collect entries
  have kept : ∀ entry ∈ kind.collect entries, entry.1.Typed schema key :=
    fun entry listed => typed entry (among entry listed)
  have apart := keys.eq_of_relisted hashable
  refine (keys.collect_relisted_iff _ _ kept typed).mpr fun image => ?_
  rw [lastWritten_relisted apart _ kept, lastWritten_relisted apart _ typed]
  simp only [keys.lastWritten_of_holds kind _ kept holds,
    (kind.gathers_collect keys.discrete entries typed).2]

end Schema.Assembles

/-- Operations that are equal on all items do the same on them one after another. -/
theorem Buffer.forM_congr {α : Type} {operation other : α → Buffer.Op Unit} (items : List α)
    (each : ∀ item ∈ items, operation item = other item) :
    items.forM operation = items.forM other := by
  induction items with
  | nil => rfl
  | cons item rest inductionHypothesis =>
      obtain ⟨first, later⟩ := List.forall_mem_cons.mp each
      change (operation item >>= fun _ => rest.forM operation)
        = (other item >>= fun _ => rest.forM other)
      rw [first, inductionHypothesis later]

/-- A result that is handed on as present is still related to the other one. -/
theorem Buffer.parallel_some {α β : Type} {related : α → β → Prop} {operation : Buffer.Op α}
    {other : Buffer.Op β} (parallel : Buffer.Parallel related operation other) :
    Buffer.Parallel (fun inner found => ∃ value, inner = some value ∧ related value found)
      (some <$> operation) other := by
  rw [← id_map other]
  exact Buffer.parallel_map some id parallel fun value found alike => ⟨value, rfl, alike⟩

namespace Serializer

variable (schema : Schema) (config : Config)

/-! ## Codecs and places -/

/-- The decoded value is typed, and by hand its relisting is read. -/
def Relists (type : Ty) (format : Format) (value found : Value) : Prop :=
  value.Typed schema type ∧ found = format.relisted value

/-- The codec of the type writes what the format writes and reads what it reads. -/
def CodecFollows (depth : Nat) (type : Ty) (format : Format) : Prop :=
  ∃ shape, schema.shape type none = .ok shape ∧ ∀ visited,
    (∀ value, value.Typed schema type →
      ((shape.codec schema type).encode (some value)).run
        ((build schema config).answer depth visited) = format.write value) ∧
    Buffer.Parallel (fun inner found => ∃ value, inner = some value ∧
        Relists schema type format value found)
      ((shape.codec schema type).decode.run ((build schema config).answer depth visited))
      format.read

/-- So does whatever is done at a place of the type. -/
def PlaceFollows (depth : Nat) (type : Ty) (format : Format) : Prop :=
  ∀ visited site,
    (∀ value, value.Typed schema type →
      (build schema config).answer depth visited (.encode (.ofPlace type [] site (some value)))
        = format.write value) ∧
    Buffer.Parallel (Relists schema type format)
      ((build schema config).answer depth visited (.decode (.ofPlace type [] site none))
        : Buffer.Op Value)
      format.read

variable {schema config} {depth : Nat} {format : Format}

/-- What is encoded at a place of a type without layers is what its codec makes of it. -/
theorem answer_encode_bare (depth : Nat) (visited : List Ty) (type : Ty) (site : Site)
    (shape : Shape) (value : Value) (bare : type.peel false = ([], type))
    (shaped : schema.shape type none = .ok shape) :
    (build schema config).answer (depth + 1) visited
        (.encode (.ofPlace type [] site (some value)))
      = ((shape.codec schema type).encode (some value)).run
          ((build schema config).answer depth visited) := by
  have unwrapped : type.unwrapped = type := congrArg Prod.snd bare
  have layers : type.layers = [] := congrArg Prod.fst bare
  have strips : type.stripsOption = false := by rw [Ty.stripsOption, layers, List.any_nil]
  have unmarked : schema.shape type (Marker.element? []) = .ok shape := shaped
  rw [answer_encode_place, unwrapped, strips, layers, unmarked]
  rfl

/-- A leaf is written and read by hand. -/
theorem codecFollows_leaf (plain : Leaf) (supported : plain ∈ Leaf.supported) :
    CodecFollows schema config depth (.leaf plain) (.leaf plain) := by
  refine ⟨.leaf plain, if_pos supported, fun visited => ⟨fun value typed => ?_, ?_⟩⟩
  · have expected : value.expect (.leaf plain) = .ok value :=
      (Value.expect_eq_ok _ _ _).mpr ⟨typed.type_eq, rfl⟩
    rw [Shape.codec, Codec.run_encode_leaf, expected]
    rfl
  · rw [Shape.codec, Codec.run_decode_leaf]
    refine Buffer.parallel_some (Buffer.parallel_bind (Buffer.parallel_same plain.ends_read) ?_)
    rintro scalar _ ⟨rfl, rfl⟩
    exact Buffer.parallel_pure ⟨.scalar scalar, rfl⟩

/-- A member is written and read by its name. -/
theorem codecFollows_enumeration (type : Ty) (names : List String)
    (described : schema.kind type = .enumeration names) :
    CodecFollows schema config depth type (.enumeration type names) := by
  have shaped : schema.shape type none = .ok (.enumeration names) := by
    cases type with
    | named name => simp [Schema.shape, Schema.shapeOfKind, described, Ty.vector]
    | applied name argument => simp [Schema.shape, Schema.shapeOfKind, described, Ty.vector]
    | _ => cases described
  refine ⟨.enumeration names, shaped, fun visited => ⟨fun value typed => ?_, ?_⟩⟩
  · rw [Shape.codec]
    exact Codec.run_encode_enumeration _ _ _ type names value
  · rw [Shape.codec, Codec.run_decode_enumeration]
    refine Buffer.parallel_some (Buffer.parallel_after _ fun name => ?_)
    unfold Enumeration.fromName
    cases found : names.idxOf? name with
    | none => exact Buffer.parallel_fail _
    | some index =>
        obtain ⟨known, _, _⟩ := List.idxOf?_eq_some_iff.mp found
        exact Buffer.parallel_pure ⟨.member type names described index known, rfl⟩

/-- A map is written and read entry by entry, if keys and values are. -/
theorem codecFollows_map (kind : MapKind) (key part : Ty) (keyFormat partFormat : Format)
    (assembles : schema.Assembles key keyFormat) (hashable : key.isKey = true)
    (keys : PlaceFollows schema config depth key keyFormat)
    (parts : PlaceFollows schema config depth part partFormat) :
    CodecFollows schema config depth (.map kind key part) (.map keyFormat partFormat) := by
  refine ⟨.map key part, rfl, fun visited => ⟨fun value typed => ?_, ?_⟩⟩
  · obtain ⟨entries, rfl, typedKeys, typedParts, -⟩ := typed.entries_of_map kind key part
    have held : (Value.map (.map kind key part) entries).entries (.map kind key part)
        = .ok entries := (Value.entries_eq_ok _ _ _).mpr rfl
    have each (entry : Value × Value) (listed : entry ∈ entries) : (do
          (build schema config).answer depth visited
            (.encode ((Codec.keyPlace key).withValue entry.1))
          (build schema config).answer depth visited
            (.encode ((Codec.valuePlace part).withValue entry.2)))
        = (do keyFormat.write entry.1; partFormat.write entry.2) :=
      congrArg₂ (fun (first second : Buffer.Op Unit) => do first; second)
        ((keys visited (.key key)).1 entry.1 (typedKeys entry listed))
        ((parts visited (.value part)).1 entry.2 (typedParts entry listed))
    rw [Shape.codec, Codec.run_encode_map, held, Step.lift_ok, LawfulMonad.pure_bind, Format.write,
      Buffer.forM_congr entries each]
  · let relist (entry : Value × Value) :=
      (keyFormat.relisted entry.1, partFormat.relisted entry.2)
    have entry : Buffer.Parallel
        (fun entry found => (entry.1.Typed schema key ∧ entry.2.Typed schema part) ∧
          found = relist entry)
        (Program.decodeEntry ((build schema config).answer depth visited) (Codec.keyPlace key)
          (Codec.valuePlace part))
        (do
          let first ← keyFormat.read
          let second ← partFormat.read
          return (first, second)) := by
      refine Buffer.parallel_bind (keys visited (.key key)).2 fun first found own => ?_
      refine Buffer.parallel_bind (parts visited (.value part)).2 fun second held other => ?_
      exact Buffer.parallel_pure ⟨⟨own.1, other.1⟩, Prod.ext own.2 other.2⟩
    rw [Shape.codec, Codec.run_decode_map, Format.read]
    simp only [Format.readAll, bind_assoc]
    refine Buffer.parallel_after _ fun limits => Buffer.parallel_after _ fun count => ?_
    refine Buffer.parallel_bind (Buffer.parallel_repeated entry count .nil)
      fun entries others alike => ?_
    obtain ⟨typed, same⟩ := (List.forall₂_and_left entries others).mp alike
    obtain rfl : others = entries.map relist := by
      rw [eq_comm, ← List.forall₂_eq_eq_eq, List.forall₂_map_left_iff]
      exact same.imp fun _ _ => Eq.symm
    have typedKeys : ∀ entry ∈ entries, entry.1.Typed schema key :=
      fun entry listed => (typed entry listed).1
    obtain ⟨holds, among⟩ := kind.holds_collect entries
    rw [Schema.collectEntries_of_type kind key part entries fun entry listed =>
      ⟨(typed entry listed).1.type_eq, (typed entry listed).2.type_eq⟩]
    refine Buffer.parallel_pure ⟨_, rfl, ?_, ?_⟩
    · exact .map kind key part _ (fun entry listed => (typed entry (among entry listed)).1)
        (fun entry listed => (typed entry (among entry listed)).2) holds
    · rw [Format.relisted_map, assembles.collect_relisted hashable kind entries typedKeys]

/-- A place without layers is left to the codec of its type. -/
theorem placeFollows_bare (type : Ty) (bare : type.peel false = ([], type))
    (follows : CodecFollows schema config depth type format) :
    PlaceFollows schema config (depth + 1) type format := by
  obtain ⟨shape, shaped, same⟩ := follows
  intro visited site
  obtain ⟨writes, reads⟩ := same visited
  constructor
  · intro value typed
    rw [answer_encode_bare depth visited type site shape value bare shaped]
    exact writes value typed
  · rw [answer_decode_bare schema config depth visited type site shape bare shaped,
      ← bind_pure format.read]
    refine Buffer.parallel_bind reads ?_
    rintro _ found ⟨value, rfl, alike⟩
    rw [rewrap_bare type value bare]
    exact Buffer.parallel_pure alike

/-- A place of an option has a flag in front of what is left to the codec of the type below. -/
theorem placeFollows_option (inner : Ty) (bare : inner.peel true = ([], inner))
    (follows : CodecFollows schema config depth inner format) :
    PlaceFollows schema config (depth + 1) (.option inner) (.optional format) := by
  obtain ⟨shape, shaped, same⟩ := follows
  intro visited site
  obtain ⟨writes, reads⟩ := same visited
  have peeled : (Ty.option inner).peel false = ([.nullable inner], inner) := by
    rw [Ty.peel, bare]
  have unwrapped : (Ty.option inner).unwrapped = inner := congrArg Prod.snd peeled
  have layers : (Ty.option inner).layers = [.nullable inner] := congrArg Prod.fst peeled
  have declared : (Context.of (.option inner)).declared.layers = [.nullable inner] := layers
  have strips : (Ty.option inner).stripsOption = true := by rw [Ty.stripsOption, layers]; rfl
  have unmarked : schema.shape inner (Marker.element? []) = .ok shape := shaped
  constructor
  · intro value typed
    rw [answer_encode_place, unwrapped, layers, strips, unmarked, Step.lift_ok,
      LawfulMonad.pure_bind]
    obtain rfl | ⟨held, rfl, own⟩ := typed.option_cases
    · rw [(Context.projectThrough_nullable inner [] _ none).mpr (.inl ⟨rfl, rfl⟩), Step.lift_ok,
        LawfulMonad.pure_bind, Bool.true_or, Codec.run_encode_flagged, Format.write]
      exact bind_pure _
    · rw [(Context.projectThrough_nullable inner [] _ (some held)).mpr
        (.inr ⟨held, rfl, own.type_eq, rfl⟩), Step.lift_ok, LawfulMonad.pure_bind, Bool.true_or,
        Codec.run_encode_flagged, Format.write, ← writes held own]
      rfl
  · rw [answer_decode_place, unwrapped, strips, unmarked, Step.lift_ok, LawfulMonad.pure_bind,
      Bool.true_or, Codec.run_decode_flagged, Format.read]
    simp only [bind_assoc]
    refine Buffer.parallel_after _ fun given => ?_
    cases given with
    | false =>
        have rewrapped : (Context.of (.option inner)).rewrap none = .ok (.absent inner) := by
          rw [Context.rewrap, declared]
          rfl
        simp only [Bool.false_eq_true, if_false, pure_bind, rewrapped]
        exact Buffer.parallel_pure ⟨.absent inner, rfl⟩
    | true =>
        refine Buffer.parallel_bind reads ?_
        rintro _ found ⟨value, rfl, typed, rfl⟩
        have rewrapped : (Context.of (.option inner)).rewrap (some value)
            = .ok (.present value) := by
          rw [Context.rewrap, declared]
          simp only [Context.rewrapThrough, bind, Except.bind,
            Layer.rewrap_nullable inner value typed.type_eq]
          rfl
        rw [rewrapped]
        exact Buffer.parallel_pure ⟨.present inner value typed, rfl⟩

/-- An option below another one is left to a place of its own. -/
theorem codecFollows_nested (inner : Ty)
    (follows : PlaceFollows schema config depth (.option inner) format) :
    CodecFollows schema config depth (.option inner) format := by
  refine ⟨.nested, rfl, fun visited => ?_⟩
  obtain ⟨writes, reads⟩ := follows visited (.inner (.option inner))
  constructor
  · intro value typed
    rw [Shape.codec, Codec.run_encode_innerOption]
    exact writes value typed
  · rw [Shape.codec, Codec.run_decode_innerOption]
    exact Buffer.parallel_some reads

/-- Codecs and places of an assembled type follow its format, if there is depth for the layers of
    the type. The induction is on how the format is assembled, for both together. -/
theorem follows (config : Config) {type : Ty} (assembles : schema.Assembles type format) :
    (∀ depth, type.size ≤ depth + 1 → CodecFollows schema config depth type format) ∧
      ∀ depth, type.size ≤ depth → PlaceFollows schema config depth type format := by
  have deep {type : Ty} {depth : Nat} (room : type.size ≤ depth) : ∃ below, depth = below + 1 :=
    Nat.exists_eq_succ_of_ne_zero (Nat.ne_of_gt (Nat.lt_of_lt_of_le type.size_pos room))
  have placed {type : Ty} {format : Format} (bare : type.peel false = ([], type))
      (codecs : ∀ depth, type.size ≤ depth + 1 → CodecFollows schema config depth type format) :
      ∀ depth, type.size ≤ depth → PlaceFollows schema config depth type format := by
    intro depth room
    obtain ⟨below, rfl⟩ := deep room
    exact placeFollows_bare type bare (codecs below room)
  induction assembles with
  | leaf plain supported =>
      have codecs (depth : Nat) (_ : (Ty.leaf plain).size ≤ depth + 1) :
          CodecFollows schema config depth (.leaf plain) (.leaf plain) :=
        codecFollows_leaf plain supported
      exact ⟨codecs, placed rfl codecs⟩
  | enumeration type names described =>
      have bare : type.peel false = ([], type) := by cases type <;> first | rfl | cases described
      have codecs (depth : Nat) (_ : type.size ≤ depth + 1) :
          CodecFollows schema config depth type (.enumeration type names) :=
        codecFollows_enumeration type names described
      exact ⟨codecs, placed bare codecs⟩
  | option inner format assembles inductionHypothesis =>
      have bare : inner.peel true = ([], inner) := by
        cases assembles with
        | enumeration _ names described => cases inner <;> first | rfl | cases described
        | _ => rfl
      -- one request is spent on the place, and then it is up to the codec of the type below
      have whole (depth : Nat) (room : inner.size ≤ depth + 1) :
          PlaceFollows schema config (depth + 1) (.option inner) (.optional format) :=
        placeFollows_option inner bare (inductionHypothesis.1 depth room)
      constructor
      · intro depth room
        have enough : inner.size ≤ depth := Nat.le_of_succ_le_succ room
        obtain ⟨below, rfl⟩ := deep enough
        exact codecFollows_nested inner (whole below enough)
      · intro depth room
        have enough : inner.size ≤ depth := Nat.le_of_succ_le room
        obtain ⟨below, rfl⟩ := deep enough
        exact whole below enough
  | map kind key part keyFormat partFormat keys parts hashable keysHypothesis partsHypothesis =>
      have codecs (depth : Nat) (room : (Ty.map kind key part).size ≤ depth + 1) :
          CodecFollows schema config depth (.map kind key part) (.map keyFormat partFormat) := by
        have both : key.size + part.size ≤ depth := Nat.le_of_succ_le_succ room
        exact codecFollows_map kind key part keyFormat partFormat keys hashable
          (keysHypothesis.2 depth (Nat.le_of_add_right_le both))
          (partsHypothesis.2 depth (Nat.le_of_add_left_le both))
      exact ⟨codecs, placed rfl codecs⟩

/-- At the root of a type there is depth for its layers. -/
theorem size_le_depth (schema : Schema) (type : Ty) (value : Option Value) :
    type.size ≤ schema.depth (root type value) := by
  have enough : schema.weight + type.size + 3
      ≤ (schema.entries.length + 1) * (schema.weight + type.size + 3) :=
    Nat.le_mul_of_pos_left _ (Nat.succ_pos _)
  have same : schema.depth (root type value) = schema.depth (root type none) := rfl
  rw [same, depth_root]
  omega

/-- The codecs of a serializer agree with the combinators of a buffer. For a type that is made of
    leaves, enumerations, options at any depth and maps, a serializer without rules of a user's
    encodes every value, in whatever order its maps list their entries, as what the combinators
    write to an empty buffer, or fails like they do. And whatever the limits and the bytes are, it
    decodes a value where they read the same one, maps as finite maps, and leaves the same bytes, or
    it fails with the same error at the same position. Its memory has no part in it. -/
theorem codecs_follow_combinators (schema : Schema) (config limits : Config) (type : Ty)
    (format : Format) (assembles : schema.Assembles type format) (memory : Memory)
    (reached : (build schema config).Reached memory) :
    (∀ value, value.Typed schema type → ∃ later,
      (build schema config).encode value memory
        = Step.lift (closed (fun _ buffer => buffer.finish)
            (format.write value (Buffer.writer config))) later) ∧
    ∀ bytes,
      (∃ value found state,
        (build schema config).decodeFrom type (Buffer.reader bytes limits) memory
          = .ok value state ∧
        format.read (Buffer.reader bytes limits) = .ok found state.buffer ∧
        value.Typed schema type ∧ format.Holds (format.hashed value) ∧
        format.Same (format.hashed value) found ∧ format.Settled found) ∨
      ∃ error state,
        (build schema config).decodeFrom type (Buffer.reader bytes limits) memory
          = .error error state ∧
        format.read (Buffer.reader bytes limits) = .error error state.buffer := by
  have places := (follows config assembles).2
  constructor
  · intro value typed
    obtain ⟨later, same⟩ := encode_of_reached schema config value memory reached
    refine ⟨later, ?_⟩
    obtain rfl := typed.type_eq
    have written : (build schema config).appending value = format.write value :=
      (places _ (size_le_depth schema value.type (some value)) [] (.root value.type)).1 value typed
    rw [same, encoded_root, congrFun written (build schema config).writer]
    rfl
  · intro bytes
    obtain ⟨later, same⟩ := decodeFrom_of_reached schema config type (Buffer.reader bytes limits)
      memory reached
    have read : Step.Parallel (Relists schema type format)
        ((build schema config).taking type (Buffer.reader bytes limits))
        (format.read (Buffer.reader bytes limits)) :=
      (places _ (size_le_depth schema type none) [] (.root type)).2 (Buffer.reader bytes limits)
    rw [same, takingFrom, Step.bind_apply]
    generalize (build schema config).taking type (Buffer.reader bytes limits) = outcome at read
    generalize format.read (Buffer.reader bytes limits) = counterpart at read
    cases read with
    | error error left => exact .inr ⟨error, ⟨left, [], later⟩, rfl, rfl⟩
    | ok value found left alike =>
        obtain ⟨typed, rfl⟩ := alike
        have expected : value.expect type = .ok value :=
          (Value.expect_eq_ok type value value).mpr ⟨typed.type_eq, rfl⟩
        have holds := assembles.holds_hashed value typed
        refine .inl ⟨value, format.relisted value, ⟨left, [], later⟩, ?_, rfl, typed, holds,
          format.same_listing _ holds, format.settled_listing _ holds⟩
        simp only [expected]
        rfl

/-- An ordered map from texts to suits that may be absent in two ways, and the format of it. -/
def holdings : Ty × Format :=
  (.map .ordered .string (.option (.option (.named "Suit"))),
    .map (.leaf .string)
      (.optional (.optional (.enumeration (.named "Suit") ["Hearts", "Spades"]))))

/-- Such a map is assembled to its format. Two entries in descending order are decoded and read as
    one map, and a flag that is none, below another flag, is refused by either. -/
theorem codecs_follow_combinators_holdings :
    let serializer := build cards {}
    let given := Buffer.reader
      [0, 0, 0, 2, 0, 0, 0, 1, 98, 1, 1, 0, 0, 0, 6, 83, 112, 97, 100, 101, 115, 0, 0, 0, 1, 97, 0]
    let flawed := Buffer.reader [0, 0, 0, 1, 0, 0, 0, 1, 98, 1, 2]
    cards.Assembles holdings.1 holdings.2 ∧ serializer.Reached serializer.start ∧
      (∃ value found state,
        serializer.decodeFrom holdings.1 given serializer.start = .ok value state ∧
        holdings.2.read given = .ok found state.buffer ∧
        holdings.2.Same (holdings.2.hashed value) found) ∧
      ∃ state, serializer.decodeFrom holdings.1 flawed serializer.start
          = .error .invalidBool state ∧
        holdings.2.read flawed = .error .invalidBool state.buffer := by
  intro serializer given flawed
  have assembles : cards.Assembles holdings.1 holdings.2 :=
    .map .ordered _ _ _ _ (.leaf .string (by decide))
      (.option _ _ (.option _ _ (.enumeration _ _ rfl))) rfl
  have agree := (codecs_follow_combinators cards {} {} _ _ assembles serializer.start .start).2
  refine ⟨assembles, .start, ?_, ?_⟩
  · obtain ⟨value, found, state, decoded, read, -, -, same, -⟩ | ⟨error, state, refused, -⟩ :=
      agree _
    · exact ⟨value, found, state, decoded, read, same⟩
    · have succeeds : Step.succeeded (serializer.decodeFrom holdings.1 given serializer.start)
          = true := by decide +kernel
      rw [show serializer.decodeFrom holdings.1 given serializer.start = _ from refused] at succeeds
      cases succeeds
  · obtain ⟨stopped, fails⟩ := Step.exists_of_failure? (show Step.failure?
      (serializer.decodeFrom holdings.1 flawed serializer.start) = some .invalidBool by
        decide +kernel)
    obtain ⟨_, _, _, decoded, -⟩ | ⟨error, state, refused, read⟩ :=
      agree [0, 0, 0, 1, 0, 0, 0, 1, 98, 1, 2]
    · cases fails.symm.trans decoded
    · cases fails.symm.trans refused
      exact ⟨stopped, fails, read⟩

end Serializer

end Wireform
