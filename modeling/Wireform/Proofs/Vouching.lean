import Wireform.Proofs.Answer
import Wireform.Proofs.Site

/-!
# Codecs that can be trusted with a type

A codec is asked for values of a type, but nothing makes it keep to that: what it decodes is
taken as it is, unless a layer of a box or an option is put around it or a caller insists on a
type. A codec vouches for a type if it decodes to values of that type wherever its own requests
are answered with values of the types that were asked for. It is trusted with the type if, besides,
it asks for placed contexts only.

The built-in codecs are trusted, provided that constructors, initial values and custom formats come
up with values of the types that they belong to. A serializer works with trusted codecs throughout
if the rules that were added to it make and keep such codecs.
-/

namespace Wireform

variable {α β : Type}

/-! ## Faithful answers -/

/-- The answer is of the type that was asked for. An absent value stands for any type. -/
def Request.Faithful : (request : Request) → request.Answer → Prop
  | .look, _ => True
  | .replace _, _ => True
  | .path, _ => True
  | .encode _, _ => True
  | .decode context, value => value.type = context.declared
  | .encodeFields _ _ _, _ => True
  | .decodeFields type _, value => value.type = type
  | .encodeResolved _ _, _ => True
  | .decodeResolved context, found =>
      ∀ value, found = some (some value) → value.type = context.unwrapped

/-- Whenever the operation succeeds, its result is good. -/
def Buffer.Ends (operation : Buffer.Op α) (good : α → Prop) : Prop :=
  ∀ before result after, operation before = .ok result after → good result

/-- A succession ends in what its second half ends in. -/
theorem Buffer.ends_bind {operation : Buffer.Op α} {next : α → Buffer.Op β} {good : β → Prop}
    (ends : ∀ result, Buffer.Ends (next result) good) :
    Buffer.Ends (operation >>= next) good := by
  intro before result after ended
  rw [Step.bind_apply] at ended
  cases first : operation before with
  | error error between => rw [first] at ended; cases ended
  | ok found between =>
      rw [first] at ended
      exact ends found between result after ended

/-- A result is good if it is. -/
theorem Buffer.ends_pure {good : α → Prop} (result : α) (holds : good result) :
    Buffer.Ends (pure result) good := by
  rintro before found after ⟨⟩
  exact holds

/-- A failure has no result. -/
theorem Buffer.ends_fail {good : α → Prop} (error : Error) :
    Buffer.Ends (Buffer.fail error) good := by
  rintro before found after ⟨⟩

/-- Whenever the program succeeds and all that it asked for was answered faithfully, its result
    is good. -/
def Program.Vouches (good : α → Prop) : Program α → Prop
  | .done result => good result
  | .fail _ => True
  | .ask request next =>
      (∀ answer, request.Faithful answer → (next (.ok answer)).Vouches good) ∧
        ∀ error, (next (.error error)).Vouches good

namespace Program

variable {good : α → Prop} {better : β → Prop}

/-- Nothing is asked of a result that need not be good. -/
theorem vouches_anything (program : Program α) : program.Vouches fun _ => True := by
  induction program with
  | done result => trivial
  | fail error => trivial
  | ask request next inductionHypothesis =>
      exact ⟨fun answer _ => inductionHypothesis (.ok answer),
        fun error => inductionHypothesis (.error error)⟩

/-- What follows a good result may take it for good. -/
theorem vouches_bind {program : Program α} {next : α → Program β} (first : program.Vouches good)
    (second : ∀ result, good result → (next result).Vouches better) :
    (program >>= next).Vouches better := by
  change (program.bind next).Vouches better
  induction program with
  | done result => exact second result first
  | fail error => trivial
  | ask request answered inductionHypothesis =>
      exact ⟨fun answer faithful => inductionHypothesis (.ok answer) (first.1 answer faithful),
        fun error => inductionHypothesis (.error error) (first.2 error)⟩

/-- A known outcome is good if its result is. -/
theorem vouches_lift {outcome : Except Error α}
    (known : ∀ result, outcome = .ok result → good result) : (lift outcome).Vouches good := by
  cases outcome with
  | ok result => exact known result rfl
  | error error => trivial

/-- A single request ends in its answer. -/
theorem vouches_perform (request : Request) {good : request.Answer → Prop}
    (faithful : ∀ answer, request.Faithful answer → good answer) : (perform request).Vouches good :=
  ⟨faithful, fun _ => trivial⟩

/-- A changed result is good if it was good for being changed. -/
theorem vouches_map (change : α → β) {program : Program α} (vouches : program.Vouches good)
    (changed : ∀ result, good result → better (change result)) :
    (change <$> program).Vouches better := by
  rw [map_eq_pure_bind]
  exact vouches_bind vouches changed

/-- A buffer operation ends in what it ends in on any buffer. -/
theorem vouches_buffer {operation : Buffer.Op α} (ends : Buffer.Ends operation good) :
    (buffer operation).Vouches good := by
  apply vouches_bind (vouches_anything (perform .look))
  intro before _
  cases ended : operation before with
  | ok result after =>
      exact vouches_bind (vouches_anything _) fun _ _ => ends before result after ended
  | error error after => exact vouches_bind (vouches_anything _) fun _ _ => trivial

end Program

/-! ## Codecs -/

/-- What the codec decodes is of the type, as long as its requests are answered faithfully. -/
def Codec.Vouches (type : Ty) (codec : Codec) : Prop :=
  codec.decode.Vouches fun found => ∀ value, found = some value → value.type = type

/-- A codec that asks for placed contexts only and vouches for the type. -/
structure Codec.Trusted (schema : Schema) (type : Ty) (codec : Codec) : Prop where
  placed : codec.Placed schema
  vouches : codec.Vouches type

/-- Constructors, the initial value and a custom format come up with values of the described
    type. -/
structure Entry.Upright (entry : Entry) : Prop where
  builds : ∀ description, entry.definition = .aggregate description →
    ∀ constructor ∈ description.constructors, ∀ arguments value,
      constructor.build arguments = .ok value → value.type = entry.type
  starts : ∀ description, entry.definition = .aggregate description →
    ∀ initial, description.initial = some initial → initial.type = entry.type
  reads : ∀ format, entry.definition = .custom format →
    Buffer.Ends format.read fun value => value.type = entry.type

/-- All descriptions come up with values of the types that they describe. -/
def Schema.Upright (schema : Schema) : Prop := ∀ entry ∈ schema.entries, entry.Upright

namespace Schema.Upright

variable {schema : Schema} (upright : schema.Upright)

include upright

/-- The entry that is found for a type is upright. -/
theorem find {type : Ty} {entry : Entry} (found : schema.find? type = some entry) :
    entry.type = type ∧ entry.Upright :=
  ⟨schema.type_of_find? found, upright entry (List.mem_of_find?_eq_some found)⟩

/-- A constructor of a type builds values of the type. -/
theorem builds (type : Ty) (description : Aggregate)
    (described : schema.kind type = .aggregate description) (constructor : Constructor)
    (among : constructor ∈ description.constructors) (arguments : List Value) (value : Value)
    (built : constructor.build arguments = .ok value) : value.type = type := by
  obtain ⟨entry, found, defined⟩ :=
    schema.entry_of_kind type (.aggregate description) (by rw [described]; rfl)
  obtain ⟨rfl, own⟩ := upright.find found
  exact own.builds description defined constructor among arguments value built

/-- The initial value of a type is of the type. -/
theorem starts (type : Ty) (description : Aggregate)
    (described : schema.kind type = .aggregate description) (initial : Value)
    (given : description.initial = some initial) : initial.type = type := by
  obtain ⟨entry, found, defined⟩ :=
    schema.entry_of_kind type (.aggregate description) (by rw [described]; rfl)
  obtain ⟨rfl, own⟩ := upright.find found
  exact own.starts description defined initial given

/-- The custom format of a type reads values of the type. -/
theorem reads (type : Ty) (format : Custom) (described : schema.kind type = .custom format) :
    Buffer.Ends format.read fun value => value.type = type := by
  obtain ⟨entry, found, defined⟩ :=
    schema.entry_of_kind type (.custom format) (by rw [described]; rfl)
  obtain ⟨rfl, own⟩ := upright.find found
  exact own.reads format defined

end Schema.Upright

/-- A scalar that is read is of the type that was asked for, on any buffer. -/
theorem Leaf.ends_read (plain : Leaf) :
    Buffer.Ends plain.read fun scalar => scalar.leaf = plain := by
  cases plain
  all_goals exact Buffer.ends_bind fun _ => Buffer.ends_pure _ rfl

/-- A member that is read is of the enumeration, on any buffer. -/
theorem Enumeration.ends_read (type : Ty) (names : List String) :
    Buffer.Ends (Enumeration.read type names) fun value => value.type = type := by
  apply Buffer.ends_bind
  intro name
  unfold fromName
  cases names.idxOf? name with
  | none => exact Buffer.ends_fail _
  | some index => exact Buffer.ends_pure _ rfl

namespace Schema

/-- What elements are collected to is of the type that was asked for. -/
theorem type_of_collect (schema : Schema) (type : Ty) (items : List Value) (value : Value)
    (collected : schema.collect type items = .ok value) : value.type = type := by
  unfold collect at collected
  split at collected
  · cases expected : items.mapM (Value.expect _) with
    | error error => rw [expected] at collected; cases collected
    | ok elements =>
        rw [expected] at collected
        simp only [bind, Except.bind] at collected
        split at collected
        · cases collected
        · cases collected
          rfl
  · split at collected
    · cases expected : items.mapM (Value.expect _) with
      | error error => rw [expected] at collected; cases collected
      | ok elements =>
          rw [expected] at collected
          cases collected
          rfl
    · cases collected

/-- What entries are collected to is of the type that was asked for. -/
theorem type_of_collectEntries (type : Ty) (entries : List (Value × Value)) (value : Value)
    (collected : collectEntries type entries = .ok value) : value.type = type := by
  unfold collectEntries at collected
  split at collected
  · simp only [bind, Except.bind] at collected
    split at collected
    · cases collected
    · cases collected
      rfl
  · cases collected

end Schema

namespace Codec

variable (schema : Schema)

/-- A present result is of the type if the result is. -/
theorem vouches_some {type : Ty} {program : Program Value}
    (vouches : program.Vouches fun value => value.type = type) :
    (some <$> program).Vouches fun found => ∀ value, found = some value → value.type = type :=
  Program.vouches_map some vouches fun result own value same => by
    cases same
    exact own

/-- A codec of one type is trusted with it if what it reads is of the type. -/
theorem typed_trusted (type : Ty) (write : Value → Buffer.Op Unit) (read : Buffer.Op Value)
    (ends : Buffer.Ends read fun value => value.type = type) :
    (typed type write read).Trusted schema type where
  placed := typed_placed schema type write read
  vouches := vouches_some (Program.vouches_buffer ends)

theorem leaf_trusted (plain : Leaf) : (leaf plain).Trusted schema (.leaf plain) := by
  refine typed_trusted schema _ _ _ ?_
  intro before value after ended
  unfold Leaf.readValue at ended
  rw [Step.bind_apply] at ended
  cases read : plain.read before with
  | error error between => rw [read] at ended; cases ended
  | ok scalar between =>
      rw [read] at ended
      cases ended
      exact congrArg Ty.leaf (plain.ends_read before scalar _ read)

theorem octetVector_trusted : octetVector.Trusted schema (.vector .u8) :=
  typed_trusted schema _ _ _ (Buffer.ends_bind fun _ => Buffer.ends_pure _ rfl)

theorem enumeration_trusted (type : Ty) (names : List String) :
    (enumeration type names).Trusted schema type where
  placed := (builtin_placed schema).enumeration type names
  vouches := vouches_some (Program.vouches_buffer (Enumeration.ends_read type names))

theorem stream_trusted (type element : Ty) :
    (stream type element (schema.collect type)).Trusted schema type where
  placed := (builtin_placed schema).stream type element _
  vouches :=
    Program.vouches_bind (Program.vouches_anything _) fun _ _ =>
      Program.vouches_bind (Program.vouches_anything _) fun items _ =>
        vouches_some (Program.vouches_lift fun value collected =>
          schema.type_of_collect type items value collected)

theorem map_trusted (type key part : Ty) : (map type key part).Trusted schema type where
  placed := (builtin_placed schema).map type key part
  vouches :=
    Program.vouches_bind (Program.vouches_anything _) fun _ _ =>
      Program.vouches_bind (Program.vouches_anything _) fun entries _ =>
        vouches_some (Program.vouches_lift fun value collected =>
          Schema.type_of_collectEntries type entries value collected)

theorem innerOption_trusted (type : Ty) : (innerOption type).Trusted schema type where
  placed := (builtin_placed schema).innerOption type
  vouches := vouches_some (Program.vouches_perform _ fun _ faithful => faithful)

theorem aggregate_trusted (type : Ty) (description : Aggregate)
    (described : schema.kind type = .aggregate description) :
    (aggregate type description).Trusted schema type where
  placed := (builtin_placed schema).aggregate type description described
  vouches := vouches_some (Program.vouches_perform _ fun _ faithful => faithful)

theorem custom_trusted (type : Ty) (format : Custom)
    (described : schema.kind type = .custom format)
    (ends : Buffer.Ends format.read fun value => value.type = type) :
    (custom type format).Trusted schema type where
  placed := (builtin_placed schema).custom type format described
  vouches := vouches_some (Program.vouches_buffer ends)

/-- A presence flag keeps a codec trusted, for an absent value is of any type. -/
theorem nullable_trusted (type : Ty) (inner : Codec) (trusted : inner.Trusted schema type) :
    (nullable inner).Trusted schema type where
  placed := (builtin_placed schema).nullable inner trusted.placed
  vouches := by
    refine Program.vouches_bind (Program.vouches_anything _) fun present _ => ?_
    cases present with
    | true => exact trusted.vouches
    | false =>
        rintro value ⟨⟩

end Codec

/-! ## Rules -/

/-- For every context that it claims the resolver makes codecs trusted with its type. -/
def Resolver.Trusted (schema : Schema) (resolver : Resolver) : Prop :=
  ∀ context, resolver.claims context = true → ∀ codec, resolver.make context = .ok codec →
    codec.Trusted schema context.unwrapped

/-- In every context that it applies to the transform keeps codecs trusted with its type. -/
def Transform.Trusted (schema : Schema) (transform : Transform) : Prop :=
  ∀ context, transform.applies context = true →
    transform.Keeps (Codec.Trusted schema context.unwrapped)

/-- The built-in resolvers are trusted. -/
theorem Resolver.builtin_trusted (schema : Schema) (resolver : Resolver)
    (registered : resolver ∈ builtin schema) : resolver.Trusted schema := by
  intro context claimed codec made
  simp only [builtin, List.mem_append, List.mem_map, List.mem_cons, List.not_mem_nil, or_false]
    at registered
  have exactly {type : Ty} {own : Codec} (trusted : own.Trusted schema type)
      (claimed : decide (context.unwrapped = type) = true)
      (made : (.ok own : Except Error Codec) = .ok codec) :
      codec.Trusted schema context.unwrapped := by
    cases made
    exact (of_decide_eq_true claimed).symm ▸ trusted
  obtain (⟨plain, _, rfl⟩ | ⟨plain, _, rfl⟩) | rfl | rfl | rfl | rfl := registered
  · exact exactly (Codec.leaf_trusted schema plain) claimed made
  · exact exactly (Codec.leaf_trusted schema plain) claimed made
  · exact exactly (Codec.octetVector_trusted schema) claimed made
  · simp only [enumeration] at made
    split at made
    · cases made; exact Codec.enumeration_trusted schema _ _
    · cases made
  · simp only [map] at made
    split at made
    · cases made; exact Codec.map_trusted schema _ _ _
    · cases made
  · simp only [stream] at made
    split at made
    · split at made
      · cases made; exact Codec.stream_trusted schema _ _
      · cases made
    · cases made

namespace Serializer

/-- Every codec that the serializer works with is trusted with the type that it is for. -/
structure Trusts (serializer : Serializer) : Prop where
  fresh : ∀ context codec, serializer.freshCodec context = .ok codec →
    codec.Trusted serializer.schema context.unwrapped
  resolved : ∀ context codec, serializer.resolve context = .ok (some codec) →
    codec.Trusted serializer.schema context.unwrapped

/-- Trusted rules make trusted codecs. -/
theorem trusts_build (schema : Schema) (upright : schema.Upright) (config : Config)
    (resolvers : List Resolver) (transforms : List Transform) (nesting : Context → Nat)
    (supply : ∀ resolver ∈ resolvers, resolver.Trusted schema)
    (keep : ∀ transform ∈ transforms, transform.Trusted schema) :
    (build schema config resolvers transforms nesting).Trusts := by
  have supplies := forall_resolvers_build schema config resolvers transforms nesting
    (Resolver.builtin_trusted schema) supply
  have nullable : Transform.nullable.Trusted schema := fun context _ =>
    Codec.nullable_trusted schema context.unwrapped
  have keeps := forall_transforms_build schema config resolvers transforms nesting nullable keep
  have supplied (context : Context) (resolver : Resolver) (registered) :=
    supplies resolver registered context
  have kept (context : Context) (transform : Transform) (registered) :=
    keeps transform registered context
  exact
    { fresh := fun context => freshCodec_holds context (supplied context) (kept context)
        (fun format described =>
          Codec.custom_trusted schema _ format described (upright.reads _ format described))
        (fun description described =>
          Codec.aggregate_trusted schema _ description described)
        (Codec.innerOption_trusted schema _)
      resolved := fun context => resolve_holds context (supplied context) (kept context) }

end Serializer

end Wireform
