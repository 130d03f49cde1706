import Wireform.Serializer

/-!
# What all rules have in common

A codec comes from a custom format, from a resolver, or from the structure of an
aggregate or a nested option, and then goes through the transforms. A property of
codecs that each of these supplies or keeps is one of every codec that a serializer
works with. `Codec.Builtin` lists what has to be shown of a property once for the
built-in rules; `Serializer.makes_build` adds what user rules have to contribute.

Rules are static if they do not look at the value of a context, so that the choice
of a codec does not depend on it either.
-/

namespace Wireform

/-- The context without its value. -/
def Context.bare (context : Context) : Context := { context with value := none }

/-- The property holds of every codec that the built-in rules make, and a presence
    flag keeps it. -/
structure Codec.Builtin (schema : Schema) (holds : Codec → Prop) : Prop where
  leaf : ∀ leaf, holds (Codec.leaf leaf)
  octetVector : holds Codec.octetVector
  enumeration : ∀ type names, holds (Codec.enumeration type names)
  map : ∀ type key value, holds (Codec.map type key value)
  stream : ∀ type element collect, holds (Codec.stream type element collect)
  innerOption : ∀ type, holds (Codec.innerOption type)
  aggregate : ∀ type description, schema.kind type = .aggregate description →
    holds (Codec.aggregate type description)
  custom : ∀ type format, schema.kind type = .custom format → holds (Codec.custom type format)
  nullable : ∀ inner, holds inner → holds (Codec.nullable inner)

namespace Resolver

/-- The resolver claims and makes without looking at the value. -/
structure Static (resolver : Resolver) : Prop where
  claims : ∀ context, resolver.claims context = resolver.claims context.bare
  make : ∀ context, resolver.make context = resolver.make context.bare

/-- Every codec that the resolver makes has the property. -/
def Makes (holds : Codec → Prop) (resolver : Resolver) : Prop :=
  ∀ context codec, resolver.make context = .ok codec → holds codec

/-- Every codec that the resolver makes for a context that it claims has the property. -/
def Supplies (holds : Codec → Prop) (resolver : Resolver) : Prop :=
  ∀ context codec, resolver.claims context = true → resolver.make context = .ok codec → holds codec

/-- What a resolver makes for any context it makes for those that it claims. -/
theorem Makes.supplies {holds : Codec → Prop} {resolver : Resolver} (makes : resolver.Makes holds) :
    resolver.Supplies holds :=
  fun context codec _ made => makes context codec made

/-- A chain with one more resolver holds that resolver and those it held before. -/
theorem mem_insert (resolver other : Resolver) (chain : List Resolver) :
    other ∈ insert resolver chain ↔ other = resolver ∨ other ∈ chain := by
  induction chain with
  | nil => simp [insert]
  | cons head rest inductionHypothesis =>
      by_cases before : head.priority < resolver.priority
      · simp [insert, before]
      · simp only [insert, before, if_false, List.mem_cons, inductionHypothesis]
        exact or_left_comm

/-- A chain holds exactly the resolvers that were registered. -/
theorem mem_chain (resolver : Resolver) (registered : List Resolver) :
    resolver ∈ chain registered ↔ resolver ∈ registered := by
  have folded (remaining ordered : List Resolver) :
      resolver ∈ remaining.foldl (fun chain resolver => insert resolver chain) ordered
        ↔ resolver ∈ ordered ∨ resolver ∈ remaining := by
    induction remaining generalizing ordered with
    | nil => simp
    | cons head rest inductionHypothesis =>
        simp only [List.foldl_cons, inductionHypothesis, mem_insert, List.mem_cons]
        rw [or_comm (a := resolver = head), or_assoc]
  simpa [chain] using folded registered []

/-- The built-in resolvers decide without looking at the value. -/
theorem builtin_static (schema : Schema) (resolver : Resolver)
    (registered : resolver ∈ builtin schema) : resolver.Static := by
  simp only [builtin, List.mem_append, List.mem_map, List.mem_cons, List.not_mem_nil, or_false]
    at registered
  obtain (⟨leaf, _, rfl⟩ | ⟨leaf, _, rfl⟩) | rfl | rfl | rfl | rfl := registered
  all_goals exact ⟨fun _ => rfl, fun _ => rfl⟩

/-- The built-in resolvers make built-in codecs. -/
theorem builtin_makes {schema : Schema} {holds : Codec → Prop}
    (builtinHolds : Codec.Builtin schema holds) (resolver : Resolver)
    (registered : resolver ∈ builtin schema) : resolver.Makes holds := by
  intro context codec made
  simp only [builtin, List.mem_append, List.mem_map, List.mem_cons, List.not_mem_nil, or_false]
    at registered
  obtain (⟨leaf, _, rfl⟩ | ⟨leaf, _, rfl⟩) | rfl | rfl | rfl | rfl := registered
  · cases made; exact builtinHolds.leaf leaf
  · cases made; exact builtinHolds.leaf leaf
  · cases made; exact builtinHolds.octetVector
  · simp only [enumeration] at made
    split at made
    · cases made; exact builtinHolds.enumeration _ _
    · cases made
  · simp only [map] at made
    split at made
    · cases made; exact builtinHolds.map _ _ _
    · cases made
  · simp only [stream] at made
    split at made
    · split at made
      · cases made; exact builtinHolds.stream _ _ _
      · cases made
    · cases made

/-- Resolvers that do not tell two contexts apart come up with the same for both. -/
theorem resolve_congr (chain : List Resolver) (context other : Context)
    (claims : ∀ resolver ∈ chain, resolver.claims context = resolver.claims other)
    (make : ∀ resolver ∈ chain, resolver.make context = resolver.make other) :
    resolve chain context = resolve chain other := by
  have same : chain.find? (fun resolver => resolver.claims context)
      = chain.find? (fun resolver => resolver.claims other) := by
    induction chain with
    | nil => rfl
    | cons head rest inductionHypothesis =>
        have others := inductionHypothesis
          (fun resolver later => claims resolver (List.mem_cons_of_mem _ later))
          (fun resolver later => make resolver (List.mem_cons_of_mem _ later))
        simp only [List.find?_cons, claims head List.mem_cons_self, others]
  unfold resolve
  rw [same]
  split
  · next resolver found => rw [make resolver (List.mem_of_find?_eq_some found)]
  · rfl

/-- Static resolvers decide without looking at the value. -/
theorem resolve_bare (chain : List Resolver) (static : ∀ resolver ∈ chain, resolver.Static)
    (context : Context) : resolve chain context = resolve chain context.bare :=
  resolve_congr chain context context.bare
    (fun resolver registered => (static resolver registered).claims context)
    (fun resolver registered => (static resolver registered).make context)

/-- What a chain of resolvers comes up with for a context has what all that claim the context
    supply. -/
theorem resolve_makes {holds : Codec → Prop} (chain : List Resolver) (context : Context)
    (supplies : ∀ resolver ∈ chain, resolver.claims context = true → ∀ codec,
      resolver.make context = .ok codec → holds codec)
    (codec : Codec) (resolved : resolve chain context = .ok (some codec)) : holds codec := by
  unfold resolve at resolved
  split at resolved
  · next resolver found =>
      cases made : resolver.make context with
      | error error => rw [made] at resolved; cases resolved
      | ok first =>
          rw [made] at resolved
          cases resolved
          have claimed : resolver.claims context = true := by
            simpa using List.find?_some found
          exact supplies resolver (List.mem_of_find?_eq_some found) claimed _ made
  · cases resolved

end Resolver

namespace Transform

/-- The transform applies without looking at the value. -/
def Static (transform : Transform) : Prop :=
  ∀ context, transform.applies context = transform.applies context.bare

/-- The transform keeps a property of the codecs that it wraps. -/
def Keeps (holds : Codec → Prop) (transform : Transform) : Prop :=
  ∀ codec, holds codec → holds (transform.wrap codec)

/-- Transforms that do not tell two contexts apart come to the same for both. -/
theorem applyAll_congr (transforms : List Transform) (context other : Context)
    (applies : ∀ transform ∈ transforms, transform.applies context = transform.applies other)
    (codec : Codec) : applyAll transforms context codec = applyAll transforms other codec := by
  induction transforms generalizing codec with
  | nil => rfl
  | cons transform rest inductionHypothesis =>
      have others := inductionHypothesis fun other later =>
        applies other (List.mem_cons_of_mem _ later)
      simp only [applyAll, List.foldl_cons, applies transform List.mem_cons_self]
      exact others _

/-- Static transforms apply without looking at the value. -/
theorem applyAll_bare (transforms : List Transform)
    (static : ∀ transform ∈ transforms, transform.Static) (context : Context) (codec : Codec) :
    applyAll transforms context codec = applyAll transforms context.bare codec :=
  applyAll_congr transforms context context.bare
    (fun transform registered => static transform registered context) codec

/-- What all transforms that apply keep is kept by all of them together. -/
theorem applyAll_keeps {holds : Codec → Prop} (transforms : List Transform) (context : Context)
    (keeps : ∀ transform ∈ transforms, transform.applies context = true → transform.Keeps holds)
    (codec : Codec) (kept : holds codec) : holds (applyAll transforms context codec) := by
  induction transforms generalizing codec with
  | nil => exact kept
  | cons transform rest inductionHypothesis =>
      apply inductionHypothesis fun other later => keeps other (List.mem_cons_of_mem _ later)
      by_cases applies : transform.applies context = true
      · simpa [applies] using keeps transform List.mem_cons_self applies codec kept
      · simpa [applies] using kept

end Transform

namespace Serializer

variable {serializer : Serializer} {holds : Codec → Prop}

/-- No rule of the serializer looks at values. -/
structure Static (serializer : Serializer) : Prop where
  resolvers : ∀ resolver ∈ serializer.resolvers, resolver.Static
  transforms : ∀ transform ∈ serializer.transforms, transform.Static

/-- Every codec that the serializer works with has the property. -/
structure Makes (holds : Codec → Prop) (serializer : Serializer) : Prop where
  fresh : ∀ context codec, serializer.freshCodec context = .ok codec → holds codec
  resolved : ∀ context codec, serializer.resolve context = .ok (some codec) → holds codec

section

variable (schema : Schema) (config : Config) (resolvers : List Resolver)
  (transforms : List Transform) (nesting : Context → Nat)

/-- What holds of the built-in resolvers and of those that are added holds of all. -/
theorem forall_resolvers_build {property : Resolver → Prop}
    (builtin : ∀ resolver ∈ Resolver.builtin schema, property resolver)
    (added : ∀ resolver ∈ resolvers, property resolver) :
    ∀ resolver ∈ (build schema config resolvers transforms nesting).resolvers,
      property resolver := by
  intro resolver registered
  obtain first | later := List.mem_append.mp ((Resolver.mem_chain resolver _).mp registered)
  · exact builtin resolver first
  · exact added resolver later

/-- What holds of the presence flag and of the transforms that are added holds of all. -/
theorem forall_transforms_build {property : Transform → Prop}
    (nullable : property Transform.nullable)
    (added : ∀ transform ∈ transforms, property transform) :
    ∀ transform ∈ (build schema config resolvers transforms nesting).transforms,
      property transform :=
  List.forall_mem_cons.mpr ⟨nullable, added⟩

/-- A serializer is as static as the rules that it is built with. -/
theorem static_build (resolversStatic : ∀ resolver ∈ resolvers, resolver.Static)
    (transformsStatic : ∀ transform ∈ transforms, transform.Static) :
    (build schema config resolvers transforms nesting).Static where
  resolvers := forall_resolvers_build schema config resolvers transforms nesting
    (Resolver.builtin_static schema) resolversStatic
  transforms := forall_transforms_build schema config resolvers transforms nesting
    (fun _ => rfl) transformsStatic

end

/-- Serializers of one schema whose resolvers come up with the same for contexts of one unwrapped
    type come to the same codec before transforms. -/
theorem baseCodec_congr (serializer other : Serializer) (context elsewhere : Context)
    (described : other.schema = serializer.schema)
    (unwrapped : elsewhere.unwrapped = context.unwrapped)
    (resolved : Resolver.resolve other.resolvers elsewhere
      = Resolver.resolve serializer.resolvers context) :
    other.baseCodec elsewhere = serializer.baseCodec context := by
  unfold baseCodec
  rw [described, unwrapped, resolved]

/-- The value of a context has no part in the choice of its codec. -/
theorem freshCodec_bare (static : serializer.Static) (context : Context) :
    serializer.freshCodec context = serializer.freshCodec context.bare := by
  have based : serializer.baseCodec context = serializer.baseCodec context.bare :=
    baseCodec_congr serializer serializer context.bare context rfl rfl
      (Resolver.resolve_bare serializer.resolvers static.resolvers context)
  have wrapped := funext (Transform.applyAll_bare serializer.transforms static.transforms context)
  unfold freshCodec
  rw [based, wrapped]

section

variable (context : Context)
  (supplies : ∀ resolver ∈ serializer.resolvers, resolver.claims context = true → ∀ codec,
    resolver.make context = .ok codec → holds codec)
  (keeps : ∀ transform ∈ serializer.transforms, transform.applies context = true →
    transform.Keeps holds)

include supplies keeps

/-- The codec that the rules find for a context has what those that claim the context supply and
    those that apply to it keep. -/
theorem resolve_holds (codec : Codec) (resolved : serializer.resolve context = .ok (some codec)) :
    holds codec := by
  unfold resolve at resolved
  cases found : Resolver.resolve serializer.resolvers context with
  | error error => rw [found] at resolved; cases resolved
  | ok answer =>
      rw [found] at resolved
      cases answer with
      | none => cases resolved
      | some base =>
          cases resolved
          exact Transform.applyAll_keeps _ context keeps base
            (Resolver.resolve_makes _ context supplies base found)

/-- The codec of a context has it as well, if custom formats, aggregates and nested options have
    it by themselves. -/
theorem freshCodec_holds
    (custom : ∀ format, serializer.schema.kind context.unwrapped = .custom format →
      holds (Codec.custom context.unwrapped format))
    (aggregate : ∀ description, serializer.schema.kind context.unwrapped = .aggregate description →
      holds (Codec.aggregate context.unwrapped description))
    (innerOption : holds (Codec.innerOption context.unwrapped)) (codec : Codec)
    (made : serializer.freshCodec context = .ok codec) : holds codec := by
  have based : ∀ base, serializer.baseCodec context = .ok base → holds base := by
    intro base made
    unfold baseCodec at made
    dsimp only at made
    split at made
    · next format described =>
        cases made
        exact custom format described
    · cases resolved : Resolver.resolve serializer.resolvers context with
      | error error => rw [resolved] at made; cases made
      | ok found =>
          simp only [resolved, bind, Except.bind] at made
          cases found with
          | some codec =>
              cases made
              exact Resolver.resolve_makes _ context supplies base resolved
          | none =>
              dsimp only at made
              split at made
              · next described => cases made; exact aggregate _ described
              · cases made; exact innerOption
              · cases made
  unfold freshCodec at made
  cases outcome : serializer.baseCodec context with
  | error error => rw [outcome] at made; cases made
  | ok base =>
      rw [outcome] at made
      cases made
      exact Transform.applyAll_keeps _ context keeps base (based base outcome)

end

/-- Every codec has what built-in and user rules agree to supply and to keep. -/
theorem makes_of_supplies {schema : Schema} (builtinHolds : Codec.Builtin schema holds)
    (config : Config) (resolvers : List Resolver) (transforms : List Transform)
    (nesting : Context → Nat)
    (resolversSupply : ∀ resolver ∈ resolvers, resolver.Supplies holds)
    (transformsKeep : ∀ transform ∈ transforms, transform.Keeps holds) :
    (build schema config resolvers transforms nesting).Makes holds := by
  have supply := forall_resolvers_build schema config resolvers transforms nesting
    (fun resolver registered =>
      (Resolver.builtin_makes builtinHolds resolver registered).supplies) resolversSupply
  have keep : ∀ transform ∈ (build schema config resolvers transforms nesting).transforms,
      transform.Keeps holds :=
    forall_transforms_build schema config resolvers transforms nesting builtinHolds.nullable
      transformsKeep
  have supplied (context : Context) (resolver : Resolver) (registered) (claimed) (codec) (made) :=
    supply resolver registered context codec claimed made
  exact
    { fresh := fun context => freshCodec_holds context (supplied context)
        (fun transform registered _ => keep transform registered)
        (fun format described => builtinHolds.custom _ format described)
        (fun description described => builtinHolds.aggregate _ description described)
        (builtinHolds.innerOption _)
      resolved := fun context => resolve_holds context (supplied context)
        (fun transform registered _ => keep transform registered) }

/-- As `makes_of_supplies`, for resolvers that make nothing else for any context. -/
theorem makes_build {schema : Schema} (builtinHolds : Codec.Builtin schema holds)
    (config : Config) (resolvers : List Resolver) (transforms : List Transform)
    (nesting : Context → Nat) (resolversMake : ∀ resolver ∈ resolvers, resolver.Makes holds)
    (transformsKeep : ∀ transform ∈ transforms, transform.Keeps holds) :
    (build schema config resolvers transforms nesting).Makes holds :=
  makes_of_supplies builtinHolds config resolvers transforms nesting
    (fun resolver registered => (resolversMake resolver registered).supplies) transformsKeep

/-- A weaker property holds of every codec that a stronger one holds of. -/
theorem makes_mono {weaker : Codec → Prop} (implies : ∀ codec, holds codec → weaker codec)
    (makes : serializer.Makes holds) : serializer.Makes weaker where
  fresh context codec made := implies codec (makes.fresh context codec made)
  resolved context codec resolved := implies codec (makes.resolved context codec resolved)

end Serializer

end Wireform
