import Wireform.Packet.Dispatcher
import Wireform.Proofs.Extension
import Wireform.Proofs.Faithful
import Wireform.Proofs.Registrations

/-!
# What a frame claims and what it holds

A frame that is read claims the type that is registered for its identifier, and holds what the codec
for that type has decoded. Whether the two agree is up to the codec: nothing is checked on reading,
only when the packet is taken out of the frame, and a handler that is given a packet of another type
does nothing, though it is counted.

Where the rules of a serializer are trusted, every frame holds a packet of the type that it claims.
Taking it out succeeds then, and dispatching it runs as many handlers as it reports. The ready-made
wrappers are all trusted, and so is a recipe wherever it is only claimed for its own type. A rule
that is not to be trusted is accepted all the same; the module ends with a frame that comes of one.
-/

namespace Wireform

/-! ## Trusted descriptions and rules -/

/-- What a changed computation yields on arguments is what the computation yields, changed. -/
theorem Arguments.exists_of_apply_map {α β : Type} (change : α → β) (computation : Arguments α)
    (arguments : List Value) (result : β)
    (applied : (change <$> computation).apply arguments = .ok result) :
    ∃ found, result = change found := by
  have run : (change <$> computation).run arguments
      = (fun ended => (change ended.1, ended.2)) <$> computation.run arguments :=
    StateT.run_map change computation arguments
  unfold apply at applied
  rw [run] at applied
  cases ended : computation.run arguments with
  | error error => rw [ended] at applied; cases applied
  | ok pair => rw [ended] at applied; cases applied; exact ⟨_, rfl⟩

/-- Whatever an aggregate with declared members is built from, it is of its type. -/
theorem Catalogue.declared_upright (type : Ty) (members : List Member)
    (initial : Option (List Value)) (mirrors : Bool) (style : Style) :
    (declared type members initial mirrors style).Upright where
  builds := by
    rintro description ⟨⟩ constructor among arguments value built
    cases mirrors with
    | false => cases among
    | true =>
        cases List.mem_singleton.mp among
        obtain ⟨parts, rfl⟩ :=
          Arguments.exists_of_apply_map (Value.record type) _ arguments value built
        rfl
  starts := by
    rintro description ⟨⟩ start given
    obtain ⟨parts, _, rfl⟩ := Option.map_eq_some_iff.mp given
    rfl
  reads := by
    rintro format ⟨⟩

namespace Wrapping

variable {schema : Schema}

/-- Every ready-made wrapper keeps codecs trusted: it changes nothing about a value that is decoded
    except that it may report an absent one. -/
theorem keeps_trusted (wrapping : Wrapping) (type : Ty) (inner : Codec)
    (trusted : inner.Trusted schema type) : (wrapping.wrap inner).Trusted schema type where
  placed := wrapping.keeps_placed inner trusted.placed
  vouches := by
    have decodes := trusted.vouches
    cases wrapping with
    | nullable => exact (Codec.nullable_trusted schema type inner trusted).vouches
    | trailing octet =>
        exact Program.vouches_bind decodes fun found own =>
          Program.vouches_bind (Program.vouches_anything _) fun _ _ => own
    | leading octet =>
        exact Program.vouches_bind (Program.vouches_anything _) fun _ _ => decodes
    | twice =>
        exact Program.vouches_bind decodes fun found own =>
          Program.vouches_bind (Program.vouches_anything _) fun _ _ => own
    | dropping => exact decodes
    | forgetting =>
        exact Program.vouches_bind (Program.vouches_anything _) fun _ _ value impossible => by
          cases impossible
    | depth =>
        exact Program.vouches_bind (Program.vouches_anything _) fun _ _ =>
          Program.vouches_bind (Program.vouches_anything _) fun _ _ => decodes

/-- A transform that wraps is trusted, wherever it applies. -/
theorem transform_trusted (wrapping : Wrapping) (condition : Condition) :
    (wrapping.transform schema condition).Trusted schema :=
  fun context _ => wrapping.keeps_trusted context.unwrapped

end Wrapping

/-- A number that is stored as another one is trusted. -/
theorem Recipe.numeric_trusted (schema : Schema) (write : Int32 → Buffer.Op Unit)
    (read : Buffer.Op Int32) : (numeric write read).Trusted schema .i32 :=
  Codec.typed_trusted schema _ _ _ (Buffer.ends_bind fun _ => Buffer.ends_pure _ rfl)

/-- A recipe is trusted if it is only claimed for the type that its codec is trusted with. -/
theorem Recipe.resolver_trusted {schema : Schema} (priority : Int) (condition : Condition)
    (recipe : Recipe) (type : Ty)
    (claims : ∀ context, condition.holds schema context = true → context.unwrapped = type)
    (makes : ∀ context codec, recipe.make context = .ok codec → codec.Trusted schema type) :
    (recipe.resolver schema priority condition).Trusted schema := by
  intro context claimed codec made
  rw [claims context claimed]
  exact makes context codec made

namespace Packet

variable {σ : Type}

/-! ## Dispatchers -/

/-- What can be done to a dispatcher. -/
inductive Change (σ : Type)
  | on (type : Ty) (handler : Handler σ)
  | clear

/-- The handlers of a type that are there after a change. -/
def Change.kept (type : Ty) (handlers : List (Handler σ)) : Change σ → List (Handler σ)
  | .on other handler => if other = type then handlers ++ [handler] else handlers
  | .clear => []

/-- The handler as a dispatcher keeps it: it does nothing to a packet of another type. -/
def Handler.guarded (type : Ty) (handler : Handler σ) : Handler σ :=
  fun packet context => if packet.type = type then handler packet context else context

namespace Dispatcher

/-- The dispatcher after a change. -/
def changed (dispatcher : Dispatcher σ) : Change σ → Dispatcher σ
  | .on type handler => dispatcher.on type handler
  | .clear => dispatcher.clear

/-- A new dispatcher after a number of changes. -/
def after (changes : List (Change σ)) : Dispatcher σ := changes.foldl changed {}

/-- The handlers that were added for a type since the last clearing, in order. -/
def added (type : Ty) (changes : List (Change σ)) : List (Handler σ) :=
  changes.foldl (Change.kept type) []

/-- A handler is found behind the others of its type, and those of other types are as before. -/
theorem find?_on (dispatcher : Dispatcher σ) (type other : Ty) (handler : Handler σ) :
    ((dispatcher.on other handler).find? type).getD []
      = if other = type then (dispatcher.find? type).getD [] ++ [handler.guarded type]
        else (dispatcher.find? type).getD [] := by
  obtain ⟨entries⟩ := dispatcher
  simp only [find?, on]
  induction entries with
  | nil =>
      by_cases same : other = type
      · subst same
        simp only [extend, List.find?_cons, decide_true, if_true]
        rfl
      · simp [extend, same]
  | cons entry rest inductionHypothesis =>
      by_cases own : entry.1 = other
      · by_cases same : other = type
        · subst same
          simp only [extend, own, List.find?_cons, decide_true, if_true]
          rfl
        · simp [extend, own, same]
      · by_cases first : entry.1 = type
        · have different : other ≠ type := fun same => own (first.trans same.symm)
          simp [extend, first, different, different.symm]
        · simpa [extend, own, first] using inductionHypothesis

/-- The handlers that are found for a type are those that were added, each guarded. -/
theorem find?_after (type : Ty) (changes : List (Change σ)) :
    ((after changes).find? type).getD [] = (added type changes).map (Handler.guarded type) := by
  have grown (dispatcher : Dispatcher σ) (handlers : List (Handler σ))
      (found : (dispatcher.find? type).getD [] = handlers.map (Handler.guarded type)) :
      ((changes.foldl changed dispatcher).find? type).getD []
        = (changes.foldl (Change.kept type) handlers).map (Handler.guarded type) := by
    induction changes generalizing dispatcher handlers with
    | nil => exact found
    | cons change rest inductionHypothesis =>
        apply inductionHypothesis
        cases change with
        | clear => rfl
        | on other handler =>
            rw [changed, find?_on, found, Change.kept]
            split
            · rw [List.map_append]
              rfl
            · rfl
  exact grown {} [] rfl

/-- Guarded handlers run if the packet is of their type, and otherwise none of them does. -/
theorem foldl_guarded (type : Ty) (packet : Value) (handlers : List (Handler σ)) (context : σ) :
    (handlers.map (Handler.guarded type)).foldl (fun context handler => handler packet context)
        context
      = if packet.type = type then
          handlers.foldl (fun context handler => handler packet context) context
        else context := by
  induction handlers generalizing context with
  | nil => simp
  | cons handler rest inductionHypothesis =>
      rw [List.map_cons, List.foldl_cons, inductionHypothesis, Handler.guarded]
      split <;> rfl

/-- As many handlers are reported as there are for the type that is asked for. They run, in order,
    if the packet is of that type, and otherwise none of them does. -/
theorem invoke_after (changes : List (Change σ)) (type : Ty) (name : String) (packet : Value)
    (context : σ) :
    ∃ event, (after changes).invoke type name packet context
      = ((added type changes).length,
          if packet.type = type then
            (added type changes).foldl (fun context handler => handler packet context) context
          else context,
          event) := by
  have found := find?_after type changes
  rw [← foldl_guarded, ← found, ← List.length_map (Handler.guarded type), ← found]
  unfold invoke
  cases (after changes).find? type with
  | none => exact ⟨_, rfl⟩
  | some handlers => exact ⟨_, rfl⟩

/-- Dispatching a frame reports how many handlers there are for the type that it claims. They run,
    in order, if the frame holds a packet of that type, and otherwise none of them does. -/
theorem dispatchFrame_after (changes : List (Change σ)) (frame : Frame) (context : σ) :
    ∃ event, (after changes).dispatchFrame frame context
      = ((added frame.type changes).length,
          if frame.value.type = frame.type then
            (added frame.type changes).foldl (fun context handler => handler frame.value context)
              context
          else context,
          event) :=
  invoke_after changes frame.type frame.id frame.value context

/-- A type has as many handlers as were added for it since the last clearing. -/
theorem count_after (changes : List (Change σ)) (type : Ty) :
    (after changes).count type = (added type changes).length := by
  have found := congrArg List.length (find?_after type changes)
  rw [List.length_map] at found
  rw [← found, count]
  cases (after changes).find? type <;> rfl

end Dispatcher

/-! ## Frames -/

namespace Registry

/-- Every frame that is read holds a packet of the type that it claims, whatever was registered and
    done before, if the rules of the serializer are trusted. So the packet can be taken out as
    whatever the frame says it is, and dispatching the frame runs as many handlers as it reports. -/
theorem frame_holds_type (schema : Schema) (upright : schema.Upright) (config : Config)
    (resolvers : List Resolver) (transforms : List Transform) (nesting : Context → Nat)
    (supply : ∀ resolver ∈ resolvers, resolver.Trusted schema)
    (keep : ∀ transform ∈ transforms, transform.Trusted schema) (registry : Registry)
    (built : registry.serializer = .build schema config resolvers transforms nesting)
    (memory : Memory) (reached : Reached registry memory) (bytes : Bytes) (frame : Frame)
    (later : Memory) (read : registry.read bytes memory = .ok frame later) :
    registry.typeOf? frame.id = some frame.type ∧ frame.value.type = frame.type ∧
      (∀ type, frame.is type = true → frame.into type = .ok frame.value) ∧
      ∀ (σ : Type) (changes : List (Change σ)) (context : σ),
        let handlers := Dispatcher.added frame.type changes
        ∃ event, (Dispatcher.after changes).dispatchFrame frame context
          = (handlers.length,
              handlers.foldl (fun context handler => handler frame.value context) context,
              event) := by
  have trusts : registry.serializer.Trusts := by
    rw [built]
    exact Serializer.trusts_build schema upright config resolvers transforms nesting supply keep
  have upright : registry.serializer.schema.Upright := by
    rw [built]
    exact upright
  have vouched : registry.serializer.Vouched memory :=
    keeps_of_reached reached (Serializer.vouched_of_reached trusts upright)
      (fun memory event => Serializer.vouched_report memory event)
      fun call memory placed => Serializer.vouched_run trusts upright call memory placed
  obtain ⟨known, buffer, state, -, decoded, -⟩ :=
    (registry.read_eq_ok bytes frame memory later).mp read
  have own := Serializer.type_of_decodeType trusts upright frame.type buffer memory vouched
    frame.value state decoded
  refine ⟨known, own, fun type claimed => ?_, fun σ changes context => ?_⟩
  · have same : frame.type = type := of_decide_eq_true claimed
    exact (frame.into_eq_ok type frame.value).mpr ⟨own.trans same, rfl⟩
  · obtain ⟨event, dispatched⟩ := Dispatcher.dispatchFrame_after changes frame context
    rw [if_pos own] at dispatched
    exact ⟨event, dispatched⟩

/-- An orchard is read from a frame though its number is stored otherwise and its owner is wrapped,
    and it can be taken out of the frame. -/
theorem frame_holds_type_orchard :
    let orchards := Serializer.orchards
    let serializer := Serializer.build orchards {} [Serializer.widening] [Serializer.counting]
      orchards.depth
    let registry := single serializer (.named "Orchard") "orchard"
    let bytes : Bytes := [0, 7, 111, 114, 99, 104, 97, 114, 100,
      0, 0, 0, 0, 0, 0, 0, 6, 1, 1, 0, 0, 0, 3, 101, 118, 101]
    orchards.Upright ∧ (∀ resolver ∈ [Serializer.widening], resolver.Trusted orchards) ∧
      (∀ transform ∈ [Serializer.counting], transform.Trusted orchards) ∧
      Reached registry.1 registry.2 ∧
      ∃ frame later, registry.1.read bytes registry.2 = .ok frame later ∧
        frame.type = .named "Orchard" ∧ frame.into (.named "Orchard") = .ok frame.value := by
  intro orchards serializer registry bytes
  have upright : orchards.Upright := by
    intro entry listed
    cases List.mem_singleton.mp listed
    exact Catalogue.declared_upright _ _ _ _ _
  have supply : ∀ resolver ∈ [Serializer.widening], resolver.Trusted orchards := by
    intro resolver added
    cases List.mem_singleton.mp added
    refine Recipe.resolver_trusted 500 _ .i32AsI64 .i32 ?_ ?_
    · intro context claimed
      simp only [Condition.holds, Bool.and_eq_true, decide_eq_true_eq] at claimed
      exact claimed.1
    · rintro context codec ⟨⟩
      exact Recipe.numeric_trusted _ _ _
  have keep : ∀ transform ∈ [Serializer.counting], transform.Trusted orchards := by
    intro transform added
    cases List.mem_singleton.mp added
    exact Wrapping.depth.transform_trusted .nullable
  have reached := reached_single serializer (.named "Orchard") "orchard"
  obtain ⟨frame, found, claims⟩ := Option.map_eq_some_iff.mp
    (show (result? (registry.1.read bytes registry.2)).map Frame.type = some (.named "Orchard")
      by decide +kernel)
  obtain ⟨later, read⟩ := exists_of_result? found
  obtain ⟨-, -, taken, -⟩ := frame_holds_type orchards upright {} _ _ orchards.depth supply keep
    registry.1 rfl registry.2 reached bytes frame later read
  exact ⟨upright, supply, keep, reached, frame, later, read, claims,
    taken _ (decide_eq_true claims)⟩

/-! ## A rule that is not to be trusted -/

/-- A schema of one aggregate. -/
def pings : Schema where
  entries := [Catalogue.declared (.named "Ping") [Catalogue.member "seq" .i64]]

/-- A rule that takes pings for texts, before any other rule. -/
def mistaking : Resolver :=
  Recipe.shortString.resolver pings 1000000 (.isType (.named "Ping"))

/-- A frame claims to hold a ping and holds a text: the ping cannot be taken out of it, and
    dispatching it reports a handler that has not run. -/
theorem frame_of_mistaking :
    let registry := single (.build pings {} [mistaking]) (.named "Ping") "ping"
    let dispatcher : Dispatcher Nat := .after [.on (.named "Ping") fun _ count => count + 1]
    Reached registry.1 registry.2 ∧
      ∃ frame later, registry.1.read [0, 4, 112, 105, 110, 103, 0, 1, 97] registry.2
          = .ok frame later ∧
        frame.is (.named "Ping") = true ∧ frame.value.type = .string ∧
        frame.into (.named "Ping") = .error (.codec (.typeMismatch "Ping")) ∧
        ∃ event, dispatcher.dispatchFrame frame 0 = (1, 0, event) := by
  intro registry dispatcher
  obtain ⟨frame, found, same⟩ := Option.map_eq_some_iff.mp
    (show (result? (registry.1.read [0, 4, 112, 105, 110, 103, 0, 1, 97] registry.2)).map
        (fun frame => (frame.type, frame.value.type)) = some (.named "Ping", .string)
      by decide +kernel)
  obtain ⟨claims, holds⟩ := Prod.mk.inj same
  obtain ⟨later, read⟩ := exists_of_result? found
  obtain ⟨event, dispatched⟩ := Dispatcher.dispatchFrame_after
    [.on (.named "Ping") fun _ count => count + 1] frame 0
  refine ⟨reached_single _ _ _, frame, later, read, decide_eq_true claims, holds, ?_, event, ?_⟩
  · simp only [Frame.into, Value.expect, holds]
    rfl
  · rw [claims, if_neg (by rw [holds]; decide)] at dispatched
    exact dispatched

end Registry

end Packet

end Wireform
