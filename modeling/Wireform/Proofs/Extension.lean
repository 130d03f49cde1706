import Wireform.Proofs.BuiltinLaws
import Wireform.Proofs.Recipes
import Wireform.Proofs.Stream

/-!
# Lawful rules keep the engine lawful

Whatever lawful rules are added to the built-in ones, what a serializer encodes it decodes
again. A place is lawful if a value that is encoded there is decoded to one that is alike,
at the same site or at that of the parameter that receives the field. Codecs are lawful if the
places they ask for are, base codecs as built-in or lawful user codecs, and wrapped ones
because every wrapper that applies keeps this; so places are lawful one request deeper.

The induction is on how deep requests may nest. It says nothing about the types that enclose a
place, and it cannot: a wrapper may put anything around the codec of a recursive type, and it is
asked to keep codecs lawful whatever is being walked.
-/

namespace Wireform

open Buffer (Conveys)

/-! ## The same codec in both directions -/

/-- A value that is encoded at a place is decoded at a place that matches. -/
theorem Context.matches_ofPlace (declared : Ty) (markers : List Marker) (site other : Site)
    (receives : site.Receives other) (value result : Option Value) :
    (ofPlace declared markers site value).Matches (ofPlace declared markers other result) :=
  ⟨rfl, rfl, .some receives⟩

namespace Serializer

variable {schema : Schema} {config : Config} {resolvers : List Resolver}
  {transforms : List Transform} {nesting : Context → Nat}

/-- Where lawful rules are added, places that belong together have the same codec before
    transforms. -/
theorem baseCodec_matches (lawful : LawfulRules schema config resolvers transforms nesting)
    (context other : Context) (same : context.Matches other) :
    (build schema config resolvers transforms nesting).baseCodec other
      = (build schema config resolvers transforms nesting).baseCodec context := by
  have unwrapped : other.unwrapped = context.unwrapped := congrArg Ty.unwrapped same.declared
  have even := forall_resolvers_build schema config resolvers transforms nesting
    (Resolver.builtin_even schema) fun resolver added => (lawful.supply resolver added).even
  refine baseCodec_congr _ _ context other rfl unwrapped ?_
  exact Resolver.resolve_congr _ other context
    (fun resolver registered => ((even resolver registered context other same).1).symm)
    (fun resolver registered => ((even resolver registered context other same).2).symm)

/-- Where lawful rules are added, places that belong together have the same codec. -/
theorem freshCodec_matches (lawful : LawfulRules schema config resolvers transforms nesting)
    (context other : Context) (same : context.Matches other) :
    (build schema config resolvers transforms nesting).freshCodec other
      = (build schema config resolvers transforms nesting).freshCodec context := by
  have even := forall_transforms_build schema config resolvers transforms nesting
    Transform.nullable_even fun transform added => (lawful.keep transform added).even
  have wrapped : Transform.applyAll (Transform.nullable :: transforms) other
      = Transform.applyAll (Transform.nullable :: transforms) context :=
    funext fun codec => Transform.applyAll_congr _ other context
      (fun transform registered => (even transform registered context other same).symm) codec
  have based := baseCodec_matches lawful context other same
  unfold freshCodec
  rw [based]
  exact congrArg (· <$> _) wrapped

/-- The codec of a context before transforms, if it is not custom, is one of an added resolver or
    the built-in one of its shape. -/
theorem baseCodec_cases (context : Context) (codec : Codec)
    (plain : ∀ format, schema.kind context.unwrapped ≠ .custom format)
    (based : (build schema config resolvers transforms nesting).baseCodec context = .ok codec) :
    (∃ resolver ∈ resolvers, resolver.claims context = true ∧ resolver.make context = .ok codec) ∨
      ∃ shape, schema.shape context.unwrapped context.streamableElement = .ok shape ∧
        codec = shape.codec schema context.unwrapped := by
  obtain same | ⟨resolver, added, found⟩ := Resolver.find?_chain
    (fun resolver => resolver.claims context) (Resolver.builtin schema) resolvers
  · -- No added resolver comes first, so the codec is the one there is without any.
    have resolved : Resolver.resolve (Resolver.chain (Resolver.builtin schema ++ resolvers)) context
        = Resolver.resolve (Resolver.chain (Resolver.builtin schema)) context := by
      unfold Resolver.resolve
      rw [same]
    have unchanged := baseCodec_congr (build schema config) (build schema config resolvers
      transforms nesting) context context rfl rfl resolved
    rw [unchanged, baseCodec_build] at based
    cases shaped : schema.shape context.unwrapped context.streamableElement with
    | error error => rw [shaped] at based; cases based
    | ok shape =>
        rw [shaped] at based
        cases based
        exact .inr ⟨shape, rfl, rfl⟩
  · have claimed : resolver.claims context = true := by simpa using List.find?_some found
    have resolved : Resolver.resolve (Resolver.chain (Resolver.builtin schema ++ resolvers)) context
        = some <$> resolver.make context := by
      unfold Resolver.resolve
      rw [found]
    refine .inl ⟨resolver, added, claimed, ?_⟩
    unfold baseCodec at based
    dsimp only [build] at based
    split at based
    · next format described => exact absurd described (plain format)
    · rw [resolved] at based
      cases made : resolver.make context with
      | error error => rw [made] at based; cases based
      | ok own =>
          rw [made] at based
          exact based

end Serializer

variable {schema : Schema} {config : Config}

/-! ## Whole walks -/

/-- A place that is not nullable has no absent values. -/
theorem Context.isSome_of_project (schema : Schema) (declared : Ty) (markers : List Marker) (value : Value)
    (inner : Option Value) (given : (make declared markers).isNullable = false)
    (projected : projectThrough declared.layers value = .ok inner) : inner.isSome = true := by
  cases inner with
  | some core => rfl
  | none =>
      have back := rewrap_project declared false value none projected
      rw [isNullable_make, Bool.or_eq_false_iff] at given
      obtain ⟨strips, _⟩ | ⟨_, lost⟩ := (Value.Typed.layered schema).rewrap_none declared
      · rw [given.1] at strips
        cases strips
      · cases lost.symm.trans back

namespace Serializer

variable {resolvers : List Resolver} {transforms : List Transform} {nesting : Context → Nat}

section Places

variable (rules : LawfulRules schema config resolvers transforms nesting) (depth : Nat)
  (places : ∀ visited declared part, schema.Throughout schema.Invertible declared →
    part.Typed schema declared →
    (build schema config resolvers transforms nesting).ComesBack depth visited declared [] part)
  (aggregates : ∀ visited type description part, schema.kind type = .aggregate description →
    schema.Throughout schema.Invertible type → part.Typed schema type →
    (build schema config resolvers transforms nesting).FieldsComeBack depth visited type description
      part)
  (declared : Ty) (markers : List Marker) (site : Site)
  (invertible : schema.Throughout schema.Invertible declared)
  (honest : Marker.Honest declared markers)

include rules places aggregates invertible honest

/-- Before transforms, the codec of a place is lawful for its present values if all places are
    lawful one request deeper. -/
theorem baseCodec_lawful (value : Option Value) (codec : Codec)
    (based : (build schema config resolvers transforms nesting).baseCodec
      (.ofPlace declared markers site value) = .ok codec) :
    codec.Lawful (build schema config resolvers transforms nesting) depth
      (fun inner => inner.isSome = true ∧
        (build schema config resolvers transforms nesting).Occurs
          (.ofPlace declared markers site value) inner)
      (Value.Alike schema declared.unwrapped) := by
  have plain := invertible.unwrapped.self.1.not_custom
  obtain ⟨resolver, added, claimed, made⟩ | ⟨shape, shaped, rfl⟩ :=
    baseCodec_cases (.ofPlace declared markers site value) codec plain based
  · obtain ⟨type, single⟩ := (rules.supply resolver added).typed
    obtain ⟨rfl, typed⟩ := single _ claimed
    exact (typed codec made).lawful depth
  · rintro visited inner ⟨present, whole, typed, admits, projected⟩
    obtain ⟨core, rfl⟩ := Option.isSome_iff_exists.mp present
    have same : (build schema config resolvers transforms nesting).baseCodec
        (.ofPlace declared markers site (some whole)) = _ :=
      (baseCodec_matches rules _ _ (Context.matches_ofPlace declared markers site site (.same site)
        value (some whole))).trans based
    have handles : (build schema config resolvers transforms nesting).Handles
        (.ofPlace declared markers site (some whole)) shape core :=
      ⟨⟨whole, rfl, projected⟩, shaped, same⟩
    have marked : (Context.ofPlace declared markers site value).streamableElement
        = Marker.element? markers := Context.streamableElement_make declared markers
    rw [marked] at shaped
    have typedCore := typed.project declared false whole core projected
    exact shape.conveys_codec _ depth visited declared.unwrapped (Marker.element? markers) shaped
      invertible.unwrapped honest core typedCore (admits _ .refl shape core handles)
      (fun child listed => admits.child ⟨shape, core, handles, listed⟩)
      (places visited)
      (fun description described => aggregates visited declared.unwrapped description core described
        invertible.unwrapped typedCore)

/-- The codec of a place conveys what an admitted value is below the stripped layers, if all
    places are lawful one request deeper. -/
theorem conveys_freshCodec (visited : List Ty) (value : Value) (inner : Option Value)
    (codec : Codec) (typed : value.Typed schema declared)
    (admits : (build schema config resolvers transforms nesting).Admits
      (.ofPlace declared markers site (some value)))
    (projected : Context.projectThrough declared.layers value = .ok inner)
    (fresh : (build schema config resolvers transforms nesting).freshCodec
      (.ofPlace declared markers site (some value)) = .ok codec) :
    Conveys config
      ((codec.encode inner).run
        ((build schema config resolvers transforms nesting).answer depth visited))
      (codec.decode.run ((build schema config resolvers transforms nesting).answer depth visited))
      (Option.Rel (Value.Alike schema declared.unwrapped) inner) := by
  have occurs : (build schema config resolvers transforms nesting).Occurs
      (.ofPlace declared markers site (some value)) inner := ⟨value, typed, admits, projected⟩
  unfold freshCodec at fresh
  cases based : (build schema config resolvers transforms nesting).baseCodec
      (.ofPlace declared markers site (some value)) with
  | error error => rw [based] at fresh; cases fresh
  | ok base =>
      rw [based] at fresh
      cases fresh
      have lawful := baseCodec_lawful rules depth places aggregates declared markers site invertible
        honest (some value) base based
      -- The presence flag goes around the base codec first, if there is one.
      cases nullable : (Context.make declared markers).isNullable with
      | true =>
          have flagged : Transform.applyAll (Transform.nullable :: transforms)
              (.ofPlace declared markers site (some value)) base
              = Transform.applyAll transforms (.ofPlace declared markers site (some value))
                (Codec.nullable base) := by
            have applies : Transform.nullable.applies
                (.ofPlace declared markers site (some value)) = true := nullable
            simp only [Transform.applyAll, List.foldl_cons, applies, if_true]
            rfl
          have kept := Transform.applyAll_keeps transforms _ (fun transform added applies =>
            (rules.keep transform added).optional depth _ applies) _ lawful.nullable
          rw [← flagged] at kept
          exact kept visited inner occurs
      | false =>
          have unflagged : Transform.applyAll (Transform.nullable :: transforms)
              (.ofPlace declared markers site (some value)) base
              = Transform.applyAll transforms (.ofPlace declared markers site (some value)) base := by
            have applies : Transform.nullable.applies
                (.ofPlace declared markers site (some value)) = false := nullable
            simp only [Transform.applyAll, List.foldl_cons, applies]
            rfl
          have kept := Transform.applyAll_keeps transforms _ (fun transform added applies =>
            (rules.keep transform added).present depth _ applies) _ lawful
          rw [← unflagged] at kept
          have present := Context.isSome_of_project schema declared markers value inner nullable
            projected
          exact kept visited inner ⟨present, occurs⟩

end Places

/-- Where lawful rules are added, whatever the limits admit at a place of an invertible type
    comes back alike. The induction is on how deep requests may nest, for values at places and
    fields of aggregates together. -/
theorem lawful_answer (rules : LawfulRules schema config resolvers transforms nesting)
    (depth : Nat) :
    (∀ visited declared markers value, schema.Throughout schema.Invertible declared →
      Marker.Honest declared markers → value.Typed schema declared →
      (build schema config resolvers transforms nesting).ComesBack depth visited declared markers
        value) ∧
    ∀ visited type description value, schema.kind type = .aggregate description →
      schema.Throughout schema.Invertible type → value.Typed schema type →
      (build schema config resolvers transforms nesting).FieldsComeBack depth visited type description
        value := by
  induction depth with
  | zero =>
      exact ⟨fun _ _ _ _ _ _ _ _ _ _ _ => Buffer.conveys_fail _,
        fun _ _ _ _ _ _ _ _ => Buffer.conveys_fail _⟩
  | succ depth inductionHypothesis =>
      obtain ⟨places, aggregates⟩ := inductionHypothesis
      constructor
      · intro visited declared markers value invertible honest typed site other receives admits
        have unmarked (visited : List Ty) (declared : Ty) (part : Value)
            (invertible : schema.Throughout schema.Invertible declared)
            (typed : part.Typed schema declared) :=
          places visited declared [] part invertible (Marker.honest_nil declared) typed
        have received := freshCodec_matches rules _ _
          (Context.matches_ofPlace declared markers site other receives (some value) none)
        simp only [answer]
        refine Buffer.conveys_lift_bind fun codec fresh => ?_
        rw [received, fresh, Step.lift_ok, LawfulMonad.pure_bind]
        refine Buffer.conveys_lift_bind fun inner projected => ?_
        have conveyed := conveys_freshCodec rules depth unmarked aggregates declared markers site
          invertible honest visited value inner codec typed admits projected fresh
        refine Buffer.conveys_bind_lift conveyed fun result alike => ?_
        obtain ⟨whole, rewrapped, alikeWhole⟩ :=
          Context.rewrapThrough_alike declared false value inner result projected alike
        exact ⟨whole, (Context.ofPlace declared markers other none).rewrap_of_rewrapThrough result
          whole rewrapped, alikeWhole⟩
      · intro visited type description value described invertible typed admits
        obtain ⟨entry, found, describes, rebuilds⟩ :=
          invertible.self.1.describes description described
        obtain ⟨again, members, rfl, same, declared, fields⟩ :=
          typed.members_of_kind description described
        cases found.symm.trans same
        simp only [answer]
        split
        · exact Buffer.conveys_fail _
        · refine conveys_rebuild type description described entry found describes rebuilds members
            declared ?_
          rintro ⟨field, index⟩ listed
          have among : field ∈ description.fields := List.fst_mem_of_mem_zipIdx listed
          obtain ⟨own, ownDeclared, ownType⟩ := describes.member_of_field field among
          obtain ⟨member, present, memberType⟩ : ∃ member, members[field.slot]? = some member ∧
              member.type = field.type := by
            have sameTypes := congrArg (·[field.slot]?) declared
            simp only [List.getElem?_map, ownDeclared, Option.map_some, ownType,
              Option.map_eq_some_iff] at sameTypes
            exact sameTypes
          have asked : Context.ofPlace field.type field.markers (.field type index) (some member)
              ∈ (Shape.aggregate description).children type (.record type members) := by
            refine List.mem_filterMap.mpr ⟨(field, index), listed, ?_⟩
            rw [present]
            rfl
          refine ⟨member, present, memberType, fun other receives => ?_⟩
          exact places (type :: visited) field.type field.markers member
            (invertible.part (.field type description described field among))
            (describes.honest field among) (fields field among member present) _ other receives
            (admits _ asked)

/-- Lawful rules do not look at values. -/
theorem static_of_lawful (rules : LawfulRules schema config resolvers transforms nesting) :
    (build schema config resolvers transforms nesting).Static :=
  static_build schema config resolvers transforms nesting
    (fun resolver added => (rules.supply resolver added).even.static)
    (fun transform added => (rules.keep transform added).even.static)

/-- Where lawful rules are added, codecs ask for placed contexts only. -/
theorem placed_of_lawful (rules : LawfulRules schema config resolvers transforms nesting) :
    (build schema config resolvers transforms nesting).Makes (Codec.Placed schema) :=
  makes_of_supplies (Codec.builtin_placed schema) config resolvers transforms nesting
    (fun resolver added => (rules.supply resolver added).supplies)
    (fun transform added => (rules.keep transform added).placed)

/-- Where lawful rules are added, a value that the limits admit is appended such that a value that
    is like it is taken off again, whatever stands behind. -/
theorem conveys_root (rules : LawfulRules schema config resolvers transforms nesting) (type : Ty)
    (invertible : schema.Throughout schema.Invertible type) (value : Value)
    (typed : value.Typed schema type)
    (admits : (build schema config resolvers transforms nesting).Admits (root type (some value))) :
    Conveys config ((build schema config resolvers transforms nesting).appending value)
      ((build schema config resolvers transforms nesting).takingFrom type)
      (Value.Alike schema type value) := by
  obtain rfl := typed.type_eq
  have steady : nesting (root value.type (some value)) = nesting (root value.type none) :=
    rules.steady (root value.type (some value))
  have conveyed := (lawful_answer rules (nesting (root value.type none))).1 [] value.type []
    value invertible (Marker.honest_nil _) typed (.root value.type) _ (.same _) admits
  have appending_eq : (build schema config resolvers transforms nesting).appending value
      = (build schema config resolvers transforms nesting).answer (nesting (root value.type none)) []
        (.encode (root value.type (some value))) := by
    rw [← steady]
    rfl
  have taken : Conveys config ((build schema config resolvers transforms nesting).appending value)
      ((build schema config resolvers transforms nesting).taking value.type)
      (Value.Alike schema value.type value) := by
    rw [appending_eq]
    exact conveyed
  exact Buffer.conveys_bind_lift taken fun result alike =>
    ⟨result, (Value.expect_eq_ok _ _ _).mpr ⟨alike.type_eq, rfl⟩, alike⟩

/-- Lawful rules keep the engine lawful: whatever lawful resolvers at whatever priorities and
    whatever lawful transforms are added, a value of an invertible type that is encoded within
    the limits is decoded to one that is like it, members that do not travel aside. The serializer
    may remember anything at either end. -/
theorem decode_encode_of_lawful (schema : Schema) (config : Config) (resolvers : List Resolver)
    (transforms : List Transform) (nesting : Context → Nat)
    (rules : LawfulRules schema config resolvers transforms nesting) (type : Ty)
    (invertible : schema.Throughout schema.Invertible type) (value : Value)
    (typed : value.Typed schema type)
    (admits : (build schema config resolvers transforms nesting).Admits (root type (some value)))
    (memory other : Memory)
    (reached : (build schema config resolvers transforms nesting).Reached memory)
    (otherReached : (build schema config resolvers transforms nesting).Reached other)
    (bytes : Bytes) (later : Memory)
    (encoded : (build schema config resolvers transforms nesting).encode value memory
      = .ok bytes later) :
    ∃ result after, (build schema config resolvers transforms nesting).decode type bytes other
        = .ok result after ∧ Value.Alike schema type value result := by
  have static := static_of_lawful rules
  have makes := placed_of_lawful rules
  obtain ⟨_, _, sameEncoded⟩ :=
    encode_eq_encoded static makes value (coherent_of_reached static makes memory reached)
  obtain ⟨after, _, sameDecoded⟩ :=
    decode_eq_decoded static makes type bytes (coherent_of_reached static makes other otherReached)
  have conveys := conveys_root rules type invertible value typed admits
  obtain ⟨between, appended, finished⟩ :=
    appended_of_encoded (Step.lift_eq_ok (sameEncoded.symm.trans encoded))
  obtain ⟨front, rfl, reads⟩ := conveys [] between appended
  have same : front.reverse.reverse = bytes := by
    rw [List.append_nil] at finished
    exact Except.ok.inj finished
  rw [List.reverse_reverse] at same
  subst same
  obtain ⟨result, alike, taken⟩ := reads []
  rw [List.append_nil] at taken
  refine ⟨result, after, ?_, alike⟩
  rw [sameDecoded, decoded_of_taken taken]
  rfl

/-- A schema of an aggregate with a tagged number and a member that does not travel. -/
def orchards : Schema where
  entries :=
    [Catalogue.declared (.named "Orchard")
      [Catalogue.member "rows" .i32 [.tag "wide"], Catalogue.skipped "visits" (.leaf .u64) (.u64 0),
        Catalogue.member "owner" (.option .string) [.nullable]]]

/-- An orchard that has been visited. -/
def orchard : Value := .record (.named "Orchard") [.i32 6, .u64 2, .present (.string "eve")]

/-- Tagged numbers are stored in eight octets, before any other rule. -/
def widening : Resolver :=
  Recipe.i32AsI64.resolver orchards 500 (.both (.isType .i32) (.tagged "wide"))

/-- The number of enclosing aggregates goes in front of what may be absent, flag included. -/
def counting : Transform := Wrapping.depth.transform orchards .nullable

/-- Orchards are invertible. -/
theorem orchards_invertible : orchards.Throughout orchards.Invertible (.named "Orchard") := by
  refine Schema.throughout_of_closed [.named "Orchard", .i32, .option .string, .string]
    List.mem_cons_self (by decide) ?_
  simp only [List.mem_cons, List.not_mem_nil, or_false]
  rintro type (rfl | rfl | rfl | rfl)
  · refine ⟨Schema.derived_of_declared "Orchard" _ none true .named rfl ?_ (by simp) (by simp),
      trivial⟩
    simp only [Member.fieldsFrom, Catalogue.member, Catalogue.skipped, List.mem_cons,
      List.not_mem_nil, or_false]
    rintro field (rfl | rfl) kind element named ⟨⟩
  · exact ⟨.leaf _ (by decide), trivial⟩
  · exact ⟨.option _, trivial⟩
  · exact ⟨.leaf _ (by decide), trivial⟩

/-- The visited orchard is typed. -/
theorem orchard_typed : orchard.Typed orchards (.named "Orchard") := by
  refine .record _ _ rfl _ rfl _ rfl ?_
  simp only [Member.fieldsFrom, Catalogue.member, Catalogue.skipped, List.mem_cons,
    List.not_mem_nil, or_false]
  rintro field (rfl | rfl) member ⟨⟩
  · exact .scalar (.i32 6)
  · exact .present _ _ (.scalar (.string "eve"))

/-- A visited orchard comes back alike though its number is stored otherwise and its owner is
    wrapped. -/
theorem decode_encode_of_lawful_orchard :
    let serializer := build orchards {} [widening] [counting] orchards.depth
    LawfulRules orchards {} [widening] [counting] orchards.depth ∧
      orchards.Throughout orchards.Invertible (.named "Orchard") ∧
      orchard.Typed orchards (.named "Orchard") ∧
      serializer.Admits (root (.named "Orchard") (some orchard)) ∧
      serializer.Reached serializer.start ∧
      ∃ bytes later, serializer.encode orchard serializer.start = .ok bytes later ∧
        bytes = [0, 0, 0, 0, 0, 0, 0, 6, 1, 1, 0, 0, 0, 3, 101, 118, 101] ∧
        ∃ result after, serializer.decode (.named "Orchard") bytes serializer.start
            = .ok result after ∧ Value.Alike orchards (.named "Orchard") orchard result := by
  intro serializer
  have rules : LawfulRules orchards {} [widening] [counting] orchards.depth := by
    refine ⟨fun resolver added => ?_, fun transform added => ?_, fun _ => rfl⟩
    · cases List.mem_singleton.mp added
      refine Recipe.resolver_lawful 500 _ rfl .i32AsI64 .i32 ?_ _ (fun _ => rfl)
        (Recipe.i32Widened_lawful _ (.refl .i32))
      intro context claimed
      simp only [Condition.holds, Bool.and_eq_true, decide_eq_true_eq] at claimed
      exact claimed.1
    · cases List.mem_singleton.mp added
      exact Wrapping.transform_lawful serializer .nullable rfl .depth rfl
  have invertible := orchards_invertible
  have typed := orchard_typed
  have admits : serializer.Admits (root (.named "Orchard") (some orchard)) := by
    intro place _ shape core _ piece _
    exact piece.admitted_unlimited
  have fresh : serializer.Reached serializer.start := .start
  obtain ⟨later, encoded⟩ := Step.exists_of_result?
    (show Step.result? (serializer.encode orchard serializer.start)
      = some [0, 0, 0, 0, 0, 0, 0, 6, 1, 1, 0, 0, 0, 3, 101, 118, 101] by decide +kernel)
  have decoded := decode_encode_of_lawful orchards {} [widening] [counting] orchards.depth rules
    (.named "Orchard") invertible orchard typed admits _ _ fresh fresh _ later encoded
  exact ⟨rules, invertible, typed, admits, fresh, _, later, encoded, rfl, decoded⟩

end Serializer

end Wireform
