import Wireform.Proofs.Client
import Wireform.Proofs.Conveys
import Wireform.Proofs.Likeness

/-!
# Lawful rules

A codec is lawful for optional values if it reads back what it writes for each of them,
whatever aggregates are being walked and whatever stands behind. Rules of a user's are lawful
if they supply lawful codecs and keep them lawful. Two more things are asked of them, and
neither is about any one codec:

* a rule must not tell a value to be encoded from its place, nor the place of a field from
  that of the parameter that receives it, or else the two directions go separate ways;
* a wrapper must not make contexts at sites that stand for something else, or else a codec
  may be remembered under the wrong site.

Coming back means coming back alike, so a wrapper is asked to keep codecs lawful that forget
what does not travel. Limits are a matter of values: those that can occur at a place are
typed, and what the built-in codecs write for them, there and below, is of admitted lengths.
Which codecs these are depends on the rules, so a length that a user's codec takes care of is
not counted.
-/

namespace Wireform

/-! ## Places that belong together -/

/-- A value that is encoded at the first site is decoded at the second: it is the same one, or
    that of the parameter in the position of a field. -/
inductive Site.Receives : Site → Site → Prop
  | same (site : Site) : Receives site site
  | parameter (owner : Ty) (index constructor : Nat) :
      Receives (.field owner index) (.parameter owner constructor index)

/-- The contexts are of one place, whatever their values, or of places that belong together. -/
structure Context.Matches (context other : Context) : Prop where
  declared : other.declared = context.declared
  markers : other.markers = context.markers
  site : Option.Rel Site.Receives context.site other.site

/-- A context without its value is of the same place. -/
theorem Context.matches_bare (context : Context) : context.Matches context.bare := by
  refine ⟨rfl, rfl, ?_⟩
  cases same : context.site with
  | none =>
      rw [show context.bare.site = none from same]
      exact .none
  | some site =>
      rw [show context.bare.site = some site from same]
      exact .some (.same site)

namespace Resolver

/-- The resolver treats contexts of places that belong together alike. -/
def Even (resolver : Resolver) : Prop :=
  ∀ context other, context.Matches other →
    resolver.claims context = resolver.claims other ∧ resolver.make context = resolver.make other

/-- Even resolvers do not look at values. -/
theorem Even.static {resolver : Resolver} (even : resolver.Even) : resolver.Static where
  claims context := (even context context.bare context.matches_bare).1
  make context := (even context context.bare context.matches_bare).2

/-- The built-in resolvers look at the type and the markers only. -/
theorem builtin_even (schema : Schema) (resolver : Resolver)
    (registered : resolver ∈ builtin schema) : resolver.Even := by
  rintro ⟨declared, markers, value, site⟩ ⟨_, _, otherValue, otherSite⟩ ⟨rfl, rfl, _⟩
  simp only [builtin, List.mem_append, List.mem_map, List.mem_cons, List.not_mem_nil, or_false]
    at registered
  obtain (⟨leaf, _, rfl⟩ | ⟨leaf, _, rfl⟩) | rfl | rfl | rfl | rfl := registered
  all_goals exact ⟨rfl, rfl⟩

/-- With one more resolver in a chain, the one that claims a context is that one or the one
    before. -/
theorem find?_insert (claims : Resolver → Bool) (resolver : Resolver) (chain : List Resolver) :
    (insert resolver chain).find? claims = chain.find? claims ∨
      (insert resolver chain).find? claims = some resolver := by
  induction chain with
  | nil => cases claimed : claims resolver <;> simp [insert, claimed]
  | cons head rest inductionHypothesis =>
      by_cases before : head.priority < resolver.priority
      · cases claimed : claims resolver <;> simp [insert, before, claimed]
      · cases claimed : claims head with
        | true => simp [insert, before, claimed]
        | false => simpa [insert, before, claimed] using inductionHypothesis

/-- With more resolvers registered, the one that claims a context is one of them or the one
    before. -/
theorem find?_chain (claims : Resolver → Bool) (registered added : List Resolver) :
    (chain (registered ++ added)).find? claims = (chain registered).find? claims ∨
      ∃ resolver ∈ added, (chain (registered ++ added)).find? claims = some resolver := by
  have folded (ordered : List Resolver) :
      (added.foldl (fun chain resolver => insert resolver chain) ordered).find? claims
          = ordered.find? claims ∨
        ∃ resolver ∈ added,
          (added.foldl (fun chain resolver => insert resolver chain) ordered).find? claims
            = some resolver := by
    induction added generalizing ordered with
    | nil => exact .inl rfl
    | cons head rest inductionHypothesis =>
        obtain same | ⟨resolver, later, found⟩ := inductionHypothesis (insert head ordered)
        · obtain before | own := find?_insert claims head ordered
          · exact .inl (same.trans before)
          · exact .inr ⟨head, List.mem_cons_self, same.trans own⟩
        · exact .inr ⟨resolver, List.mem_cons_of_mem _ later, found⟩
  have split : chain (registered ++ added)
      = added.foldl (fun chain resolver => insert resolver chain) (chain registered) :=
    List.foldl_append
  rw [split]
  exact folded (chain registered)

end Resolver

/-- The transform applies to contexts of places that belong together alike. -/
def Transform.Even (transform : Transform) : Prop :=
  ∀ context other, context.Matches other → transform.applies context = transform.applies other

/-- Even transforms do not look at values. -/
theorem Transform.Even.static {transform : Transform} (even : transform.Even) : transform.Static :=
  fun context => even context context.bare context.matches_bare

/-- The presence flag looks at the markers only. -/
theorem Transform.nullable_even : nullable.Even := by
  rintro ⟨declared, markers, value, site⟩ ⟨_, _, otherValue, otherSite⟩ ⟨rfl, rfl, _⟩
  rfl

/-! ## What a place holds -/

/-- The pieces that the codec of a shape writes by itself for a value. -/
def Shape.pieces : Shape → Value → List Piece
  | .leaf _, .scalar plain => plain.layout
  | .octets, .sequence _ items => [.byteLength items.length]
  | .enumeration names, .member _ index => Piece.text (names[index]?.getD "")
  | .sequence _, .sequence _ items => [.elementCount items.length]
  | .map _ _, .map _ entries => [.entryCount entries.length]
  | _, _ => []

/-- The contexts that the codec of a shape asks to be encoded for a value of the type. -/
def Shape.children (type : Ty) : Shape → Value → List Context
  | .sequence element, .sequence _ items =>
      items.map fun item => .ofPlace element [] (.element element) (some item)
  | .map key part, .map _ entries =>
      entries.flatMap fun entry =>
        [.ofPlace key [] (.key key) (some entry.1), .ofPlace part [] (.value part) (some entry.2)]
  | .nested, value => [.ofPlace type [] (.inner type) (some value)]
  | .aggregate description, .record _ members =>
      description.fields.zipIdx.filterMap fun field =>
        members[field.1.slot]?.map fun member =>
          .ofPlace field.1.type field.1.markers (.field type field.2) (some member)
  | _, _ => []

namespace Serializer

/-- The built-in codec of the shape encodes the context's value, which is `core` below the
    stripped layers. -/
structure Handles (serializer : Serializer) (context : Context) (shape : Shape) (core : Value) :
    Prop where
  core : ∃ whole, context.value = some whole ∧ context.project whole = .ok (some core)
  shaped : serializer.schema.shape context.unwrapped context.streamableElement = .ok shape
  built : serializer.baseCodec context = .ok (shape.codec serializer.schema context.unwrapped)

/-- A built-in codec asks for the child where it encodes the context's value. -/
def Contains (serializer : Serializer) (context child : Context) : Prop :=
  ∃ shape core, serializer.Handles context shape core ∧
    child ∈ shape.children context.unwrapped core

/-- The limits admit all lengths that built-in codecs write for the context's value, down to
    places that rules of a user's take care of. -/
def Admits (serializer : Serializer) (context : Context) : Prop :=
  ∀ place, Relation.ReflTransGen serializer.Contains context place →
    ∀ shape core, serializer.Handles place shape core →
      ∀ piece ∈ shape.pieces core, piece.Admitted serializer.config

/-- What is admitted as a whole is admitted in its parts. -/
theorem Admits.child {serializer : Serializer} {context child : Context}
    (admits : serializer.Admits context) (contains : serializer.Contains context child) :
    serializer.Admits child :=
  fun place reached => admits place (.head contains reached)

/-- The optional value is what an admitted typed value of the place comes to below the stripped
    layers. -/
def Occurs (serializer : Serializer) (context : Context) (value : Option Value) : Prop :=
  ∃ whole, whole.Typed serializer.schema context.declared ∧
    serializer.Admits { context with value := some whole } ∧ context.project whole = .ok value

end Serializer

/-! ## Laws -/

/-- What the codec writes for one of the optional values it reads back as one that is alike, with
    requests nested as deep as given and inside of any aggregates. -/
def Codec.Lawful (serializer : Serializer) (depth : Nat) (among : Option Value → Prop)
    (alike : Value → Value → Prop) (codec : Codec) : Prop :=
  ∀ visited value, among value →
    Buffer.Conveys serializer.config
      ((codec.encode value).run (serializer.answer depth visited))
      (codec.decode.run (serializer.answer depth visited)) (Option.Rel alike value)

/-- A presence flag makes a codec that is lawful for present values lawful for absent ones as
    well. -/
theorem Codec.Lawful.nullable {serializer : Serializer} {depth : Nat} {among : Option Value → Prop}
    {alike : Value → Value → Prop} {inner : Codec}
    (lawful : inner.Lawful serializer depth (fun value => value.isSome = true ∧ among value) alike) :
    (Codec.nullable inner).Lawful serializer depth among alike := by
  intro visited value occurs
  have flagged := Codec.run_encode_flagged serializer depth visited inner value
  have unflagged := Codec.run_decode_flagged serializer depth visited inner
  rw [Codec.flagged, if_pos rfl] at flagged unflagged
  rw [flagged, unflagged]
  refine Buffer.conveys_bind (Buffer.conveys_bool value.isSome) ?_
  rintro _ rfl
  cases value with
  | none => exact Buffer.conveys_pure none .none
  | some value => exact lawful visited (some value) ⟨rfl, occurs⟩

/-- The codec is one for the values of a type by themselves, and what it writes for them it reads
    back as something alike. -/
def Codec.LawfulTyped (config : Config) (type : Ty) (among : Value → Prop)
    (alike : Value → Value → Prop) (codec : Codec) : Prop :=
  ∃ write read, codec = Codec.typed type write read ∧
    ∀ value, among value → Buffer.Conveys config (write value) read (alike value)

/-- The resolver supplies one unwrapped type with lawful codecs. -/
structure Resolver.Lawful (schema : Schema) (config : Config) (resolver : Resolver) : Prop where
  even : resolver.Even
  typed : ∃ type, ∀ context, resolver.claims context = true → context.unwrapped = type ∧
    ∀ codec, resolver.make context = .ok codec →
      codec.LawfulTyped config type (Value.Typed schema type) (Value.Alike schema type)

/-- The transform keeps lawful what it wraps: codecs for the present values that can occur at a
    place as well as codecs for all optional ones. -/
structure Transform.Lawful (serializer : Serializer) (transform : Transform) : Prop where
  even : transform.Even
  placed : transform.Keeps (Codec.Placed serializer.schema)
  present : ∀ depth context, transform.applies context = true →
    transform.Keeps (Codec.Lawful serializer depth
      (fun value => value.isSome = true ∧ serializer.Occurs context value)
      (Value.Alike serializer.schema context.unwrapped))
  optional : ∀ depth context, transform.applies context = true →
    transform.Keeps (Codec.Lawful serializer depth (serializer.Occurs context)
      (Value.Alike serializer.schema context.unwrapped))

/-- A lawful resolver supplies codecs that make no contexts. -/
theorem Resolver.Lawful.supplies {schema : Schema} {config : Config} {resolver : Resolver}
    (lawful : resolver.Lawful schema config) : resolver.Supplies (Codec.Placed schema) := by
  intro context codec claimed made
  obtain ⟨type, single⟩ := lawful.typed
  obtain ⟨_, typed⟩ := single context claimed
  obtain ⟨write, read, rfl, _⟩ := typed codec made
  exact Codec.typed_placed schema type write read

/-- The rules that are added to the built-in ones are lawful. -/
structure LawfulRules (schema : Schema) (config : Config) (resolvers : List Resolver)
    (transforms : List Transform) (nesting : Context → Nat) : Prop where
  supply : ∀ resolver ∈ resolvers, resolver.Lawful schema config
  keep : ∀ transform ∈ transforms,
    transform.Lawful (Serializer.build schema config resolvers transforms nesting)
  /-- How deep requests may nest does not depend on values. -/
  steady : ∀ context, nesting context = nesting context.bare

end Wireform
