import Wireform.Proofs.Learning
import Wireform.Proofs.Shape

/-!
# The sites of finitely many types

A description names further types: those of fields and of parameters, and the element types
that their markers give. A list of types is closed if it holds all that its types name. Every
type is in such a list, because a schema has finitely many descriptions.

Each type has finitely many sites inside it, and what a built-in codec asks for below a place of
a type stands at one of these. So with a closed list of types, walks that start with one of them
do not leave it, and the only sites at which they remember codecs are those inside of its types
and those of its types as roots. Values have no part in this.
-/

namespace Wireform

/-- The element types that markers give. -/
def Marker.elements (markers : List Marker) : List Ty :=
  markers.filterMap fun marker =>
    match marker with
    | .streamable element => some element
    | _ => none

namespace Marker

/-- The element types are those of the streamable markers. -/
theorem mem_elements {markers : List Marker} {element : Ty} :
    element ∈ elements markers ↔ .streamable element ∈ markers := by
  unfold elements
  rw [List.mem_filterMap]
  constructor
  · rintro ⟨marker, listed, gives⟩
    cases marker with
    | streamable other => cases gives; exact listed
    | _ => cases gives
  · exact fun listed => ⟨_, listed, rfl⟩

/-- The marker for a stripped option gives no element type. -/
theorem mem_elements_make {declared element : Ty} {markers : List Marker} :
    element ∈ elements (Context.make declared markers).markers ↔ element ∈ elements markers := by
  rw [mem_elements, mem_elements]
  unfold Context.make
  split
  · simp
  · rfl

end Marker

/-! ## Closed lists of types -/

/-- The types that the description of an aggregate names. -/
def Aggregate.named (description : Aggregate) : List Ty :=
  (description.fields.flatMap fun field => field.type :: Marker.elements field.markers)
    ++ description.constructors.flatMap fun constructor =>
      constructor.parameters.flatMap fun parameter =>
        parameter.type :: Marker.elements parameter.markers

namespace Aggregate

variable {description : Aggregate}

/-- The type of a field is named, and so are the element types of its markers. -/
theorem mem_named_of_field {field : Field} (listed : field ∈ description.fields) {type : Ty}
    (names : type ∈ field.type :: Marker.elements field.markers) : type ∈ description.named :=
  List.mem_append_left _ (List.mem_flatMap.mpr ⟨field, listed, names⟩)

/-- The type of a parameter is named, and so are the element types of its markers. -/
theorem mem_named_of_parameter {constructor : Constructor}
    (known : constructor ∈ description.constructors) {parameter : Parameter}
    (listed : parameter ∈ constructor.parameters) {type : Ty}
    (names : type ∈ parameter.type :: Marker.elements parameter.markers) :
    type ∈ description.named :=
  List.mem_append_right _ (List.mem_flatMap.mpr
    ⟨constructor, known, List.mem_flatMap.mpr ⟨parameter, listed, names⟩⟩)

end Aggregate

namespace Schema

variable {schema : Schema} {types : List Ty}

/-- The types that a type names next. -/
def involved (schema : Schema) (type : Ty) : List Ty :=
  match schema.kind type with
  | .nullable inner => [inner]
  | .pointer inner => [inner]
  | .sequence item => item.toList
  | .map key value => [key, value]
  | .aggregate description => description.named
  | _ => []

/-- The types name no others. -/
def Closed (schema : Schema) (types : List Ty) : Prop :=
  ∀ type ∈ types, ∀ part ∈ schema.involved type, part ∈ types

/-- What is below stripped layers is among the types of a closed list. -/
theorem Closed.peel (closed : schema.Closed types) {type : Ty} (among : type ∈ types)
    (stripped : Bool) : (type.peel stripped).2 ∈ types := by
  induction type generalizing stripped with
  | option inner inductionHypothesis =>
      cases stripped with
      | false => exact inductionHypothesis (closed _ among inner List.mem_cons_self) true
      | true => exact among
  | boxed inner inductionHypothesis =>
      have below := closed _ among inner List.mem_cons_self
      cases stripped with
      | false => exact inductionHypothesis below false
      | true => exact inductionHypothesis below true
  | _ => cases stripped <;> exact among

/-- The unwrapped type is among the types of a closed list. -/
theorem Closed.unwrapped (closed : schema.Closed types) {type : Ty} (among : type ∈ types) :
    type.unwrapped ∈ types :=
  closed.peel among false

/-- What an aggregate names is among the types of a closed list. -/
theorem Closed.named (closed : schema.Closed types) {type : Ty} (among : type ∈ types)
    {description : Aggregate} (described : schema.kind type = .aggregate description) {part : Ty}
    (names : part ∈ description.named) : part ∈ types := by
  refine closed type among part ?_
  simpa only [involved, described] using names

end Schema

/-- The type and all that its expression is built from. -/
def Ty.spelled : Ty → List Ty
  | .option inner => .option inner :: inner.spelled
  | .boxed inner => .boxed inner :: inner.spelled
  | .sequence kind element => .sequence kind element :: element.spelled
  | .map kind key value => .map kind key value :: (key.spelled ++ value.spelled)
  | type => [type]

namespace Ty

/-- A type is built from itself. -/
theorem mem_spelled_self (type : Ty) : type ∈ type.spelled := by
  cases type <;> exact List.mem_cons_self

/-- What a part is built from the whole is built from. -/
theorem mem_spelled_trans {whole type part : Ty} (first : type ∈ whole.spelled)
    (second : part ∈ type.spelled) : part ∈ whole.spelled := by
  induction whole with
  | option inner inductionHypothesis
  | boxed inner inductionHypothesis
  | sequence kind inner inductionHypothesis =>
      rcases List.mem_cons.mp first with rfl | below
      · exact second
      · exact List.mem_cons_of_mem _ (inductionHypothesis below)
  | map kind key value keys values =>
      rcases List.mem_cons.mp first with rfl | below
      · exact second
      · refine List.mem_cons_of_mem _ (List.mem_append.mpr ?_)
        exact (List.mem_append.mp below).imp keys values
  | leaf plain => cases List.mem_singleton.mp first; exact second
  | named name => cases List.mem_singleton.mp first; exact second
  | applied name argument => cases List.mem_singleton.mp first; exact second

end Ty

namespace Schema

variable {schema : Schema} {types : List Ty}

/-- The types that the descriptions of a schema name, with all that they are built from. -/
def vocabulary (schema : Schema) : List Ty :=
  schema.entries.flatMap fun entry =>
    match entry.definition with
    | .aggregate description => description.named.flatMap Ty.spelled
    | _ => []

/-- What a described type names is in the vocabulary, with all that it is built from. -/
theorem mem_vocabulary {type : Ty} {description : Aggregate}
    (described : schema.kind type = .aggregate description) {part : Ty}
    (names : part ∈ description.named) : part ∈ schema.vocabulary := by
  have told : (schema.kind type).definition? = some (.aggregate description) := by
    rw [described]
    rfl
  obtain ⟨entry, found, same⟩ := schema.entry_of_kind type _ told
  refine List.mem_flatMap.mpr ⟨entry, List.mem_of_find?_eq_some found, ?_⟩
  simp only [same]
  exact List.mem_flatMap.mpr ⟨part, names, part.mem_spelled_self⟩

/-- The vocabulary holds all that its types are built from. -/
theorem mem_vocabulary_of_spelled {type part : Ty} (among : type ∈ schema.vocabulary)
    (spelled : part ∈ type.spelled) : part ∈ schema.vocabulary := by
  obtain ⟨entry, listed, tells⟩ := List.mem_flatMap.mp among
  refine List.mem_flatMap.mpr ⟨entry, listed, ?_⟩
  cases told : entry.definition with
  | aggregate description =>
      simp only [told] at tells
      obtain ⟨whole, names, built⟩ := List.mem_flatMap.mp tells
      exact List.mem_flatMap.mpr ⟨whole, names, Ty.mem_spelled_trans built spelled⟩
  | _ => simp [told] at tells

/-- A type names what its expression is built from, or what its description names. -/
theorem involved_cases {type part : Ty} (names : part ∈ schema.involved type) :
    part ∈ type.spelled ∨
      ∃ description, schema.kind type = .aggregate description ∧ part ∈ description.named := by
  unfold involved at names
  split at names
  · next inner described =>
      cases List.mem_singleton.mp names
      rw [schema.kind_nullable type part described]
      exact .inl (List.mem_cons_of_mem _ part.mem_spelled_self)
  · next inner described =>
      cases List.mem_singleton.mp names
      rw [schema.kind_pointer type part described]
      exact .inl (List.mem_cons_of_mem _ part.mem_spelled_self)
  · next item described =>
      cases item with
      | none => cases names
      | some element =>
          cases List.mem_singleton.mp names
          obtain ⟨kind, rfl⟩ := schema.kind_sequence type part described
          exact .inl (List.mem_cons_of_mem _ part.mem_spelled_self)
  · next key value described =>
      obtain ⟨kind, rfl⟩ := schema.kind_map type key value described
      refine .inl (List.mem_cons_of_mem _ (List.mem_append.mpr ?_))
      rcases List.mem_cons.mp names with rfl | other
      · exact .inl part.mem_spelled_self
      · cases List.mem_singleton.mp other
        exact .inr part.mem_spelled_self
  · next description described => exact .inr ⟨description, described, names⟩
  · cases names

/-- All types that are built from given ones, and the vocabulary, are a closed list. -/
theorem exists_closed (schema : Schema) (types : List Ty) :
    ∃ whole, schema.Closed whole ∧ ∀ type ∈ types, type ∈ whole := by
  refine ⟨types.flatMap Ty.spelled ++ schema.vocabulary, ?_, fun type among =>
    List.mem_append_left _ (List.mem_flatMap.mpr ⟨type, among, type.mem_spelled_self⟩)⟩
  intro type among part names
  rcases involved_cases names with built | ⟨description, described, named⟩
  · rcases List.mem_append.mp among with given | known
    · obtain ⟨root, listed, spelled⟩ := List.mem_flatMap.mp given
      exact List.mem_append_left _
        (List.mem_flatMap.mpr ⟨root, listed, Ty.mem_spelled_trans spelled built⟩)
    · exact List.mem_append_right _ (mem_vocabulary_of_spelled known built)
  · exact List.mem_append_right _ (mem_vocabulary described named)

end Schema

/-! ## Sites -/

/-- The sites of the elements that markers give. -/
def Marker.sites (markers : List Marker) : List Site := (elements markers).map .element

/-- The sites of the fields of an aggregate and of the parameters of its constructors. -/
def Aggregate.sites (owner : Ty) (description : Aggregate) : List Site :=
  (description.fields.zipIdx.flatMap fun (field, index) =>
      .field owner index :: Marker.sites field.markers)
    ++ description.constructors.zipIdx.flatMap fun (constructor, index) =>
      constructor.parameters.zipIdx.flatMap fun (parameter, position) =>
        .parameter owner index position :: Marker.sites parameter.markers

namespace Aggregate

variable {owner : Ty} {description : Aggregate}

/-- A field has a site, and so have the elements that its markers give. -/
theorem mem_sites_of_field {index : Nat} {field : Field}
    (listed : description.fields[index]? = some field) {site : Site}
    (stands : site ∈ .field owner index :: Marker.sites field.markers) :
    site ∈ description.sites owner :=
  List.mem_append_left _ (List.mem_flatMap.mpr
    ⟨(field, index), List.mem_zipIdx_iff_getElem?.mpr listed, stands⟩)

/-- A parameter has a site, and so have the elements that its markers give. -/
theorem mem_sites_of_parameter {index position : Nat} {constructor : Constructor}
    (known : description.constructors[index]? = some constructor) {parameter : Parameter}
    (listed : constructor.parameters[position]? = some parameter) {site : Site}
    (stands : site ∈ .parameter owner index position :: Marker.sites parameter.markers) :
    site ∈ description.sites owner :=
  List.mem_append_right _ (List.mem_flatMap.mpr
    ⟨(constructor, index), List.mem_zipIdx_iff_getElem?.mpr known,
      List.mem_flatMap.mpr ⟨(parameter, position), List.mem_zipIdx_iff_getElem?.mpr listed, stands⟩⟩)

end Aggregate

namespace Schema

/-- The sites inside of a type. -/
def sitesIn (schema : Schema) (type : Ty) : List Site :=
  match schema.kind type with
  | .sequence item => item.toList.map .element
  | .map key value => [.key key, .value value]
  | .nullable _ => [.inner type]
  | .aggregate description => description.sites type
  | _ => []

/-- The sites of types as roots and those inside of them. -/
def sites (schema : Schema) (types : List Ty) : List Site :=
  types.map .root ++ types.flatMap schema.sitesIn

variable {schema : Schema} {types : List Ty}

/-- A type has a site as a root. -/
theorem root_mem_sites {type : Ty} (among : type ∈ types) : .root type ∈ schema.sites types :=
  List.mem_append_left _ (List.mem_map_of_mem among)

/-- A site inside of one of the types is a site of the types. -/
theorem mem_sites {type : Ty} (among : type ∈ types) {site : Site}
    (inside : site ∈ schema.sitesIn type) : site ∈ schema.sites types :=
  List.mem_append_right _ (List.mem_flatMap.mpr ⟨type, among, inside⟩)

/-- A site of an aggregate is a site of the types that it is among. -/
theorem mem_sites_of_aggregate {type : Ty} (among : type ∈ types) {description : Aggregate}
    (described : schema.kind type = .aggregate description) {site : Site}
    (inside : site ∈ description.sites type) : site ∈ schema.sites types := by
  refine mem_sites among ?_
  simpa only [sitesIn, described] using inside

end Schema

/-! ## Contexts -/

/-- The context names none but the given types, and its site, if it has one, is one of theirs. -/
structure Context.Within (schema : Schema) (types : List Ty) (context : Context) : Prop where
  declared : context.declared ∈ types
  elements : ∀ element ∈ Marker.elements context.markers, element ∈ types
  sites : ∀ site ∈ Marker.sites context.markers, site ∈ schema.sites types
  placed : ∀ site, context.site = some site → site ∈ schema.sites types

/-- The request names none but contexts within the given types, and takes apart none but described
    aggregates among them. -/
def Request.Within (schema : Schema) (types : List Ty) : Request → Prop
  | .encode context => context.Within schema types
  | .decode context => context.Within schema types
  | .encodeFields type description _ => type ∈ types ∧ schema.kind type = .aggregate description
  | .decodeFields type description => type ∈ types ∧ schema.kind type = .aggregate description
  | .encodeResolved _ _ => False
  | .decodeResolved _ => False
  | _ => True

namespace Context

variable {schema : Schema} {types : List Ty}

/-- Values have no part in it. -/
theorem Within.withValue {context : Context} (within : context.Within schema types)
    (value : Value) : (context.withValue value).Within schema types :=
  ⟨within.declared, within.elements, within.sites, within.placed⟩

/-- The context of a place whose type, markers and site belong to the types. -/
theorem within_make {declared : Ty} {markers : List Marker} {site : Site}
    (among : declared ∈ types) (elements : ∀ element ∈ Marker.elements markers, element ∈ types)
    (sites : ∀ site ∈ Marker.sites markers, site ∈ schema.sites types)
    (stands : site ∈ schema.sites types) :
    ((make declared markers).placedAt site).Within schema types where
  declared := among
  elements element gives := elements element (Marker.mem_elements_make.mp gives)
  sites other gives := by
    obtain ⟨element, given, rfl⟩ := List.mem_map.mp gives
    exact sites _ (List.mem_map_of_mem (Marker.mem_elements_make.mp given))
  placed other same := by
    cases same
    exact stands

/-- The context of a type without markers at one of the sites. -/
theorem within_of {declared : Ty} {site : Site} (among : declared ∈ types)
    (stands : site ∈ schema.sites types) :
    ((Context.of declared).placedAt site).Within schema types :=
  within_make among (fun _ gives => by cases gives) (fun _ gives => by cases gives) stands

/-- The root of one of the types. -/
theorem within_root {type : Ty} (among : type ∈ types) (value : Option Value) :
    (Serializer.root type value).Within schema types := by
  have bare : ((Context.of type).placedAt (.root type)).Within schema types :=
    within_of among (Schema.root_mem_sites among)
  exact ⟨bare.declared, bare.elements, bare.sites, bare.placed⟩

variable (closed : schema.Closed types) {owner : Ty} (among : owner ∈ types)
  {description : Aggregate} (described : schema.kind owner = .aggregate description)

include closed among described

/-- A field of an aggregate among the types. -/
theorem within_field {index : Nat} {field : Field}
    (listed : description.fields[index]? = some field) :
    (Aggregate.fieldContext owner index field).Within schema types := by
  have known := List.mem_of_getElem? listed
  refine within_make ?_ ?_ ?_ ?_
  · exact closed.named among described (Aggregate.mem_named_of_field known List.mem_cons_self)
  · exact fun element gives => closed.named among described
      (Aggregate.mem_named_of_field known (List.mem_cons_of_mem _ gives))
  · exact fun site gives => Schema.mem_sites_of_aggregate among described
      (Aggregate.mem_sites_of_field listed (List.mem_cons_of_mem _ gives))
  · exact Schema.mem_sites_of_aggregate among described
      (Aggregate.mem_sites_of_field listed List.mem_cons_self)

/-- A parameter of a constructor of an aggregate among the types. -/
theorem within_parameter {index position : Nat} {constructor : Constructor}
    (known : description.constructors[index]? = some constructor) {parameter : Parameter}
    (listed : constructor.parameters[position]? = some parameter) :
    (Aggregate.parameterContext owner index position parameter).Within schema types := by
  have maker := List.mem_of_getElem? known
  have taken := List.mem_of_getElem? listed
  refine within_make ?_ ?_ ?_ ?_
  · exact closed.named among described
      (Aggregate.mem_named_of_parameter maker taken List.mem_cons_self)
  · exact fun element gives => closed.named among described
      (Aggregate.mem_named_of_parameter maker taken (List.mem_cons_of_mem _ gives))
  · exact fun site gives => Schema.mem_sites_of_aggregate among described
      (Aggregate.mem_sites_of_parameter known listed (List.mem_cons_of_mem _ gives))
  · exact Schema.mem_sites_of_aggregate among described
      (Aggregate.mem_sites_of_parameter known listed List.mem_cons_self)

end Context

/-- The codec of a shape asks for nothing beyond the types that its context is within. -/
theorem Shape.asks_within {schema : Schema} {types : List Ty} (closed : schema.Closed types)
    (context : Context) (within : context.Within schema types) (shape : Shape)
    (fits : shape.Fits schema context.unwrapped context.streamableElement) :
    (shape.codec schema context.unwrapped).Asks (Request.Within schema types) := by
  have among : context.unwrapped ∈ types := closed.unwrapped within.declared
  have part (type : Ty) (site : Site) (names : type ∈ types) (stands : site ∈ schema.sites types)
      (value : Value) : (((Context.of type).placedAt site).withValue value).Within schema types :=
    (Context.within_of names stands).withValue value
  cases shape with
  | leaf plain => exact Codec.typed_asks trivial (fun _ => trivial) _ _ _
  | octets => exact Codec.typed_asks trivial (fun _ => trivial) _ _ _
  | enumeration names => exact Codec.enumeration_asks trivial (fun _ => trivial) _ _
  | custom format => exact Codec.custom_asks trivial (fun _ => trivial) _ _
  | sequence element =>
      obtain ⟨_, declared, described, chosen⟩ := fits
      have known : element ∈ types ∧ .element element ∈ schema.sites types := by
        cases marked : context.streamableElement with
        | some given =>
            rw [marked] at chosen
            cases chosen
            have gives : element ∈ Marker.elements context.markers :=
              Marker.mem_elements.mpr (Marker.streamable_of_element? context.markers element marked)
            exact ⟨within.elements element gives, within.sites _ (List.mem_map_of_mem gives)⟩
        | none =>
            rw [marked] at chosen
            cases chosen
            constructor
            · exact closed _ among element (by simp [Schema.involved, described])
            · exact Schema.mem_sites among (by simp [Schema.sitesIn, described])
      exact Codec.stream_asks trivial (fun _ => trivial) _ element _
        (part element _ known.1 known.2) (Context.within_of known.1 known.2)
  | map key value =>
      have described : schema.kind context.unwrapped = .map key value := fits
      have keyNamed := closed _ among key (by simp [Schema.involved, described])
      have valueNamed := closed _ among value (by simp [Schema.involved, described])
      have keyStands : .key key ∈ schema.sites types :=
        Schema.mem_sites among (by simp [Schema.sitesIn, described])
      have valueStands : .value value ∈ schema.sites types :=
        Schema.mem_sites among (by simp [Schema.sitesIn, described])
      exact Codec.map_asks trivial (fun _ => trivial) _ key value
        (part key _ keyNamed keyStands) (Context.within_of keyNamed keyStands)
        (part value _ valueNamed valueStands) (Context.within_of valueNamed valueStands)
  | nested =>
      obtain ⟨inner, option⟩ := fits
      have stands : .inner context.unwrapped ∈ schema.sites types := by
        refine Schema.mem_sites among ?_
        rw [option]
        exact List.mem_cons_self
      exact Codec.innerOption_asks _ (part _ _ among stands) (Context.within_of among stands)
  | aggregate description =>
      exact Codec.aggregate_asks _ description (fun _ => ⟨among, fits⟩) ⟨among, fits⟩

namespace Serializer

variable {schema : Schema} {types : List Ty}

/-- The codec that the built-in rules make for a context asks for nothing beyond the types that the
    context is within. -/
theorem asks_within (closed : schema.Closed types) (config : Config) (context : Context)
    (within : context.Within schema types) (codec : Codec)
    (made : (build schema config).freshCodec context = .ok codec) :
    codec.Asks (Request.Within schema types) := by
  rw [freshCodec_build] at made
  cases shaped : schema.shape context.unwrapped context.streamableElement with
  | error error => rw [shaped] at made; cases made
  | ok shape =>
      rw [shaped] at made
      cases made
      have asks := Shape.asks_within closed context within shape (schema.fits_of_shape _ _ shape shaped)
      unfold Codec.flagged
      split
      · exact Codec.nullable_asks trivial (fun _ => trivial) _ asks
      · exact asks

/-- The memory holds codecs at sites of the given types only, which ask for nothing beyond them. -/
structure Knows (schema : Schema) (types : List Ty) (memory : Memory) : Prop where
  sites : ∀ entry ∈ memory.cache, entry.1 ∈ schema.sites types
  codecs : ∀ entry ∈ memory.cache, entry.2.Asks (Request.Within schema types)

/-- Without rules of a user's for contexts of the given types, walks stay within them. -/
theorem confines_within {serializer : Serializer} (closed : serializer.schema.Closed types)
    (ordinary : ∀ context, context.Within serializer.schema types →
      serializer.freshCodec context
        = (build serializer.schema serializer.config).freshCodec context) :
    serializer.Confines (Knows serializer.schema types)
      (Request.Within serializer.schema types) where
  reports memory type depth knows := ⟨knows.sites, knows.codecs⟩
  codecs context admitted := by
    have within : context.Within serializer.schema types := admitted.elim id id
    intro state knows
    rcases serializer.codecFor_cases context state with
      ⟨site, codec, -, hit, same⟩ | ⟨error, -, same⟩ | ⟨codec, memory, made, -, grown, same⟩
    · rw [same]
      obtain ⟨entry, listed, own⟩ := Option.map_eq_some_iff.mp hit
      cases own
      exact ⟨knows, knows.codecs entry (List.mem_of_find?_eq_some listed)⟩
    · rw [same]
      exact knows
    · rw [same]
      have asks := asks_within closed serializer.config context within codec
        ((ordinary context within).symm.trans made)
      refine ⟨?_, asks⟩
      rcases grown with kept | ⟨site, placed, added⟩
      · exact ⟨kept ▸ knows.sites, kept ▸ knows.codecs⟩
      · constructor
        · simp only [added, List.forall_mem_cons]
          exact ⟨within.placed site placed, knows.sites⟩
        · simp only [added, List.forall_mem_cons]
          exact ⟨asks, knows.codecs⟩
  resolved _ _ admitted _ := by
    rcases admitted with ⟨value, impossible⟩ | impossible
    · exact impossible.elim
    · exact impossible.elim
  encodesFields _ _ _ admitted _ _ listed child :=
    (Context.within_field closed admitted.1 admitted.2 listed).withValue child
  decodesFields _ _ admitted _ _ listed :=
    Context.within_field closed admitted.1 admitted.2 listed
  decodesParameters _ _ admitted _ _ known _ _ listed :=
    Context.within_parameter closed admitted.1 admitted.2 known listed

end Serializer

end Wireform
