import Wireform.Proofs.Rules

/-!
# What stands at a site

A site names a place by the type it belongs to. A schema has one description for
each type, so a site determines the declared type and the markers of its place;
`contextAt` computes them. A context is placed if it is at no site, or at one whose
place it agrees with. The engine only makes placed contexts, and so does every
built-in codec. A user codec that makes contexts of its own may break this, and
then codecs of different places can be remembered under one site.
-/

namespace Wireform

variable {α β : Type}

namespace Schema

/-- The context at a site, without a value. A field or a parameter that the
    described type does not have is no place. -/
def contextAt (schema : Schema) (site : Site) : Option Context :=
  match site with
  | .root type => some ((Context.of type).placedAt site)
  | .element type => some ((Context.of type).placedAt site)
  | .key type => some ((Context.of type).placedAt site)
  | .value type => some ((Context.of type).placedAt site)
  | .inner type => some ((Context.of type).placedAt site)
  | .field owner index =>
      match schema.kind owner with
      | .aggregate description =>
          description.fields[index]?.map fun field =>
            (Context.make field.type field.markers).placedAt site
      | _ => none
  | .parameter owner constructor position =>
      match schema.kind owner with
      | .aggregate description =>
          (description.constructors[constructor]?.bind fun way => way.parameters[position]?).map
            fun parameter => (Context.make parameter.type parameter.markers).placedAt site
      | _ => none

end Schema

/-- A context agrees with the place that its site names. -/
def Context.Placed (schema : Schema) (context : Context) : Prop :=
  ∀ site, context.site = some site → schema.contextAt site = some context.bare

/-- A request names placed contexts and aggregates as the schema describes them.
    Resolving a context goes past the memory, so it may be any context. -/
def Request.Placed (schema : Schema) : Request → Prop
  | .encode context => context.Placed schema
  | .decode context => context.Placed schema
  | .encodeFields type description _ => schema.kind type = .aggregate description
  | .decodeFields type description => schema.kind type = .aggregate description
  | _ => True

/-- A program makes only requests that are admitted, whatever they are answered. -/
def Program.Asks (admits : Request → Prop) : Program α → Prop
  | .done _ => True
  | .fail _ => True
  | .ask request next => admits request ∧ ∀ answer, (next answer).Asks admits

namespace Program

variable {admits : Request → Prop}

/-- A succession of programs makes the requests of both. -/
theorem asks_bind (program : Program α) (next : α → Program β) (first : program.Asks admits)
    (second : ∀ result, (next result).Asks admits) : (program >>= next).Asks admits := by
  change (program.bind next).Asks admits
  induction program with
  | done result => exact second result
  | fail error => trivial
  | ask request answered inductionHypothesis =>
      exact ⟨first.1, fun answer => inductionHypothesis answer (first.2 answer)⟩

/-- If every request is admitted, all that a program makes are. -/
theorem asks_anything (program : Program α) (every : ∀ request, admits request) :
    program.Asks admits := by
  induction program with
  | done result => trivial
  | fail error => trivial
  | ask request next inductionHypothesis =>
      exact ⟨every request, fun answer => inductionHypothesis answer⟩

/-- A result or a failure makes no request. -/
theorem asks_lift (outcome : Except Error α) : (lift outcome).Asks admits := by
  cases outcome <;> trivial

/-- A single request is the only one made. -/
theorem asks_perform (request : Request) (admitted : admits request) :
    (perform request).Asks admits :=
  ⟨admitted, asks_lift⟩

/-- Changing the result changes no request. -/
theorem asks_map (change : α → β) (program : Program α) (asks : program.Asks admits) :
    (change <$> program).Asks admits := by
  rw [map_eq_pure_bind]
  exact asks_bind program _ asks fun _ => trivial

/-- A buffer operation looks at the buffer and puts another in its place. -/
theorem asks_buffer (operation : Buffer.Op α) (look : admits .look)
    (replace : ∀ after, admits (.replace after)) : (buffer operation).Asks admits := by
  apply asks_bind _ _ (asks_perform _ look)
  intro before
  split
  · exact asks_bind _ _ (asks_perform _ (replace _)) fun _ => trivial
  · exact asks_bind _ _ (asks_perform _ (replace _)) fun _ => trivial

/-- Encoding values one after another asks for the one context, with each value. -/
theorem asks_encodeEach (context : Context) (items : List Value)
    (admitted : ∀ value, admits (.encode (context.withValue value))) :
    (encodeEach context items).Asks admits := by
  induction items with
  | nil => trivial
  | cons item rest inductionHypothesis =>
      exact asks_bind _ _ (asks_perform _ (admitted item)) fun _ => inductionHypothesis

/-- Decoding values one after another asks for the one context. -/
theorem asks_decodeEach (context : Context) (count : Nat) (collected : List Value)
    (admitted : admits (.decode context)) : (decodeEach context count collected).Asks admits := by
  induction count generalizing collected with
  | zero => trivial
  | succ count inductionHypothesis =>
      exact asks_bind _ _ (asks_perform _ admitted) fun value => inductionHypothesis (value :: collected)

/-- Encoding entries asks for the contexts of keys and of values. -/
theorem asks_encodeEntries (key value : Context) (entries : List (Value × Value))
    (keyAdmitted : ∀ part, admits (.encode (key.withValue part)))
    (valueAdmitted : ∀ part, admits (.encode (value.withValue part))) :
    (encodeEntries key value entries).Asks admits := by
  induction entries with
  | nil => trivial
  | cons entry rest inductionHypothesis =>
      exact asks_bind _ _ (asks_perform _ (keyAdmitted entry.1)) fun _ =>
        asks_bind _ _ (asks_perform _ (valueAdmitted entry.2)) fun _ => inductionHypothesis

/-- Decoding entries asks for the contexts of keys and of values. -/
theorem asks_decodeEntries (key value : Context) (count : Nat) (collected : List (Value × Value))
    (keyAdmitted : admits (.decode key)) (valueAdmitted : admits (.decode value)) :
    (decodeEntries key value count collected).Asks admits := by
  induction count generalizing collected with
  | zero => trivial
  | succ count inductionHypothesis =>
      exact asks_bind _ _ (asks_perform _ keyAdmitted) fun first =>
        asks_bind _ _ (asks_perform _ valueAdmitted) fun second =>
          inductionHypothesis ((first, second) :: collected)

end Program

/-- A codec makes only requests that are admitted, whatever it encodes. -/
structure Codec.Asks (admits : Request → Prop) (codec : Codec) : Prop where
  encode : ∀ value, (codec.encode value).Asks admits
  decode : codec.decode.Asks admits

namespace Codec

/-- If every request is admitted, all that a codec makes are. -/
theorem asks_anything {admits : Request → Prop} (codec : Codec)
    (every : ∀ request, admits request) : codec.Asks admits where
  encode value := (codec.encode value).asks_anything every
  decode := codec.decode.asks_anything every

/-- Refusing an absent value makes no request. -/
theorem asks_presentOnly {admits : Request → Prop} (name : String) (encode : Value → Program Unit)
    (asks : ∀ value, (encode value).Asks admits) (value : Option Value) :
    (presentOnly name encode value).Asks admits := by
  cases value with
  | none => trivial
  | some value => exact asks value

section Asks

variable {admits : Request → Prop} (look : admits .look)
  (replace : ∀ after, admits (.replace after))

include look replace

/-- A codec of one type that needs nothing but the buffer makes no contexts. -/
theorem typed_asks (type : Ty) (write : Value → Buffer.Op Unit) (read : Buffer.Op Value) :
    (typed type write read).Asks admits where
  encode := asks_presentOnly _ _ fun _ =>
    Program.asks_bind _ _ (Program.asks_lift _) fun _ => Program.asks_buffer _ look replace
  decode := Program.asks_map _ _ (Program.asks_buffer _ look replace)

/-- Enumerations make no contexts. -/
theorem enumeration_asks (type : Ty) (names : List String) :
    (enumeration type names).Asks admits where
  encode := asks_presentOnly _ _ fun _ => Program.asks_buffer _ look replace
  decode := Program.asks_map _ _ (Program.asks_buffer _ look replace)

/-- Custom types make no contexts. -/
theorem custom_asks (type : Ty) (format : Custom) : (custom type format).Asks admits where
  encode := asks_presentOnly _ _ fun _ => Program.asks_buffer _ look replace
  decode := Program.asks_map _ _ (Program.asks_buffer _ look replace)

/-- A sequence asks for its elements at the site of their type. -/
theorem stream_asks (type element : Ty) (collect : List Value → Except Error Value)
    (encodes : ∀ item, admits (.encode
      (((Context.of element).placedAt (.element element)).withValue item)))
    (decodes : admits (.decode ((Context.of element).placedAt (.element element)))) :
    (stream type element collect).Asks admits where
  encode := asks_presentOnly _ _ fun _ =>
    Program.asks_bind _ _ (Program.asks_lift _) fun _ =>
      Program.asks_bind _ _ (Program.asks_buffer _ look replace) fun _ =>
        Program.asks_encodeEach _ _ encodes
  decode :=
    Program.asks_bind _ _ (Program.asks_buffer _ look replace) fun _ =>
      Program.asks_bind _ _ (Program.asks_decodeEach _ _ _ decodes) fun _ =>
        Program.asks_map _ _ (Program.asks_lift _)

/-- A map asks for its keys and its values at the sites of their types. -/
theorem map_asks (type key value : Ty)
    (encodesKey : ∀ part, admits (.encode
      (((Context.of key).placedAt (.key key)).withValue part)))
    (decodesKey : admits (.decode ((Context.of key).placedAt (.key key))))
    (encodesValue : ∀ part, admits (.encode
      (((Context.of value).placedAt (.value value)).withValue part)))
    (decodesValue : admits (.decode ((Context.of value).placedAt (.value value)))) :
    (map type key value).Asks admits where
  encode := asks_presentOnly _ _ fun _ =>
    Program.asks_bind _ _ (Program.asks_lift _) fun _ =>
      Program.asks_bind _ _ (Program.asks_buffer _ look replace) fun _ =>
        Program.asks_encodeEntries _ _ _ encodesKey encodesValue
  decode :=
    Program.asks_bind _ _ (Program.asks_buffer _ look replace) fun _ =>
      Program.asks_bind _ _ (Program.asks_decodeEntries _ _ _ _ decodesKey decodesValue) fun _ =>
        Program.asks_map _ _ (Program.asks_lift _)

/-- A presence flag makes no contexts of its own. -/
theorem nullable_asks (inner : Codec) (asks : inner.Asks admits) :
    (nullable inner).Asks admits where
  encode value := Program.asks_bind _ _ (Program.asks_buffer _ look replace) fun _ => by
    cases value with
    | none => trivial
    | some value => exact asks.encode (some value)
  decode := Program.asks_bind _ _ (Program.asks_buffer _ look replace) fun present => by
    cases present with
    | false => trivial
    | true => exact asks.decode

end Asks

section

variable {admits : Request → Prop}

/-- A nested option asks for itself at its inner site. -/
theorem innerOption_asks (type : Ty)
    (encodes : ∀ value, admits (.encode
      (((Context.of type).placedAt (.inner type)).withValue value)))
    (decodes : admits (.decode ((Context.of type).placedAt (.inner type)))) :
    (innerOption type).Asks admits where
  encode := asks_presentOnly _ _ fun value => Program.asks_perform _ (encodes value)
  decode := Program.asks_map _ _ (Program.asks_perform _ decodes)

/-- An aggregate asks for its own fields. -/
theorem aggregate_asks (type : Ty) (description : Aggregate)
    (encodes : ∀ value, admits (.encodeFields type description value))
    (decodes : admits (.decodeFields type description)) :
    (aggregate type description).Asks admits where
  encode := asks_presentOnly _ _ fun value => Program.asks_perform _ (encodes value)
  decode := Program.asks_map _ _ (Program.asks_perform _ decodes)

end

end Codec

/-- A codec asks for placed contexts only, whatever it encodes. -/
structure Codec.Placed (schema : Schema) (codec : Codec) : Prop where
  encode : ∀ value, (codec.encode value).Asks (Request.Placed schema)
  decode : codec.decode.Asks (Request.Placed schema)

namespace Codec

/-- A codec is placed if all requests that it makes are. -/
theorem Asks.placed {schema : Schema} {codec : Codec}
    (asks : codec.Asks (Request.Placed schema)) : codec.Placed schema :=
  ⟨asks.encode, asks.decode⟩

variable (schema : Schema)

/-- A context of a type without markers, at a site that stands for just that. -/
theorem of_placed (type : Ty) (site : Site)
    (stands : schema.contextAt site = some ((Context.of type).placedAt site)) :
    ((Context.of type).placedAt site).Placed schema := by
  intro actual placed
  cases placed
  exact stands

/-- A codec of one type that needs nothing but the buffer asks for no place. -/
theorem typed_placed (type : Ty) (write : Value → Buffer.Op Unit) (read : Buffer.Op Value) :
    (typed type write read).Placed schema :=
  (typed_asks trivial (fun _ => trivial) type write read).placed

/-- Every built-in codec asks for placed contexts only. -/
theorem builtin_placed : Builtin schema (Codec.Placed schema) where
  leaf _ := typed_placed schema _ _ _
  octetVector := typed_placed schema _ _ _
  enumeration type names := (enumeration_asks trivial (fun _ => trivial) type names).placed
  map type key value :=
    (map_asks trivial (fun _ => trivial) type key value (fun _ => of_placed schema key _ rfl)
      (of_placed schema key _ rfl) (fun _ => of_placed schema value _ rfl)
      (of_placed schema value _ rfl)).placed
  stream type element collect :=
    (stream_asks trivial (fun _ => trivial) type element collect
      (fun _ => of_placed schema element _ rfl) (of_placed schema element _ rfl)).placed
  innerOption type :=
    (innerOption_asks type (fun _ => of_placed schema type _ rfl)
      (of_placed schema type _ rfl)).placed
  aggregate type description described :=
    (aggregate_asks type description (fun _ => described) described).placed
  custom type format _ := (custom_asks trivial (fun _ => trivial) type format).placed
  nullable inner placed :=
    (nullable_asks trivial (fun _ => trivial) inner ⟨placed.encode, placed.decode⟩).placed

end Codec

end Wireform
