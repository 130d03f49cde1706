import Wireform.Proofs.Ways

/-!
# Candid codecs

A program is candid if it lets failures pass: what fails in it is either a request, which it
reports as it is, or work of its own, and then for a bare cause. Run with its requests traced, it is
traced itself. The built-in codecs are candid, and with them every codec that a schema gives
rise to, as long as custom formats report bare causes. A codec that looked at the failure of a
request and reported another one in its place would not be.
-/

namespace Wireform

variable {α β : Type}

/-- Requests are traced as they are answered, and buffers are shown and replaced as asked. -/
structure Request.Traced (schema : Schema) (way : Way)
    (trace : (request : Request) → Step Scene request.Answer)
    (answer : (request : Request) → Buffer.Op request.Answer) : Prop where
  looks : ∀ scene, trace .look scene = .ok scene.buffer scene
  replaces : ∀ buffer scene, trace (.replace buffer) scene = .ok () { scene with buffer := buffer }
  look : ∀ buffer, answer .look buffer = .ok buffer buffer
  replace : ∀ before after, answer (.replace after) before = .ok () after
  others : ∀ request, request.ofBuffer = false → request.Ordinary schema →
    Traces schema way (trace request) (answer request)

/-- Wherever its requests are traced as they are answered, the program is traced as it runs. -/
def Program.Candid (schema : Schema) (program : Program α) : Prop :=
  ∀ way trace answer, way.Leads schema → Request.Traced schema way trace answer →
    Traces schema way (program.run trace) (program.run answer)

namespace Program

variable {schema : Schema}

/-- Work on the buffer is done on the buffer of the scene. -/
theorem run_buffer_scene (trace : (request : Request) → Step Scene request.Answer)
    (looks : ∀ scene, trace .look scene = .ok scene.buffer scene)
    (replaces : ∀ buffer scene,
      trace (.replace buffer) scene = .ok () { scene with buffer := buffer })
    (operation : Buffer.Op α) : (buffer operation).run trace = Scene.work operation := by
  funext before
  exact run_buffer_within trace Scene.buffer (fun buffer scene => { scene with buffer := buffer })
    looks replaces operation before

/-- A result. -/
theorem candid_pure (result : α) : (pure result : Program α).Candid schema :=
  fun _ _ _ _ _ => .pure result

/-- A failure for a bare cause. -/
theorem candid_fail {error : Error} (bare : error.Bare) :
    (fail error : Program α).Candid schema :=
  fun way _ _ leads _ => .fail (.bare way error leads bare)

/-- A known outcome. -/
theorem candid_lift {outcome : Except Error α} (bare : Error.BareIn outcome) :
    (lift outcome).Candid schema := by
  cases outcome with
  | ok result => exact candid_pure result
  | error error => exact candid_fail (bare error rfl)

/-- One program after another. -/
theorem candid_bind {program : Program α} {next : α → Program β} (first : program.Candid schema)
    (second : ∀ result, (next result).Candid schema) : (program >>= next).Candid schema := by
  intro way trace answer leads traced
  rw [run_bind, run_bind]
  exact (first way trace answer leads traced).bind fun result =>
    second result way trace answer leads traced

/-- Changing the result. -/
theorem candid_map {program : Program α} (change : α → β) (candid : program.Candid schema) :
    (change <$> program).Candid schema := by
  intro way trace answer leads traced
  rw [run_map, run_map]
  exact (candid way trace answer leads traced).map change

/-- An ordinary request that is not about the buffer itself. -/
theorem candid_perform (request : Request) (other : request.ofBuffer = false)
    (ordinary : request.Ordinary schema) : (perform request).Candid schema := by
  intro way trace answer leads traced
  rw [run_perform, run_perform]
  exact traced.others request other ordinary

/-- Work on the buffer. -/
theorem candid_buffer {operation : Buffer.Op α} (bare : Buffer.Bare operation) :
    (buffer operation).Candid schema := by
  intro way trace answer leads traced
  rw [run_buffer_scene trace traced.looks traced.replaces,
    run_buffer answer traced.look traced.replace]
  exact .work leads bare

/-- Encoding values one after another. -/
theorem candid_encodeEach (context : Context) (items : List Value) :
    (encodeEach context items).Candid schema := by
  induction items with
  | nil => exact candid_pure ()
  | cons item rest inductionHypothesis =>
      exact candid_bind (candid_perform _ rfl trivial) fun _ => inductionHypothesis

/-- Decoding values one after another. -/
theorem candid_decodeEach (context : Context) (count : Nat) (collected : List Value) :
    (decodeEach context count collected).Candid schema := by
  induction count generalizing collected with
  | zero => exact candid_pure _
  | succ count inductionHypothesis =>
      exact candid_bind (candid_perform _ rfl trivial) fun value =>
        inductionHypothesis (value :: collected)

/-- Encoding entries one after another. -/
theorem candid_encodeEntries (key value : Context) (entries : List (Value × Value)) :
    (encodeEntries key value entries).Candid schema := by
  induction entries with
  | nil => exact candid_pure ()
  | cons entry rest inductionHypothesis =>
      exact candid_bind (candid_perform _ rfl trivial) fun _ =>
        candid_bind (candid_perform _ rfl trivial) fun _ => inductionHypothesis

/-- Decoding entries one after another. -/
theorem candid_decodeEntries (key value : Context) (count : Nat)
    (collected : List (Value × Value)) :
    (decodeEntries key value count collected).Candid schema := by
  induction count generalizing collected with
  | zero => exact candid_pure _
  | succ count inductionHypothesis =>
      exact candid_bind (candid_perform _ rfl trivial) fun first =>
        candid_bind (candid_perform _ rfl trivial) fun second =>
          inductionHypothesis ((first, second) :: collected)

end Program

/-- The codec neither encodes nor decodes without being candid about failures. -/
structure Codec.Candid (schema : Schema) (codec : Codec) : Prop where
  encode : ∀ value, (codec.encode value).Candid schema
  decode : codec.decode.Candid schema

namespace Codec

variable {schema : Schema}

/-- Refusing an absent value. -/
theorem candid_presentOnly (name : String) {encode : Value → Program Unit}
    (candid : ∀ value, (encode value).Candid schema) (value : Option Value) :
    (presentOnly name encode value).Candid schema := by
  cases value with
  | none => exact Program.candid_fail trivial
  | some value => exact candid value

/-- A codec that works on the buffer alone. -/
theorem typed_candid (type : Ty) {write : Value → Buffer.Op Unit} {read : Buffer.Op Value}
    (writes : ∀ value, Buffer.Bare (write value)) (reads : Buffer.Bare read) :
    (typed type write read).Candid schema where
  encode := candid_presentOnly _ fun value =>
    Program.candid_bind (Program.candid_lift (value.bareIn_expect type)) fun checked =>
      Program.candid_buffer (writes checked)
  decode := Program.candid_map some (Program.candid_buffer reads)

/-- Vectors of octets. -/
theorem octetVector_candid : octetVector.Candid schema := by
  refine typed_candid _ (fun value => ?_) ?_
  · split
    · exact Buffer.bare_writeBytes _
    · exact Buffer.bare_fail trivial
  · exact Buffer.bare_bind Buffer.bare_readBytes fun _ => Buffer.bare_pure _

/-- Enumerations. -/
theorem enumeration_candid (type : Ty) (names : List String) :
    (enumeration type names).Candid schema where
  encode := candid_presentOnly _ fun value =>
    Program.candid_buffer (Enumeration.bare_write type names value)
  decode := Program.candid_map some (Program.candid_buffer (Enumeration.bare_read type names))

/-- Sequences that are collected as the schema says. -/
theorem stream_candid (type element : Ty) :
    (stream type element (schema.collect type)).Candid schema where
  encode := candid_presentOnly _ fun value =>
    Program.candid_bind (Program.candid_lift (value.bareIn_items type)) fun items =>
      Program.candid_bind (Program.candid_buffer (Buffer.bare_writeLongLength _)) fun _ =>
        Program.candid_encodeEach _ items
  decode :=
    Program.candid_bind
      (Program.candid_buffer (Buffer.bare_limits fun _ => Buffer.bare_readLongLength _))
      fun count => Program.candid_bind (Program.candid_decodeEach _ count []) fun items =>
        Program.candid_map some (Program.candid_lift (schema.bareIn_collect type items))

/-- Maps. -/
theorem map_candid (type key value : Ty) : (map type key value).Candid schema where
  encode := candid_presentOnly _ fun whole =>
    Program.candid_bind (Program.candid_lift (whole.bareIn_entries type)) fun entries =>
      Program.candid_bind (Program.candid_buffer (Buffer.bare_writeLength _)) fun _ =>
        Program.candid_encodeEntries _ _ entries
  decode :=
    Program.candid_bind
      (Program.candid_buffer (Buffer.bare_limits fun _ => Buffer.bare_readLength _))
      fun count => Program.candid_bind (Program.candid_decodeEntries _ _ count []) fun entries =>
        Program.candid_map some (Program.candid_lift (Schema.bareIn_collectEntries type entries))

/-- Options below options. -/
theorem innerOption_candid (type : Ty) : (innerOption type).Candid schema where
  encode := candid_presentOnly _ fun _ => Program.candid_perform _ rfl trivial
  decode := Program.candid_map some (Program.candid_perform _ rfl trivial)

/-- Aggregates as they are described. -/
theorem aggregate_candid (type : Ty) (description : Aggregate)
    (described : schema.kind type = .aggregate description) :
    (aggregate type description).Candid schema where
  encode := candid_presentOnly _ fun _ => Program.candid_perform _ rfl described
  decode := Program.candid_map some (Program.candid_perform _ rfl described)

/-- A custom type whose format reports bare causes. -/
theorem custom_candid (type : Ty) (format : Custom) (bare : format.Bare) :
    (custom type format).Candid schema where
  encode := candid_presentOnly _ fun value => by
    refine Program.candid_buffer ?_
    unfold Custom.writeValue
    split
    · exact bare.write value
    · exact Buffer.bare_fail trivial
  decode := Program.candid_map some (Program.candid_buffer bare.read)

/-- A presence flag. -/
theorem nullable_candid {inner : Codec} (candid : inner.Candid schema) :
    (nullable inner).Candid schema where
  encode value := Program.candid_bind (Program.candid_buffer (Buffer.bare_append _)) fun _ => by
    cases value with
    | none => exact Program.candid_pure ()
    | some value => exact candid.encode (some value)
  decode := Program.candid_bind (Program.candid_buffer Buffer.bare_readBool) fun present => by
    cases present with
    | false => exact Program.candid_pure none
    | true => exact candid.decode

end Codec

namespace Serializer

variable {schema : Schema}
  (formats : ∀ type format, schema.kind type = .custom format → format.Bare)

include formats

/-- The codec of every shape that a type has. -/
theorem candid_codec (type : Ty) (marked : Option Ty) (shape : Shape)
    (fits : shape.Fits schema type marked) : (shape.codec schema type).Candid schema := by
  cases shape with
  | leaf plain =>
      exact Codec.typed_candid _ plain.bare_writeValue
        (Buffer.bare_bind plain.bare_read fun _ => Buffer.bare_pure _)
  | octets => exact Codec.octetVector_candid
  | enumeration names => exact Codec.enumeration_candid type names
  | sequence element => exact Codec.stream_candid type element
  | map key value => exact Codec.map_candid type key value
  | nested => exact Codec.innerOption_candid type
  | aggregate description => exact Codec.aggregate_candid type description fits
  | custom format => exact Codec.custom_candid type format (formats type format fits)

/-- The codec of every context. -/
theorem candid_freshCodec (config : Config) (context : Context) (codec : Codec)
    (made : (build schema config).freshCodec context = .ok codec) : codec.Candid schema := by
  rw [freshCodec_build] at made
  cases shaped : schema.shape context.unwrapped context.streamableElement with
  | error error => rw [shaped] at made; cases made
  | ok shape =>
      rw [shaped] at made
      cases made
      have candid := candid_codec formats _ _ shape (schema.fits_of_shape _ _ shape shaped)
      unfold Codec.flagged
      split
      · exact Codec.nullable_candid candid
      · exact candid

end Serializer

end Wireform
