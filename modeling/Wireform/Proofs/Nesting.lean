import Wireform.Proofs.Client
import Wireform.Proofs.Depth
import Wireform.Proofs.Gauge
import Wireform.Proofs.Stream

/-!
# Walks nest as deep as the schema lets them

What a request of a walk needs room for is known from the schema, its place and the
aggregates that are being walked: `room` counts the aggregate types that are left to be
entered, each with all layers that there can be up to the next one, and the layers of the place
itself. Every request that is made below another one needs less room, for a sequence that
takes its element type from a marker as for a nested option that is walked again at a place of
its own. No input has a part in this.

So a serializer with the built-in rules refuses nothing for its depth, and it makes no
difference how much it allows as long as that is not less than `Schema.depth`. The schema
may be anything; nothing is asked of how its aggregates are rebuilt, and its custom types work
on the buffer alone.
-/

namespace Wireform

variable {schema : Schema} {visited : List Ty}

/-- The request is one that the engine or a built-in codec makes: aggregates are descended
    into as they are described, and nothing is resolved by the way. -/
def Request.Ordinary (schema : Schema) : Request → Prop
  | .encodeFields type description _ => schema.kind type = .aggregate description
  | .decodeFields type description => schema.kind type = .aggregate description
  | .encodeResolved _ _ => False
  | .decodeResolved _ => False
  | _ => True

namespace Schema

/-- How many requests can be inside each other where the given one is made. -/
def room (schema : Schema) (visited : List Ty) : Request → Nat
  | .encode context => schema.roomAt visited context
  | .decode context => schema.roomAt visited context
  | .encodeFields _ _ _ => schema.roomInside visited
  | .decodeFields _ _ => schema.roomInside visited
  | _ => 0

/-- The request is ordinary and needs less room than there is. -/
def Below (schema : Schema) (visited : List Ty) (room : Nat) (request : Request) : Prop :=
  request.Ordinary schema ∧ schema.room visited request < room

/-- There is always room for looking at the buffer. -/
theorem below_look (schema : Schema) (visited : List Ty) (context : Context) :
    schema.Below visited (schema.roomAt visited context) .look :=
  ⟨trivial, Nat.succ_pos _⟩

/-- There is always room for changing the buffer. -/
theorem below_replace (schema : Schema) (visited : List Ty) (context : Context) (after : Buffer) :
    schema.Below visited (schema.roomAt visited context) (.replace after) :=
  ⟨trivial, Nat.succ_pos _⟩

/-- A type without markers that is smaller than what a place names needs less room. -/
theorem roomAt_of_lt (part : Ty) (value : Option Value) (site : Site) (context : Context)
    (smaller : part.size < context.declared.size + Marker.weight context.markers) :
    schema.roomAt visited { Context.of part with value := value, site := some site }
      < schema.roomAt visited context := by
  have unmarked : Marker.weight (Context.of part).markers = 0 := Marker.weight_make part []
  have declared : (Context.of part).declared = part := rfl
  simp only [roomAt, unmarked, declared]
  omega

/-- What is in an aggregate needs less room than the place where the aggregate is. -/
theorem roomInside_lt (context : Context) :
    schema.roomInside visited < schema.roomAt visited context := by
  have positive := context.declared.size_pos
  unfold roomInside roomAt
  omega

/-- A part of a described aggregate needs less room than the aggregate that it is in, which
    is one fewer to enter. -/
theorem roomAt_part_lt (owner : Ty) (description : Aggregate)
    (described : schema.kind owner = .aggregate description)
    (new : visited.contains owner = false) (type : Ty) (markers : List Marker) (site : Site)
    (value : Option Value) (small : type.size + Marker.weight markers ≤ schema.weight) :
    schema.roomAt (owner :: visited) (Context.ofPlace type markers site value)
      < schema.roomInside visited := by
  have told : (schema.kind owner).definition? = some (.aggregate description) := by
    rw [described]
    rfl
  obtain ⟨entry, found, _⟩ := schema.entry_of_kind owner _ told
  have less := schema.unvisited_cons_room visited owner entry found new
  have marked : Marker.weight (Context.ofPlace type markers site value).markers
      = Marker.weight markers := Marker.weight_make type markers
  have declared : (Context.ofPlace type markers site value).declared = type := rfl
  simp only [roomAt, roomInside, marked, declared]
  omega

end Schema

/-- The codec of a shape makes ordinary requests that need less room than the place it is
    for. -/
theorem Shape.asks_codec (visited : List Ty) (context : Context) (shape : Shape)
    (fits : shape.Fits schema context.unwrapped context.streamableElement) :
    (shape.codec schema context.unwrapped).Asks
      (schema.Below visited (schema.roomAt visited context)) := by
  have look := Schema.below_look schema visited context
  have replace := Schema.below_replace schema visited context
  have positive := context.declared.size_pos
  have peeled : context.unwrapped.size ≤ context.declared.size := Ty.size_peel_le _ false
  cases shape with
  | leaf plain => exact Codec.typed_asks look replace _ _ _
  | octets => exact Codec.typed_asks look replace _ _ _
  | enumeration names => exact Codec.enumeration_asks look replace _ _
  | custom format => exact Codec.custom_asks look replace _ _
  | sequence element =>
      obtain ⟨_, declared, described, chosen⟩ := fits
      have smaller : element.size < context.declared.size + Marker.weight context.markers := by
        cases marked : context.streamableElement with
        | some given =>
            rw [marked] at chosen
            cases chosen
            have listed := Marker.streamable_of_element? context.markers element marked
            have weighed := Marker.size_le_weight context.markers element listed
            omega
        | none =>
            rw [marked] at chosen
            cases chosen
            obtain ⟨kind, same⟩ := schema.kind_sequence _ element described
            rw [same, Ty.size] at peeled
            omega
      exact Codec.stream_asks look replace _ element _
        (fun item => ⟨trivial, Schema.roomAt_of_lt element (some item) _ context smaller⟩)
        ⟨trivial, Schema.roomAt_of_lt element none _ context smaller⟩
  | map key value =>
      obtain ⟨kind, same⟩ := schema.kind_map _ key value fits
      rw [same, Ty.size] at peeled
      have keyPositive := key.size_pos
      have valuePositive := value.size_pos
      have keySmaller : key.size < context.declared.size + Marker.weight context.markers := by omega
      have valueSmaller : value.size < context.declared.size + Marker.weight context.markers := by
        omega
      exact Codec.map_asks look replace _ key value
        (fun part => ⟨trivial, Schema.roomAt_of_lt key (some part) _ context keySmaller⟩)
        ⟨trivial, Schema.roomAt_of_lt key none _ context keySmaller⟩
        (fun part => ⟨trivial, Schema.roomAt_of_lt value (some part) _ context valueSmaller⟩)
        ⟨trivial, Schema.roomAt_of_lt value none _ context valueSmaller⟩
  | nested =>
      obtain ⟨inner, same⟩ := fits
      have kept : context.declared.unwrapped.isOption = true := by
        change context.unwrapped.isOption = true
        rw [same]
        rfl
      -- A nested option is walked at a place of its own, but the layer above it is gone.
      have smaller : context.unwrapped.size
          < context.declared.size + Marker.weight context.markers :=
        Nat.lt_add_right _ (Ty.size_unwrapped_lt _ kept)
      exact Codec.innerOption_asks _
        (fun value => ⟨trivial, Schema.roomAt_of_lt _ (some value) _ context smaller⟩)
        ⟨trivial, Schema.roomAt_of_lt _ none _ context smaller⟩
  | aggregate description =>
      exact Codec.aggregate_asks _ description (fun _ => ⟨fits, Schema.roomInside_lt context⟩)
        ⟨fits, Schema.roomInside_lt context⟩

namespace Serializer

/-- Every codec of a serializer without rules of a user's makes ordinary requests that need
    less room than the place it is for. -/
theorem asks_freshCodec (config : Config) (nesting : Context → Nat) (visited : List Ty)
    (context : Context) (codec : Codec) (made : (build schema config [] [] nesting).freshCodec context = .ok codec) :
    codec.Asks (schema.Below visited (schema.roomAt visited context)) := by
  change (build schema config).freshCodec context = .ok codec at made
  rw [freshCodec_build] at made
  cases shaped : schema.shape context.unwrapped context.streamableElement with
  | error error => rw [shaped] at made; cases made
  | ok shape =>
      rw [shaped] at made
      cases made
      have asks := Shape.asks_codec visited context shape
        (schema.fits_of_shape _ _ shape shaped)
      unfold Codec.flagged
      split
      · exact Codec.nullable_asks (schema.below_look visited context)
          (schema.below_replace visited context) _ asks
      · exact asks

end Serializer

namespace Serializer

/-- A described aggregate is rebuilt within bounds that its fields and the parameters of its
    constructors stay within. -/
theorem measured_rebuild {bound : Nat} {enough : Prop} {step : Context → Step Gauge Value}
    {operation longer : Context → Buffer.Op Value} (owner : Ty) (description : Aggregate)
    (described : schema.kind owner = .aggregate description)
    (each : ∀ type markers site, type.size + Marker.weight markers ≤ schema.weight →
      let context := Context.ofPlace type markers site none
      Measured bound enough (step context) (operation context) (longer context)) :
    Measured bound enough (rebuild step owner description) (rebuild operation owner description)
      (rebuild longer owner description) := by
  unfold rebuild
  cases chosen : description.strategy with
  | construct index constructor =>
      have known : constructor ∈ description.constructors :=
        List.mem_of_getElem? (description.getElem?_of_strategy index constructor chosen)
      exact Measured.bind (measured_decodeArguments owner index 0 constructor.parameters
        fun parameter listed site => each _ _ site
          (schema.weight_parameter_le owner description described constructor known parameter
            listed)) fun _ => .lift _
  | assign initial =>
      exact measured_assignFields owner 0 description.fields initial fun field listed site =>
        each _ _ site (schema.weight_field_le owner description described field listed)
  | unavailable => exact .fail _

/-- The request is answered from the buffer and the stack of aggregates alone. -/
def Immediate : Request → Prop
  | .look => True
  | .replace _ => True
  | .path => True
  | _ => False

/-- What is answered at once needs no depth. -/
theorem measured_immediate (serializer other : Serializer) (bound : Nat) (enough : Prop)
    (depth longer : Nat) (visited : List Ty) (level : Nat) (request : Request)
    (immediate : Immediate request) :
    Measured bound enough (serializer.gauged depth visited level request)
      (serializer.answer depth visited request) (other.answer longer visited request) := by
  have unchanged (gauge : Gauge) (buffer : Buffer) :
      Gauge.Within bound enough gauge { gauge with buffer := buffer } :=
    ⟨Nat.le_max_left _ _, fun _ among => .inl among, fun _ => rfl⟩
  cases request with
  | look =>
      cases depth <;> cases longer
      all_goals exact fun gauge => ⟨rfl, unchanged gauge gauge.buffer, fun _ => rfl⟩
  | replace buffer =>
      cases depth <;> cases longer
      all_goals exact fun gauge => ⟨rfl, unchanged gauge buffer, fun _ => rfl⟩
  | path =>
      cases depth <;> cases longer
      all_goals exact fun gauge => ⟨rfl, unchanged gauge gauge.buffer, fun _ => rfl⟩
  | _ => exact immediate.elim

/-- A gauged request does what its answer does, within the room that it needs. If that much
    is allowed it refuses nothing, and allowing more changes nothing. -/
theorem measured_gauged (config : Config) (nesting other : Context → Nat) (more depth : Nat)
    (visited : List Ty) (level : Nat) (request : Request) (distinct : visited.Nodup)
    (ordinary : request.Ordinary schema) :
    let serializer := build schema config [] [] nesting
    Measured (level + schema.room visited request) (schema.room visited request ≤ depth)
      (serializer.gauged depth visited level request) (serializer.answer depth visited request)
      ((build schema config [] [] other).answer (more + depth) visited request) := by
  intro serializer
  induction depth generalizing visited level request with
  | zero =>
      -- Only what is answered at once can be answered, and everything else needs room.
      cases request with
      | look => exact measured_immediate serializer _ _ _ _ _ visited level .look trivial
      | replace buffer =>
          exact measured_immediate serializer _ _ _ _ _ visited level (.replace buffer) trivial
      | path => exact measured_immediate serializer _ _ _ _ _ visited level .path trivial
      | encodeResolved context value => exact ordinary.elim
      | decodeResolved context => exact ordinary.elim
      | _ => exact Measured.refuse (Nat.not_le.mpr (Nat.succ_pos _)) _
  | succ depth inductionHypothesis =>
      -- One request deeper and inside, a smaller one stays within the same bounds.
      have inside (visited : List Ty) (higher room : Nat) (distinct : visited.Nodup)
          (raised : higher ≤ level + 1) (request : Request)
          (below : schema.Below visited room request) :
          Measured (level + room) (room ≤ depth + 1)
            (serializer.gauged depth visited higher request)
            (serializer.answer depth visited request)
            ((build schema config [] [] other).answer (more + depth) visited request) := by
        have smaller := below.2
        exact (inductionHypothesis visited higher request distinct below.1).mono (by omega)
          (by omega)
      have codecs (context : Context) (codec : Codec)
          (made : serializer.freshCodec context = .ok codec) :=
        asks_freshCodec config nesting visited context codec made
      cases request with
      | look => exact measured_immediate serializer _ _ _ _ _ visited level .look trivial
      | replace buffer =>
          exact measured_immediate serializer _ _ _ _ _ visited level (.replace buffer) trivial
      | path => exact measured_immediate serializer _ _ _ _ _ visited level .path trivial
      | encodeResolved context value => exact ordinary.elim
      | decodeResolved context => exact ordinary.elim
      | encode context =>
          refine Measured.reach (Nat.add_le_add_left (Nat.succ_le_succ (Nat.zero_le _)) _) ?_
          cases holds : context.value with
          | none =>
              simp only [answer, holds]
              exact Measured.fail _
          | some value =>
              simp only [answer, holds]
              refine Measured.lift_bind fun codec made => Measured.bind (.lift _) fun inner => ?_
              exact Measured.run (inside visited (level + 1) _ distinct (Nat.le_refl _)) _
                ((codecs context codec made).encode inner)
      | decode context =>
          refine Measured.reach (Nat.add_le_add_left (Nat.succ_le_succ (Nat.zero_le _)) _) ?_
          refine Measured.lift_bind fun codec made => Measured.bind ?_ fun inner => .lift _
          exact Measured.run (inside visited (level + 1) _ distinct (Nat.le_refl _)) _
            (codecs context codec made).decode
      | encodeFields type aggregate value =>
          have described : schema.kind type = .aggregate aggregate := ordinary
          simp only [gauged, answer]
          cases new : visited.contains type with
          | true => exact Measured.fail _
          | false =>
              have grown : (type :: visited).Nodup :=
                List.nodup_cons.mpr ⟨by simpa using new, distinct⟩
              refine Measured.enter grown (measured_encodeFields type value 0 aggregate.fields
                fun field listed site child => ?_)
              exact inside (type :: visited) level _ grown (Nat.le_succ _) (.encode _)
                ⟨trivial, schema.roomAt_part_lt type aggregate described new _ _ site (some child)
                  (schema.weight_field_le type aggregate described field listed)⟩
      | decodeFields type aggregate =>
          have described : schema.kind type = .aggregate aggregate := ordinary
          simp only [gauged, answer]
          cases new : visited.contains type with
          | true => exact Measured.fail _
          | false =>
              have grown : (type :: visited).Nodup :=
                List.nodup_cons.mpr ⟨by simpa using new, distinct⟩
              refine Measured.enter grown (measured_rebuild type aggregate described
                fun part markers site small => ?_)
              exact inside (type :: visited) level _ grown (Nat.le_succ _) (.decode _)
                ⟨trivial, schema.roomAt_part_lt type aggregate described new _ _ site none small⟩

/-- A walk of its own, gauged. -/
def gauging (serializer : Serializer) (context : Context) (request : Request) (buffer : Buffer) :
    EStateM.Result Error Gauge request.Answer :=
  serializer.gauged (serializer.nesting context) [] 0 request { buffer := buffer }

end Serializer

/-- The gauge shows a limited nesting, no aggregate type that was entered inside itself, and
    no request that came too deep. -/
structure Gauge.Bounded (limit : Nat) (gauge : Gauge) : Prop where
  nested : gauge.nested ≤ limit
  entered : ∀ stack ∈ gauge.entered, stack.Nodup
  refused : gauge.refused = false

namespace Serializer

variable (schema) (config : Config) (nesting : Context → Nat)

/-- A walk of its own is bounded by the schema and its place, and it comes out as with
    any other allowance that is not less. -/
theorem gauging_bounded (ample : ∀ context, schema.depth context ≤ nesting context)
    (context : Context) (request : Request) (ordinary : request.Ordinary schema)
    (fits : schema.room [] request ≤ schema.roomAt [] context) (buffer : Buffer) :
    let serializer := build schema config [] [] nesting
    Step.carry Gauge.buffer (serializer.gauging context request buffer)
        = serializer.directly context request buffer ∧
      Gauge.Bounded (schema.depth context) (Step.left (serializer.gauging context request buffer)) ∧
      serializer.directly context request buffer
        = (build schema config).directly context request buffer := by
  intro serializer
  have room : schema.room [] request ≤ schema.depth context :=
    Nat.le_trans fits (schema.roomAt_le_depth context)
  obtain ⟨carried, within, _⟩ := measured_gauged config nesting nesting 0 (nesting context) [] 0
    request List.nodup_nil ordinary { buffer := buffer }
  obtain ⟨_, _, alike⟩ := measured_gauged config schema.depth nesting
    (nesting context - schema.depth context) (schema.depth context) [] 0 request List.nodup_nil
    ordinary { buffer := buffer }
  refine ⟨carried, ⟨?_, ?_, ?_⟩, ?_⟩
  · have nested : (Step.left (serializer.gauging context request buffer)).nested
        ≤ max 0 (0 + schema.room [] request) := within.nested
    omega
  · intro stack among
    obtain before | distinct := within.entered stack among
    · cases before
    · exact distinct
  · exact within.refused (Nat.le_trans room (ample context))
  · have same := alike room
    rw [Nat.sub_add_cancel (ample context)] at same
    exact same

/-- Decoding and encoding nest no deeper than the schema and the type say, whatever the bytes
    or the value are. With any allowance that is not less, a walk on any buffer does what a
    gauged walk does that refuses nothing, and the result is the same for all of them, whatever
    calls came before. -/
theorem nesting_bounded (ample : ∀ context, schema.depth context ≤ nesting context)
    (memory : Memory) (reached : (build schema config [] [] nesting).Reached memory) :
    let serializer := build schema config [] [] nesting
    (∀ type,
      let context := root type none
      (∀ buffer,
        let gauged := serializer.gauging context (.decode context) buffer
        (∃ later, serializer.decodeType type buffer memory
          = Step.carry (fun gauge => ⟨gauge.buffer, [], later⟩) gauged) ∧
        Gauge.Bounded (schema.depth context) (Step.left gauged)) ∧
      ∀ bytes, ∃ later, serializer.decode type bytes memory
        = Step.lift ((build schema config).decoded type bytes) later) ∧
    ∀ value,
      let context := root value.type (some value)
      (∀ buffer,
        let gauged := serializer.gauging context (.encode context) buffer
        (∃ later, serializer.encodeInto value buffer memory
          = Step.carry (fun gauge => ⟨gauge.buffer, [], later⟩) gauged) ∧
        Gauge.Bounded (schema.depth context) (Step.left gauged)) ∧
      ∃ later, serializer.encode value memory
        = Step.lift ((build schema config).encoded context) later := by
  intro serializer
  have static : serializer.Static := static_build schema config [] [] nesting
    (List.forall_mem_nil _) (List.forall_mem_nil _)
  have makes : serializer.Makes (Codec.Placed schema) :=
    makes_build (Codec.builtin_placed schema) config [] [] nesting (List.forall_mem_nil _)
      (List.forall_mem_nil _)
  have coherent := coherent_of_reached static makes memory reached
  refine ⟨fun type => ?_, fun value => ?_⟩
  · have bounded := gauging_bounded schema config nesting ample (root type none)
      (.decode (root type none)) trivial (Nat.le_refl _)
    refine ⟨fun buffer => ⟨?_, (bounded buffer).2.1⟩, fun bytes => ?_⟩
    · obtain ⟨later, _, walked⟩ := decodeType_eq_taking static makes type buffer coherent
      exact ⟨later, walked.trans ((congrArg (Step.carry _) (bounded buffer).1.symm).trans
        (Step.carry_carry _ _ _))⟩
    · obtain ⟨later, _, same⟩ := decode_eq_decoded static makes type bytes coherent
      have alike : serializer.decoded type bytes = (build schema config).decoded type bytes := by
        have taken : serializer.taking type = (build schema config).taking type :=
          funext fun buffer => (bounded buffer).2.2
        unfold decoded takingFrom
        rw [taken]
        rfl
      exact ⟨later, by rw [same, alike]⟩
  · have bounded := gauging_bounded schema config nesting ample (root value.type (some value))
      (.encode (root value.type (some value))) trivial (Nat.le_refl _)
    refine ⟨fun buffer => ⟨?_, (bounded buffer).2.1⟩, ?_⟩
    · obtain ⟨later, _, walked⟩ := encodeInto_eq_appending static makes value buffer coherent
      exact ⟨later, walked.trans ((congrArg (Step.carry _) (bounded buffer).1.symm).trans
        (Step.carry_carry _ _ _))⟩
    · obtain ⟨later, _, same⟩ := encode_eq_encoded static makes value coherent
      have alike : serializer.encoded (root value.type (some value))
          = (build schema config).encoded (root value.type (some value)) := by
        unfold encoded
        rw [(bounded serializer.writer).2.2]
        rfl
      exact ⟨later, by rw [same, alike]⟩

/-- A tree that claims to be inside of another one is refused three requests deep, however many
    are allowed, and with only the outer one entered. -/
theorem nesting_bounded_grove :
    let nesting := fun context => groves.depth context + 1000
    let serializer := build groves {} [] [] nesting
    let context := root (.named "Tree") none
    let bytes : Bytes := [0, 0, 0, 3, 111, 97, 107, 0, 0, 0, 0, 0, 0, 0, 1, 0, 0, 0, 0]
    let gauge := Step.left (serializer.gauging context (.decode context) (serializer.reader bytes))
    (∀ context, groves.depth context ≤ nesting context) ∧
      serializer.Reached serializer.start ∧
      Gauge.Bounded (groves.depth context) gauge ∧ gauge.nested = 3 ∧
      gauge.entered = [[.named "Tree"]] ∧
      ∃ later, serializer.decode (.named "Tree") bytes serializer.start
        = Step.lift ((build groves {}).decoded (.named "Tree") bytes) later := by
  intro nesting serializer context bytes gauge
  have ample : ∀ context, groves.depth context ≤ nesting context := fun _ => Nat.le_add_right _ _
  have fresh : serializer.Reached serializer.start := .start
  obtain ⟨decoding, _⟩ := nesting_bounded groves {} nesting ample _ fresh
  obtain ⟨walks, decodes⟩ := decoding (.named "Tree")
  exact ⟨ample, fresh, (walks (serializer.reader bytes)).2, by decide +kernel, by decide +kernel,
    decodes bytes⟩

end Serializer

end Wireform
