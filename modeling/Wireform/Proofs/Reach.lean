import Wireform.Proofs.Proper
import Wireform.Proofs.RoundTrip

/-!
# How far markers reach

A sequence that does not declare the type of its elements needs a marker that names it. The marker
stands at the place of the sequence, and between the two there can be boxes and options. Boxes and
the outermost option are stripped by the place itself, and the marker reaches through them. A second
option is walked at a place of its own, which has no markers. So below it the marker is lost: a value
that is absent above the innermost option travels, and any other is refused, by the writer as well
as by the reader. They do not notice before they come to the place of the innermost option, so that
what has been written until then are the flags of all other options.

Nothing is asked of the elements for this. As a place of their own writes them they are written,
and as it reads them they are read. So the sequence comes back to itself as far as they do.
-/

namespace Wireform

open Buffer (Emits Reads Succeeds)

/-! ## Wrappers -/

/-- The value is one of a wrapped sequence of elements of a type. -/
inductive Value.Wrapped (core element : Ty) : Ty → Value → Prop
  | sequence (items : List Value) (each : ∀ item ∈ items, item.type = element) :
      Wrapped core element core (.sequence core items)
  | boxed (inner : Ty) (value : Value) (held : Wrapped core element inner value) :
      Wrapped core element (.boxed inner) (.boxed value)
  | absent (inner : Ty) : Wrapped core element (.option inner) (.absent inner)
  | present (inner : Ty) (value : Value) (held : Wrapped core element inner value) :
      Wrapped core element (.option inner) (.present value)

namespace Value

/-- How many options on the way in are present. -/
def presence : Value → Nat
  | .boxed value => presence value
  | .present value => presence value + 1
  | _ => 0

/-- Writes a flag for each option, and below them the elements after their number. -/
def writeThrough (each : Value → Buffer.Op Unit) : Value → Buffer.Op Unit
  | .boxed value => writeThrough each value
  | .absent _ => Buffer.writeBool false
  | .present value => do
      Buffer.writeBool true
      writeThrough each value
  | .sequence _ items => do
      Buffer.writeLongLength items.length
      items.forM each
  | _ => return ()

/-- Writes this at a place. If the place has a flag without stripping an option, the flag comes
    first. -/
def writeAt (announced : Bool) (each : Value → Buffer.Op Unit) (value : Value) :
    Buffer.Op Unit :=
  if announced then do
    Buffer.writeBool true
    value.writeThrough each
  else value.writeThrough each

/-- The elements of the sequence, if there is one. -/
def within : Value → Option (List Value)
  | .boxed value => within value
  | .present value => within value
  | .sequence _ items => some items
  | _ => none

/-- The same around other elements. -/
def exchange (image : Value → Value) : Value → Value
  | .boxed value => .boxed (exchange image value)
  | .present value => .present (exchange image value)
  | .sequence type items => .sequence type (items.map image)
  | value => value

/-- What is then on the wire, if it is known what is written of each element. -/
def wireThrough (form : Value → Bytes) : Value → Bytes
  | .boxed value => wireThrough form value
  | .absent _ => (Piece.flag false).bytes
  | .present value => (Piece.flag true).bytes ++ wireThrough form value
  | .sequence _ items => (Piece.elementCount items.length).bytes ++ items.flatMap form
  | _ => []

/-- What is then on the wire at a place. -/
def wireAt (announced : Bool) (form : Value → Bytes) (value : Value) : Bytes :=
  (if announced then (Piece.flag true).bytes else []) ++ value.wireThrough form

/-- Boxes have no part in how many options are present. -/
@[simp] theorem presence_unboxed : (value : Value) → value.unboxed.presence = value.presence
  | .boxed value => presence_unboxed value
  | .scalar _ | .member _ _ | .absent _ | .present _ | .sequence _ _ | .map _ _ | .record _ _ => rfl

/-- Boxes have no part in what is written. -/
@[simp] theorem writeThrough_unboxed (each : Value → Buffer.Op Unit) :
    (value : Value) → value.unboxed.writeThrough each = value.writeThrough each
  | .boxed value => writeThrough_unboxed each value
  | .scalar _ | .member _ _ | .absent _ | .present _ | .sequence _ _ | .map _ _ | .record _ _ => rfl

/-- Boxes have no part in what the elements are. -/
@[simp] theorem within_unboxed : (value : Value) → value.unboxed.within = value.within
  | .boxed value => within_unboxed value
  | .scalar _ | .member _ _ | .absent _ | .present _ | .sequence _ _ | .map _ _ | .record _ _ => rfl

/-- Boxes have no part in what is on the wire. -/
@[simp] theorem wireThrough_unboxed (form : Value → Bytes) :
    (value : Value) → value.unboxed.wireThrough form = value.wireThrough form
  | .boxed value => wireThrough_unboxed form value
  | .scalar _ | .member _ _ | .absent _ | .present _ | .sequence _ _ | .map _ _ | .record _ _ => rfl

/-- An exchange of the elements is one below all layers. -/
theorem through_exchange (image : Value → Value) : Through (exchange image) where
  type value := by
    induction value using exchange.induct with
    | case1 value inductionHypothesis => exact congrArg Ty.boxed inductionHypothesis
    | case2 value inductionHypothesis => exact congrArg Ty.option inductionHypothesis
    | case3 type items => rfl
    | case4 value notBoxed notPresent notSequence => rw [exchange] <;> assumption
  absent _ := rfl
  present _ := rfl
  boxed _ := rfl

end Value

section

variable {schema : Schema} {core element type : Ty} {options : Nat} {value : Value}

/-- A wrapped value carries its type. -/
theorem Value.Wrapped.type_eq (wrapped : value.Wrapped core element type) :
    value.type = type := by
  induction wrapped with
  | boxed _ _ _ inductionHypothesis => exact congrArg Ty.boxed inductionHypothesis
  | present _ _ _ inductionHypothesis => exact congrArg Ty.option inductionHypothesis
  | _ => rfl

/-- A sequence that does not declare its elements is below all layers. -/
theorem Schema.peel_undeclared (undeclared : schema.kind core = .sequence none) (stripped : Bool) :
    core.peel stripped = ([], core) := by
  cases core <;> first | rfl | cases undeclared

/-- A wrapped value of the sequence itself is a sequence. -/
theorem Value.Wrapped.items (undeclared : schema.kind core = .sequence none)
    (wrapped : value.Wrapped core element core) :
    ∃ items, value = .sequence core items ∧ ∀ item ∈ items, item.type = element := by
  cases wrapped with
  | sequence items each => exact ⟨items, rfl, each⟩
  | _ => cases undeclared

/-- Below boxes there is the sequence or an option, with as many options as before. -/
theorem Ty.Wraps.unboxed (wraps : core.Wraps options type)
    (undeclared : schema.kind core = .sequence none) :
    core.Wraps options (type.peel true).2 ∧
      (options = 0 → (type.peel true).2 = core) ∧
      (options ≠ 0 → ∃ inner, (type.peel true).2 = .option inner) := by
  induction wraps with
  | here =>
      rw [Schema.peel_undeclared undeclared]
      exact ⟨.here, fun _ => rfl, fun some => absurd rfl some⟩
  | boxed options inner _ inductionHypothesis => exact inductionHypothesis
  | option options inner wraps =>
      exact ⟨.option options inner wraps, (absurd · (Nat.succ_ne_zero _)), fun _ => ⟨inner, rfl⟩⟩

/-- A place with an option strips it, and goes on to what is below it and its boxes. -/
theorem Ty.Wraps.below_option (wraps : core.Wraps (options + 1) type) :
    type.stripsOption = true ∧
      ∃ inner, type.unwrapped = (inner.peel true).2 ∧ core.Wraps options inner := by
  generalize counted : options + 1 = more at wraps
  induction wraps with
  | here => cases counted
  | boxed _ inner _ inductionHypothesis => exact inductionHypothesis counted
  | option fewer inner wraps =>
      cases counted
      exact ⟨rfl, inner, rfl, wraps⟩

/-- With at most one option a place comes to the sequence, and strips the option. -/
theorem Ty.Wraps.unwrapped_eq (wraps : core.Wraps options type)
    (undeclared : schema.kind core = .sequence none) (few : options ≤ 1) :
    type.unwrapped = core ∧ type.stripsOption = (options == 1) := by
  cases options with
  | zero =>
      clear few
      generalize counted : 0 = options at wraps
      induction wraps with
      | here =>
          have peeled := Schema.peel_undeclared undeclared false
          rw [Ty.stripsOption, show core.layers = [] from congrArg Prod.fst peeled]
          exact ⟨congrArg Prod.snd peeled, rfl⟩
      | boxed _ inner _ inductionHypothesis => exact inductionHypothesis counted
      | option => cases counted
  | succ options =>
      obtain rfl : options = 0 := Nat.le_zero.mp (Nat.le_of_succ_le_succ few)
      obtain ⟨strips, inner, unwrapped, under⟩ := wraps.below_option
      exact ⟨unwrapped.trans ((under.unboxed undeclared).2.1 rfl), strips⟩

/-- With more than one option a place comes to the second one. If there is depth for what is
    declared, there is depth for the place of the second one as well. -/
theorem Ty.Wraps.nested (wraps : core.Wraps (options + 2) type)
    (undeclared : schema.kind core = .sequence none) {depth : Nat} (enough : type.size ≤ depth + 1) :
    type.stripsOption = true ∧ ∃ below shallower, depth = shallower + 1 ∧
      type.unwrapped = .option below ∧ core.Wraps (options + 1) (.option below) ∧
      (Ty.option below).size ≤ shallower + 1 := by
  obtain ⟨strips, inner, unwrapped, under⟩ := wraps.below_option
  obtain ⟨same, -, optional⟩ := under.unboxed undeclared
  obtain ⟨below, own⟩ := optional (Nat.succ_ne_zero options)
  have kept : type.unwrapped = .option below := unwrapped.trans own
  have smaller := type.size_unwrapped_lt (by rw [kept]; rfl)
  rw [kept] at smaller
  have room : (Ty.option below).size ≤ depth :=
    Nat.le_of_lt_succ (Nat.lt_of_lt_of_le smaller enough)
  obtain ⟨shallower, rfl⟩ := Nat.exists_eq_add_one.mpr
    (Nat.lt_of_lt_of_le (Ty.size_pos (.option below)) room)
  exact ⟨strips, below, shallower, rfl, kept, own ▸ same, room⟩

/-- A wrapped value goes through boxes. -/
theorem Value.Wrapped.unboxed (wrapped : value.Wrapped core element type)
    (undeclared : schema.kind core = .sequence none) :
    Context.projectThrough (type.peel true).1 value = .ok (some value.unboxed) ∧
      value.unboxed.Wrapped core element (type.peel true).2 := by
  induction wrapped with
  | sequence items each =>
      rw [Schema.peel_undeclared undeclared]
      exact ⟨rfl, .sequence items each⟩
  | boxed inner value held inductionHypothesis =>
      refine ⟨?_, inductionHypothesis.2⟩
      exact (Context.projectThrough_pointer _ _ _ _).mpr
        ⟨value, rfl, held.type_eq, inductionHypothesis.1⟩
  | absent inner => exact ⟨rfl, .absent inner⟩
  | present inner value held => exact ⟨rfl, .present inner value held⟩

/-- What a place finds of a wrapped value. It strips the boxes, and if there are options the
    outermost one with the boxes below it. -/
inductive Stripped (core element type : Ty) (value : Value) : Nat → Prop
  | bare (projected : Context.projectThrough type.layers value = .ok (some value.unboxed))
      (wrapped : value.unboxed.Wrapped core element core) :
      Stripped core element type value 0
  | absent (options : Nat) (inner : Ty) (own : value.unboxed = .absent inner)
      (projected : Context.projectThrough type.layers value = .ok none) :
      Stripped core element type value (options + 1)
  | present (options : Nat) (held : Value) (own : value.unboxed = .present held)
      (wrapped : held.unboxed.Wrapped core element type.unwrapped)
      (projected : Context.projectThrough type.layers value = .ok (some held.unboxed)) :
      Stripped core element type value (options + 1)

/-- So a place finds a wrapped value. -/
theorem Value.Wrapped.stripped (wrapped : value.Wrapped core element type)
    (wraps : core.Wraps options type) (undeclared : schema.kind core = .sequence none) :
    Stripped core element type value options := by
  induction wraps generalizing value with
  | here =>
      have layers : core.layers = [] := congrArg Prod.fst (Schema.peel_undeclared undeclared false)
      obtain ⟨items, rfl, each⟩ := wrapped.items undeclared
      exact .bare (by rw [layers]; rfl) (.sequence items each)
  | boxed options inner wraps inductionHypothesis =>
      obtain ⟨value, rfl, held⟩ : ∃ held, value = .boxed held ∧
          held.Wrapped core element inner := by
        cases wrapped with
        | boxed _ value held => exact ⟨value, rfl, held⟩
        | sequence => cases undeclared
      have through {found : Option Value}
          (projected : Context.projectThrough inner.layers value = .ok found) :
          Context.projectThrough (Ty.boxed inner).layers (.boxed value) = .ok found :=
        (Context.projectThrough_pointer _ _ _ _).mpr ⟨value, rfl, held.type_eq, projected⟩
      cases inductionHypothesis held with
      | bare projected wrapped => exact .bare (through projected) wrapped
      | absent fewer below own projected => exact .absent fewer below own (through projected)
      | present fewer held own wrapped projected =>
          exact .present fewer held own wrapped (through projected)
  | option options inner wraps inductionHypothesis =>
      cases wrapped with
      | sequence => cases undeclared
      | absent =>
          exact .absent options inner rfl
            ((Context.projectThrough_nullable _ _ _ _).mpr (.inl ⟨rfl, rfl⟩))
      | present _ held wrapped =>
          obtain ⟨projected, stripped⟩ := wrapped.unboxed undeclared
          exact .present options held rfl stripped
            ((Context.projectThrough_nullable _ _ _ _).mpr
              (.inr ⟨held, rfl, wrapped.type_eq, projected⟩))

/-- Elements that stay the same make no difference. -/
theorem Value.exchange_of_fixed (image : Value → Value) (value : Value)
    (fixed : ∀ items, value.within = some items → ∀ item ∈ items, image item = item) :
    value.exchange image = value := by
  induction value using exchange.induct with
  | case1 value inductionHypothesis => exact congrArg Value.boxed (inductionHypothesis fixed)
  | case2 value inductionHypothesis => exact congrArg Value.present (inductionHypothesis fixed)
  | case3 type items =>
      exact congrArg (Value.sequence type)
        ((List.map_congr_left (fixed items rfl)).trans (List.map_id _))
  | case4 value notBoxed notPresent notSequence => rw [exchange] <;> assumption

namespace Schema

/-- A marker makes up for what the sequence does not declare. -/
theorem shape_marked (undeclared : schema.kind core = .sequence none) (element : Ty) :
    schema.shape core (some element) = .ok (.sequence element) := by
  cases core <;> first | cases undeclared | simp [shape, shapeOfKind, undeclared, Ty.vector]

/-- Without a marker there is no codec for the sequence. -/
theorem shape_unmarked (undeclared : schema.kind core = .sequence none) :
    schema.shape core none = .error (.missingElementType core.name) := by
  cases core <;> first | cases undeclared | simp [shape, shapeOfKind, undeclared, Ty.vector]

/-- Below an option there is another place, whatever the markers. -/
theorem shape_option (schema : Schema) (inner : Ty) (marked : Option Ty) :
    schema.shape (.option inner) marked = .ok .nested := rfl

end Schema

namespace Serializer

variable {config : Config} {depth : Nat} {visited : List Ty} {markers : List Marker} {site : Site}

/-! ## Writing -/

/-- The elements are written one after another at a place of their own. -/
theorem encode_undeclared (config : Config) (depth : Nat) (visited : List Ty)
    (undeclared : schema.kind core = .sequence none)
    (wrapped : value.Wrapped core element core) :
    (((Shape.sequence element).codec schema core).encode (some value)).run
        ((build schema config).answer depth visited)
      = value.writeThrough fun item => (build schema config).answer depth visited
          (.encode ((Codec.elementPlace element).withValue item)) := by
  obtain ⟨items, rfl, -⟩ := wrapped.items undeclared
  rw [Shape.codec, Codec.run_encode_stream, (Value.items_eq_ok core _ items).mpr rfl]
  rfl

/-- Through boxes and one option a marker reaches the sequence. -/
theorem encode_marked (undeclared : schema.kind core = .sequence none)
    (wraps : core.Wraps options type) (wrapped : value.Wrapped core element type)
    (few : options ≤ 1) (marked : Marker.element? markers = some element) :
    (build schema config).answer (depth + 1) visited
        (.encode (.ofPlace type markers site (some value)))
      = value.writeAt (options == 0 && markers.contains .nullable)
          fun item => (build schema config).answer depth visited
            (.encode ((Codec.elementPlace element).withValue item)) := by
  obtain ⟨unwrapped, strips⟩ := wraps.unwrapped_eq undeclared few
  rw [answer_encode_place, marked, unwrapped, strips, Schema.shape_marked undeclared, Step.lift_ok,
    LawfulMonad.pure_bind, Value.writeAt, ← Value.writeThrough_unboxed]
  cases wrapped.stripped wraps undeclared with
  | bare projected below =>
      have written := encode_undeclared config depth visited undeclared below
      rw [projected, Step.lift_ok, LawfulMonad.pure_bind, ← written]
      cases markers.contains .nullable with
      | false => rfl
      | true => exact Codec.run_encode_flagged _ _ _ _ _
  | absent fewer inner own projected =>
      obtain rfl : fewer = 0 := Nat.le_zero.mp (Nat.le_of_succ_le_succ few)
      rw [projected, Step.lift_ok, LawfulMonad.pure_bind, own]
      exact (Codec.run_encode_flagged _ _ _ _ _).trans (bind_pure (Buffer.writeBool false))
  | present fewer held own below projected =>
      obtain rfl : fewer = 0 := Nat.le_zero.mp (Nat.le_of_succ_le_succ few)
      rw [unwrapped] at below
      have written := encode_undeclared config depth visited undeclared below
      rw [Value.writeThrough_unboxed] at written
      rw [projected, Step.lift_ok, LawfulMonad.pure_bind, own]
      refine (Codec.run_encode_flagged _ _ _ _ _).trans ?_
      exact congrArg (fun next => Buffer.writeBool true >>= fun _ => next) written

/-- What is written is what is then on the wire, if that is so of each element. -/
theorem emits_writeThrough (each : Value → Buffer.Op Unit) (form : Value → Bytes) :
    (value : Value) →
      (∀ items, value.within = some items → ∀ item ∈ items, Emits (each item) (form item)) →
        Emits (value.writeThrough each) (value.wireThrough form)
  | .boxed value, emits => emits_writeThrough each form value emits
  | .absent _, _ => Buffer.emits_writeBool false
  | .present value, emits =>
      Buffer.emits_bind (Buffer.emits_writeBool true) (emits_writeThrough each form value emits)
  | .sequence _ items, emits =>
      Buffer.emits_bind (Buffer.emits_writeLongLength items.length)
        (Buffer.emits_forM items (emits items rfl))
  | .scalar _, _ | .member _ _, _ | .map _ _, _ | .record _ _, _ => Buffer.emits_pure

/-- The same at a place. -/
theorem emits_writeAt (announced : Bool) (each : Value → Buffer.Op Unit) (form : Value → Bytes)
    (value : Value)
    (emits : ∀ items, value.within = some items → ∀ item ∈ items, Emits (each item) (form item)) :
    Emits (value.writeAt announced each) (value.wireAt announced form) := by
  have below := emits_writeThrough each form value emits
  cases announced with
  | false => exact below
  | true => exact Buffer.emits_bind (Buffer.emits_writeBool true) below

/-- What can be written at a place can be written without the flag of the place. -/
theorem succeeds_writeThrough (announced : Bool) {each : Value → Buffer.Op Unit}
    (succeeds : Succeeds (value.writeAt announced each)) : Succeeds (value.writeThrough each) := by
  cases announced with
  | false => exact succeeds
  | true => exact (Buffer.succeeds_bind succeeds).2

/-- If a wrapped sequence can be written, its elements are few enough to be counted. -/
theorem lt_of_writeThrough {each : Value → Buffer.Op Unit} (items : List Value)
    (here : value.within = some items) (succeeds : Succeeds (value.writeThrough each)) :
    items.length < 0x8000000000000000 := by
  induction value using Value.within.induct with
  | case1 value inductionHypothesis => exact inductionHypothesis here succeeds
  | case2 value inductionHypothesis =>
      exact inductionHypothesis here (Buffer.succeeds_bind succeeds).2
  | case3 type others =>
      cases here
      exact Buffer.lt_of_writeLongLength (Buffer.succeeds_bind succeeds).1
  | case4 value notBoxed notPresent notSequence =>
      rw [Value.within] at here
      · cases here
      all_goals assumption

/-- What is written where the marker is lost below so many flags. -/
def refusal (core : Ty) : Nat → Buffer.Op Unit
  | 0 => Step.fail (.missingElementType core.name)
  | flags + 1 => do
      Buffer.writeBool true
      refusal core flags

/-- Below the place of the innermost option there is no marker, unless it is the outermost one as
    well. A value that is absent further out is written, any other is refused behind the flags. The
    induction is on how many options there are around the innermost one. -/
theorem encode_unmarked (undeclared : schema.kind core = .sequence none) (flags : Nat)
    (wraps : core.Wraps (flags + 1) type) (wrapped : value.Wrapped core element type)
    (lost : flags = 0 → Marker.element? markers = none) (enough : type.size ≤ depth + 1)
    (each : Value → Buffer.Op Unit) :
    (build schema config).answer (depth + 1) visited
        (.encode (.ofPlace type markers site (some value)))
      = if value.presence < flags then value.writeThrough each else refusal core flags := by
  induction flags generalizing type markers site value depth with
  | zero =>
      rw [answer_encode_place, lost rfl, (wraps.unwrapped_eq undeclared (Nat.le_refl 1)).1,
        Schema.shape_unmarked undeclared, if_neg (Nat.not_lt_zero _)]
      rfl
  | succ flags inductionHypothesis =>
      obtain ⟨strips, below, depth, rfl, kept, under, room⟩ := wraps.nested undeclared enough
      rw [answer_encode_place, kept, strips, Schema.shape_option, Step.lift_ok,
        LawfulMonad.pure_bind, Bool.true_or, ← Value.presence_unboxed, ← Value.writeThrough_unboxed]
      cases wrapped.stripped wraps undeclared with
      | absent _ inner own projected =>
          rw [projected, Step.lift_ok, LawfulMonad.pure_bind, Codec.run_encode_flagged, own,
            if_pos (show (Value.absent inner).presence < flags + 1 from Nat.succ_pos flags)]
          exact bind_pure (Buffer.writeBool false)
      | present _ held own stripped projected =>
          rw [kept] at stripped
          have later : (build schema config).answer (depth + 1) visited
              (.encode (.ofPlace (.option below) [] (.inner (.option below)) (some held.unboxed)))
                = _ := inductionHypothesis under stripped (fun _ => rfl) room
          rw [Value.presence_unboxed, Value.writeThrough_unboxed] at later
          rw [projected, Step.lift_ok, LawfulMonad.pure_bind, Codec.run_encode_flagged, own]
          simp only [Option.isSome_some, Shape.codec, Codec.run_encode_innerOption]
          refine (congrArg (fun next => Buffer.writeBool true >>= fun _ => next) later).trans ?_
          by_cases early : held.presence < flags
          · rw [if_pos early, if_pos (show (Value.present held).presence < flags + 1 from
              Nat.succ_lt_succ early)]
            rfl
          · rw [if_neg early, if_neg (show ¬(Value.present held).presence < flags + 1 from
              fun below => early (Nat.lt_of_succ_lt_succ below))]
            rfl

/-! ## Reading -/

/-- A described sequence is made of elements of its type. -/
theorem collect_undeclared (undeclared : schema.kind core = .sequence none)
    (made : schema.itemType? core = some element) (items : List Value)
    (types : ∀ item ∈ items, item.type = element) :
    schema.collect core items = .ok (.sequence core items) := by
  have expected := Value.mapM_expect_of_type element items types
  have described : (schema.find? core).map Entry.definition = some (.sequence element) := by
    cases core <;> first
      | cases undeclared
      | (simp only [Schema.itemType?] at made
         split at made
         · next found => cases made; exact found
         · cases made)
  cases core <;> first
    | cases undeclared
    | (simp only [Schema.collect, described, expected]
       rfl)

/-- The number of the elements is admitted, and each of them is read from what is written of it as
    one of their type. -/
def ReadsWithin (schema : Schema) (config : Config) (depth : Nat) (visited : List Ty) (element : Ty)
    (form : Value → Bytes) (image : Value → Value) (items : List Value) : Prop :=
  (Piece.elementCount items.length).Admitted config ∧ ∀ item ∈ items,
    (image item).type = element ∧
      Reads config ((build schema config).answer depth visited
        (.decode (Codec.elementPlace element)) : Buffer.Op Value) (form item) (image item)

variable {form : Value → Bytes} {image : Value → Value}

/-- The elements are read one after another, and the sequence is made of them. -/
theorem reads_undeclared (undeclared : schema.kind core = .sequence none)
    (made : schema.itemType? core = some element)
    (wrapped : value.Wrapped core element core)
    (each : ∀ items, value.within = some items →
      ReadsWithin schema config depth visited element form image items)
    (counted : ∀ items, value.within = some items → items.length < 0x8000000000000000) :
    Reads config
      (((Shape.sequence element).codec schema core).decode.run
        ((build schema config).answer depth visited))
      (value.wireThrough form) (some (value.exchange image)) := by
  obtain ⟨items, rfl, -⟩ := wrapped.items undeclared
  obtain ⟨admitted, reads⟩ := each items rfl
  refine reads_elements schema config depth visited core element items form image _
    (counted items rfl) admitted (fun item listed => (reads item listed).2) ?_
  refine collect_undeclared undeclared made _ fun item listed => ?_
  obtain ⟨own, among, rfl⟩ := List.mem_map.mp listed
  exact (reads own among).1

/-- Behind a flag that tells of a value comes what the codec reads. -/
theorem reads_flagged_true {codec : Codec} {bytes : Bytes} {result : Option Value}
    (read : Reads config (codec.decode.run ((build schema config).answer depth visited)) bytes
      result) :
    Reads config ((codec.flagged true).decode.run ((build schema config).answer depth visited))
      ((Piece.flag true).bytes ++ bytes) result := by
  rw [Codec.run_decode_flagged]
  exact Buffer.reads_bind (Buffer.reads_readBool config true) read

/-- A flag that tells of none is all that is read. -/
theorem reads_flagged_false (codec : Codec) :
    Reads config ((codec.flagged true).decode.run ((build schema config).answer depth visited))
      (Piece.flag false).bytes none := by
  rw [Codec.run_decode_flagged]
  exact Buffer.reads_bind (Buffer.reads_readBool config false) (Buffer.reads_pure none)

/-- What is written through boxes and one option is read. -/
theorem reads_marked (undeclared : schema.kind core = .sequence none)
    (made : schema.itemType? core = some element)
    (wraps : core.Wraps options type) (wrapped : value.Wrapped core element type)
    (few : options ≤ 1) (marked : Marker.element? markers = some element)
    (each : ∀ items, value.within = some items →
      ReadsWithin schema config depth visited element form image items)
    (counted : ∀ items, value.within = some items → items.length < 0x8000000000000000) :
    Reads config ((build schema config).answer (depth + 1) visited
        (.decode (.ofPlace type markers site none)) : Buffer.Op Value)
      (value.wireAt (options == 0 && markers.contains .nullable) form) (value.exchange image) := by
  obtain ⟨unwrapped, strips⟩ := wraps.unwrapped_eq undeclared few
  have shaped : schema.shape type.unwrapped (Marker.element? markers) = .ok (.sequence element) := by
    rw [unwrapped, marked, Schema.shape_marked undeclared]
  rw [← Value.within_unboxed] at each counted
  rw [Value.wireAt, ← Value.wireThrough_unboxed]
  cases wrapped.stripped wraps undeclared with
  | bare projected below =>
      have read := reads_undeclared undeclared made below each counted
      refine reads_place schema config _ visited type markers site _ _
        (Value.through_exchange image) value _ _ shaped projected ?_
      rw [unwrapped, strips]
      cases markers.contains .nullable with
      | false => exact read
      | true => exact reads_flagged_true read
  | absent fewer inner own projected =>
      obtain rfl : fewer = 0 := Nat.le_zero.mp (Nat.le_of_succ_le_succ few)
      refine reads_place schema config _ visited type markers site _ _
        (Value.through_exchange image) value _ _ shaped projected ?_
      rw [unwrapped, strips, own]
      exact reads_flagged_false _
  | present fewer held own below projected =>
      obtain rfl : fewer = 0 := Nat.le_zero.mp (Nat.le_of_succ_le_succ few)
      rw [own, show (Value.present held).within = held.within from rfl, ← Value.within_unboxed]
        at each counted
      rw [unwrapped] at below
      have read := reads_undeclared undeclared made below each counted
      rw [Value.wireThrough_unboxed] at read
      refine reads_place schema config _ visited type markers site _ _
        (Value.through_exchange image) value _ _ shaped projected ?_
      rw [unwrapped, strips, own]
      exact reads_flagged_true read

/-- A value that is absent further out is read without a marker as well. -/
theorem reads_unmarked (undeclared : schema.kind core = .sequence none) (flags : Nat)
    (wraps : core.Wraps (flags + 1) type) (wrapped : value.Wrapped core element type)
    (enough : type.size ≤ depth + 1) (early : value.presence < flags) :
    Reads config ((build schema config).answer (depth + 1) visited
        (.decode (.ofPlace type markers site none)) : Buffer.Op Value)
      (value.wireThrough form) (value.exchange image) := by
  induction flags generalizing type markers site value depth with
  | zero => exact absurd early (Nat.not_lt_zero _)
  | succ flags inductionHypothesis =>
      obtain ⟨strips, below, depth, rfl, kept, under, room⟩ := wraps.nested undeclared enough
      have shaped : schema.shape type.unwrapped (Marker.element? markers) = .ok .nested := by
        rw [kept, Schema.shape_option]
      rw [← Value.presence_unboxed] at early
      rw [← Value.wireThrough_unboxed]
      cases wrapped.stripped wraps undeclared with
      | absent _ inner own projected =>
          refine reads_place schema config _ visited type markers site _ _
            (Value.through_exchange image) value _ _ shaped projected ?_
          rw [strips, own]
          exact reads_flagged_false _
      | present _ held own stripped projected =>
          rw [kept] at stripped
          rw [own] at early
          have later : Reads config ((build schema config).answer (depth + 1) visited
              (.decode (Codec.innerPlace (.option below))) : Buffer.Op Value) _ _ :=
            inductionHypothesis under stripped room
              (by rw [Value.presence_unboxed]; exact Nat.lt_of_succ_lt_succ early)
          rw [Value.wireThrough_unboxed] at later
          refine reads_place schema config _ visited type markers site _ _
            (Value.through_exchange image) value _ _ shaped projected ?_
          rw [strips, own]
          refine reads_flagged_true ?_
          rw [kept, Shape.codec, Codec.run_decode_innerOption]
          exact Buffer.reads_map some later

/-- Where all options around the innermost one are told to be present, reading is refused behind
    the flags. -/
theorem decode_unmarked (undeclared : schema.kind core = .sequence none) (flags : Nat)
    (wraps : core.Wraps (flags + 1) type) (lost : flags = 0 → Marker.element? markers = none)
    (enough : type.size ≤ depth + 1) (rest : Bytes) :
    ((build schema config).answer (depth + 1) visited
        (.decode (.ofPlace type markers site none)) : Buffer.Op Value)
        (Buffer.reader (Piece.wire (List.replicate flags (.flag true)) ++ rest) config)
      = .error (.missingElementType core.name) (Buffer.reader rest config) := by
  induction flags generalizing type markers site depth with
  | zero =>
      rw [answer_decode_place, lost rfl, (wraps.unwrapped_eq undeclared (Nat.le_refl 1)).1,
        Schema.shape_unmarked undeclared]
      rfl
  | succ flags inductionHypothesis =>
      obtain ⟨strips, below, depth, rfl, kept, under, room⟩ := wraps.nested undeclared enough
      have later : ((build schema config).answer (depth + 1) visited
          (.decode (Codec.innerPlace (.option below))) : Buffer.Op Value) _ = _ :=
        inductionHypothesis under (fun _ => rfl) room
      rw [answer_decode_place, kept, strips, Schema.shape_option, Step.lift_ok,
        LawfulMonad.pure_bind, Bool.true_or, Codec.run_decode_flagged, List.replicate_succ,
        Piece.wire_cons, List.append_assoc, Shape.codec, Codec.run_decode_innerOption]
      rw [Step.bind_apply, Step.bind_apply, Buffer.reads_readBool config true]
      simp only [if_true, map_eq_pure_bind, Step.bind_apply]
      rw [later]

/-! ## Both ways -/

/-- Whatever is written of the elements, alone at places of their own, is written of the value behind
    the flags and the number; and the value is read from it with what is then read of each element. -/
def Carries (schema : Schema) (config : Config) (depth : Nat) (visited : List Ty) (element : Ty)
    (announced : Bool) (taking : Buffer.Op Value) (value : Value) : Prop :=
  let each := fun item => (build schema config).answer depth visited
    (.encode ((Codec.elementPlace element).withValue item))
  ∀ (form : Value → Bytes) (image : Value → Value),
    (∀ items, value.within = some items → ∀ item ∈ items, Emits (each item) (form item)) →
      Emits (value.writeAt announced each) (value.wireAt announced form) ∧
        ((∀ items, value.within = some items →
            ReadsWithin schema config depth visited element form image items) →
          Succeeds (value.writeAt announced each) →
            Reads config taking (value.wireAt announced form) (value.exchange image))

/-- A place carries the values of a sequence that the marker reaches. -/
theorem carries_marked (undeclared : schema.kind core = .sequence none)
    (made : schema.itemType? core = some element)
    (wraps : core.Wraps options type) (wrapped : value.Wrapped core element type)
    (few : options ≤ 1) (marked : Marker.element? markers = some element) :
    Carries schema config depth visited element (options == 0 && markers.contains .nullable)
      ((build schema config).answer (depth + 1) visited (.decode (.ofPlace type markers site none)))
      value := by
  refine fun form image emits => ⟨emits_writeAt _ _ form value emits, fun reads succeeds => ?_⟩
  exact reads_marked undeclared made wraps wrapped few marked reads fun items here =>
    lt_of_writeThrough items here (succeeds_writeThrough _ succeeds)

/-- A place carries the values that are absent before the marker is missed. -/
theorem carries_unmarked (undeclared : schema.kind core = .sequence none) (flags : Nat)
    (wraps : core.Wraps (flags + 2) type) (wrapped : value.Wrapped core element type)
    (enough : type.size ≤ depth + 1) (early : value.presence < flags + 1) :
    Carries schema config depth visited element (flags + 2 == 0 && markers.contains .nullable)
      ((build schema config).answer (depth + 1) visited (.decode (.ofPlace type markers site none)))
      value :=
  fun form _ emits => ⟨emits_writeAt _ _ form value emits,
    fun _ _ => reads_unmarked undeclared (flags + 1) wraps wrapped enough early⟩

/-- Elements of a derived type are written as they are laid out, and are read with blanks in place of
    what does not travel. -/
theorem carried_derived (invertible : schema.Throughout schema.Invertible element)
    (config : Config) (depth : Nat) (visited : List Ty) (items : List Value)
    (typed : ∀ item ∈ items, item.Typed schema element) :
    let each := fun item => (build schema config).answer depth visited
      (.encode ((Codec.elementPlace element).withValue item))
    let form := fun item => Piece.wire (item.layout schema element none)
    (∀ item ∈ items, Emits (each item) (form item)) ∧
      ((Piece.elementCount items.length).Admitted config →
        (∀ item ∈ items, Succeeds (each item) ∧
          ∀ piece ∈ item.layout schema element none, piece.Admitted config) →
          ReadsWithin schema config depth visited element form (Value.restored schema) items) := by
  intro each form
  have plain : schema.Plain element := invertible.mono fun _ both => both.1.not_custom
  refine ⟨fun item _ => ?_, fun admitted each => ⟨admitted, fun item listed => ?_⟩⟩
  · have emitted := (emits_answer schema config depth).1 visited element [] (.element element)
      item plain fun _ named => by cases named
    rwa [Value.layoutAt_nil] at emitted
  · obtain ⟨succeeds, pieces⟩ := each item listed
    have back := (reads_answer schema config depth).1 visited element [] item invertible
      (Marker.honest_nil element) (typed item listed)
    unfold ReadsBack at back
    rw [Value.layoutAt_nil] at back
    exact ⟨(Value.type_restored schema item).trans (typed item listed).type_eq,
      back pieces (.element element) succeeds (.element element)⟩

/-- A marker that names the elements of a sequence reaches it through boxes and one option. A value
    is then written as the flag of the option, the number of its elements and the elements, each as
    at a place of its own. It is read back with what is read of each element there, and elements of
    derived types are themselves read back. Through more options the marker does not reach. Then
    only values that are absent above the innermost option go both ways. Behind the flags of all
    other options, any other value is refused, and so are bytes that announce one. -/
theorem markers_reach_through_one_option (schema : Schema) (config : Config)
    (core element type : Ty) (options : Nat) (markers : List Marker) (site : Site)
    (undeclared : schema.kind core = .sequence none) (made : schema.itemType? core = some element)
    (wraps : core.Wraps options type) (marked : Marker.element? markers = some element)
    (standing : schema.contextAt site = some (.ofPlace type markers site none))
    (visited : List Ty) (depth : Nat) (enough : type.size ≤ depth + 1) :
    let serializer := build schema config
    let announced := options == 0 && markers.contains .nullable
    let each := fun item => serializer.answer depth visited
      (.encode ((Codec.elementPlace element).withValue item))
    let form := fun item => Piece.wire (item.layout schema element none)
    let encode := fun value =>
      serializer.serve (depth + 1) (.encode (.ofPlace type markers site (some value)))
    ∃ taking : Buffer.Op Value,
      Walk.Follows serializer.Coherent visited
        (serializer.serve (depth + 1) (.decode (.ofPlace type markers site none))) taking ∧
      (∀ value, value.Wrapped core element type →
        if options ≤ 1 ∨ value.presence + 2 ≤ options then
          Walk.Follows serializer.Coherent visited (encode value) (value.writeAt announced each) ∧
            Carries schema config depth visited element announced taking value
        else
          Walk.Follows serializer.Coherent visited (encode value) (refusal core (options - 1))) ∧
      (∀ (value : Value) image,
        (∀ items, value.within = some items → ∀ item ∈ items, image item = item) →
          value.exchange image = value) ∧
      (schema.Throughout schema.Invertible element →
        ∀ items, (∀ item ∈ items, item.Typed schema element) →
          (∀ item ∈ items, Emits (each item) (form item)) ∧
            ((Piece.elementCount items.length).Admitted config →
              (∀ item ∈ items, Succeeds (each item) ∧
                ∀ piece ∈ item.layout schema element none, piece.Admitted config) →
                ReadsWithin schema config depth visited element form (Value.restored schema)
                  items)) ∧
      (2 ≤ options → ∀ rest,
        taking (Buffer.reader
            (Piece.wire (List.replicate (options - 1) (.flag true)) ++ rest) config)
          = .error (.missingElementType core.name) (Buffer.reader rest config)) := by
  intro serializer announced each form encode
  have placed (value : Option Value) :
      (Context.ofPlace type markers site value).Placed schema := by
    rintro _ ⟨⟩
    exact standing
  have follows (request : Request) (placed : request.Placed schema) :
      Walk.Follows serializer.Coherent visited (serializer.serve (depth + 1) request)
        (serializer.answer (depth + 1) visited request) :=
    follows_serve (builtin_static schema config) (builtin_makes schema config) _ _ _ placed
  refine ⟨_, follows _ (placed none), ?_, fun value image => value.exchange_of_fixed image,
    fun invertible items typed => carried_derived invertible config depth visited items typed, ?_⟩
  · intro value wrapped
    have written := follows (.encode (.ofPlace type markers site (some value))) (placed (some value))
    by_cases few : options ≤ 1
    · rw [if_pos (.inl few)]
      rw [show serializer.answer _ _ _ = _ from encode_marked undeclared wraps wrapped few marked]
        at written
      exact ⟨written, carries_marked undeclared made wraps wrapped few marked⟩
    · obtain ⟨fewer, rfl⟩ := Nat.exists_eq_add_of_le' (Nat.lt_of_not_le few)
      rw [show serializer.answer _ _ _ = _ from encode_unmarked undeclared (fewer + 1) wraps wrapped
        (fun none => absurd none (Nat.succ_ne_zero _)) enough each] at written
      by_cases early : value.presence < fewer + 1
      · rw [if_pos early] at written
        rw [if_pos (.inr (Nat.succ_le_succ early))]
        exact ⟨written, carries_unmarked undeclared fewer wraps wrapped enough early⟩
      · rw [if_neg early] at written
        rw [if_neg (fun reaches => reaches.elim few fun room => early (Nat.le_of_succ_le_succ room))]
        exact written
  · intro more rest
    obtain ⟨fewer, rfl⟩ := Nat.exists_eq_add_of_le' more
    exact decode_unmarked undeclared (fewer + 1) wraps (fun none => absurd none (Nat.succ_ne_zero _))
      enough rest

/-- Crates have a bag, which may be below an option or below two of them, and markers that name the
    elements of each. -/
def crates : Schema where
  entries :=
    [{ type := .named "Bag", definition := .sequence .i32 },
      { type := .named "Crate"
        definition := .aggregate
          { fields := [⟨"bag", .named "Bag", [.streamable .i32], 0⟩,
              ⟨"spare", .boxed (.option (.named "Bag")), [.streamable .i32], 1⟩,
              ⟨"hidden", .option (.boxed (.option (.named "Bag"))), [.streamable .i32], 2⟩] } }]

/-- A bag of two numbers. -/
def bag : Value := .sequence (.named "Bag") [.i32 5, .i32 6]

/-- The elements of the bag are numbers. -/
theorem typed_bag : ∀ item ∈ [Value.i32 5, .i32 6], item.Typed crates .i32 := by
  intro item listed
  simp only [List.mem_cons, List.not_mem_nil, or_false] at listed
  obtain rfl | rfl := listed
  · exact .scalar (.i32 5)
  · exact .scalar (.i32 6)

/-- So it is a bag of numbers. -/
theorem wrapped_bag : bag.Wrapped (.named "Bag") .i32 (.named "Bag") :=
  .sequence _ fun item listed => (typed_bag item listed).type_eq

/-- Each of the numbers can be written at a place of its own, and no limit forbids to read it. -/
theorem writable_bag : ∀ item ∈ [Value.i32 5, .i32 6],
    Succeeds ((build crates {}).answer 3 [] (.encode ((Codec.elementPlace .i32).withValue item))) ∧
      ∀ piece ∈ item.layout crates .i32 none, piece.Admitted {} := by
  intro item listed
  have succeeded : ∀ number ∈ [(5 : Int32), 6], Step.succeeded ((build crates {}).answer 3 []
      (.encode ((Codec.elementPlace .i32).withValue (.i32 number))) (build crates {}).writer) = true :=
    List.all_eq_true.mp (by decide +kernel)
  obtain ⟨number, among, rfl⟩ : ∃ number ∈ [(5 : Int32), 6], Value.i32 number = item :=
    List.mem_map.mp listed
  obtain ⟨done, after, written⟩ := Step.exists_of_succeeded (succeeded number among)
  exact ⟨⟨_, done, after, written⟩, fun piece _ => piece.admitted_unlimited⟩

/-- At its place in a crate the spare bag is read back. Of the hidden one nothing is written but the
    flag of the outer option. -/
theorem markers_reach_through_one_option_crate :
    let serializer := build crates {}
    let spare := Context.ofPlace (.boxed (.option (.named "Bag"))) [.streamable .i32]
      (.field (.named "Crate") 1)
    let hidden := Context.ofPlace (.option (.boxed (.option (.named "Bag")))) [.streamable .i32]
      (.field (.named "Crate") 2)
    (crates.contextAt (.field (.named "Crate") 1) = some (spare none) ∧
      crates.contextAt (.field (.named "Crate") 2) = some (hidden none) ∧
      crates.Throughout crates.Invertible .i32 ∧
      (Value.boxed (.present bag)).Wrapped (.named "Bag") .i32
        (.boxed (.option (.named "Bag"))) ∧
      (Value.present (.boxed (.present bag))).Wrapped (.named "Bag") .i32
        (.option (.boxed (.option (.named "Bag"))))) ∧
    (∃ taking : Buffer.Op Value,
      Walk.Follows serializer.Coherent [] (serializer.serve 4 (.decode (spare none))) taking ∧
        Reads {} taking [1, 0, 0, 0, 0, 0, 0, 0, 2, 0, 0, 0, 5, 0, 0, 0, 6]
          (.boxed (.present bag))) ∧
    Walk.Follows serializer.Coherent []
      (serializer.serve 4 (.encode (hidden (some (.present (.boxed (.present bag)))))))
      (refusal (.named "Bag") 1) := by
  intro serializer spare hidden
  have invertible : crates.Throughout crates.Invertible .i32 := by
    refine Schema.throughout_of_closed [.i32] List.mem_cons_self (by decide) fun type listed => ?_
    cases List.mem_singleton.mp listed
    exact ⟨.leaf _ (by decide), trivial⟩
  have spareWraps : (Ty.named "Bag").Wraps 1 (.boxed (.option (.named "Bag"))) :=
    .boxed _ _ (.option _ _ .here)
  have hiddenWraps : (Ty.named "Bag").Wraps 2 (.option (.boxed (.option (.named "Bag")))) :=
    .option _ _ (.boxed _ _ (.option _ _ .here))
  have spareBag : (Value.boxed (.present bag)).Wrapped (.named "Bag") .i32
      (.boxed (.option (.named "Bag"))) := .boxed _ _ (.present _ _ wrapped_bag)
  have hiddenBag : (Value.present (.boxed (.present bag))).Wrapped (.named "Bag") .i32
      (.option (.boxed (.option (.named "Bag")))) :=
    .present _ _ (.boxed _ _ (.present _ _ wrapped_bag))
  refine ⟨⟨rfl, rfl, invertible, spareBag, hiddenBag⟩, ?_, ?_⟩
  · obtain ⟨taking, follows, goes, -, derived, -⟩ := markers_reach_through_one_option crates {}
      (.named "Bag") .i32 _ 1 [.streamable .i32] (.field (.named "Crate") 1) rfl rfl spareWraps rfl
      rfl [] 3 (by decide)
    have reaches := goes _ spareBag
    rw [if_pos (.inl (Nat.le_refl 1))] at reaches
    obtain ⟨emits, readable⟩ := derived invertible _ typed_bag
    obtain ⟨-, read⟩ := reaches.2 _ (Value.restored crates) fun _ here => by
      cases here
      exact emits
    obtain ⟨done, after, written⟩ := Step.exists_of_succeeded (show Step.succeeded
      ((Value.boxed (.present bag)).writeAt false (fun item => serializer.answer 3 []
        (.encode ((Codec.elementPlace .i32).withValue item))) serializer.writer) = true by
        decide +kernel)
    refine ⟨taking, follows, read (fun _ here => ?_) ⟨_, done, after, written⟩⟩
    cases here
    exact readable (Piece.admitted_unlimited _) writable_bag
  · obtain ⟨taking, -, goes, -⟩ := markers_reach_through_one_option crates {} (.named "Bag")
      .i32 _ 2 [.streamable .i32] (.field (.named "Crate") 2) rfl rfl hiddenWraps rfl rfl [] 3
      (by decide)
    have lost := goes _ hiddenBag
    rw [if_neg (by decide)] at lost
    exact lost

/-- Shelves have a place of a type with markers. There are bags of numbers, of bags, of visits and
    of what is clipped. -/
def shelves (type : Ty) (markers : List Marker) : Schema where
  entries :=
    [ { type := .named "Bag", definition := .sequence .i32 },
      { type := .named "Sack", definition := .sequence (.named "Bag") },
      { type := .named "Diary", definition := .sequence (.named "Visit") },
      { type := .named "Clippings", definition := .sequence (Catalogue.type "Clipped") },
      Catalogue.declared (.named "Visit")
        [Catalogue.member "place" .i8, Catalogue.skipped "count" .i8 (.i8 0)],
      -- The constructor takes one argument of two.
      Catalogue.described "Clipped" [Catalogue.member "a" .i8, Catalogue.member "b" .i8]
        [(none, do return [← Arguments.take .i8, .i8 7])],
      Catalogue.declared (.named "Shelf") [Catalogue.member "content" type markers] ]

/-- A marker that names the elements is not all there is to a place. A marker of its own can tell
    it to write a flag where no option is, a second option has a place of its own, and of several
    markers that name elements the first is heeded. Elements may be such as nothing can write, or
    such as are not read as they are written, and limits may forbid to read as many. -/
theorem markers_do_not_suffice :
    let shelf := fun content => Value.record (.named "Shelf") [content]
    let write := fun type markers content =>
      let serializer := build (shelves type markers) {}
      serializer.encode (shelf content) serializer.start
    let read := fun type markers content config =>
      let serializer := build (shelves type markers) config
      (Step.result? (write type markers content)).map fun bytes =>
        serializer.decode (.named "Shelf") bytes serializer.start
    let refused := fun type markers content =>
      (Step.failure? (write type markers content)).map Error.rootCause
    let compared := fun type markers content =>
      ((read type markers content {}).bind Step.result?).map (Value.order (shelf content))
    let sack := Value.sequence (.named "Sack") [bag]
    let diary := Value.sequence (.named "Diary") [.record (.named "Visit") [.i8 1, .i8 2]]
    let clippings := Value.sequence (.named "Clippings")
      [.record (Catalogue.type "Clipped") [.i8 1, .i8 2]]
    Step.result? (write (.named "Bag") [.nullable, .streamable .i32] bag)
        = some [1, 0, 0, 0, 0, 0, 0, 0, 2, 0, 0, 0, 5, 0, 0, 0, 6] ∧
      refused (.option (.option (.named "Bag"))) [.streamable .i32] (.present (.present bag))
        = some (.missingElementType "Bag") ∧
      refused (.named "Bag") [.streamable .string, .streamable .i32] bag
        = some (.typeMismatch Ty.string.name) ∧
      refused (.named "Sack") [.streamable (.named "Bag")] sack
        = some (.missingElementType "Bag") ∧
      compared (.named "Diary") [.streamable (.named "Visit")] diary = some .gt ∧
      compared (.named "Clippings") [.streamable (Catalogue.type "Clipped")] clippings = some .lt ∧
      ((read (.named "Bag") [.streamable .i32] bag { collectionLengths := .upTo 1 }).bind
          Step.failure?).map Error.rootCause = some (.lengthExceeded 2) := by
  decide +kernel

end Serializer

end

end Wireform
