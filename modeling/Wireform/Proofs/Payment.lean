import Wireform.Proofs.Forward
import Wireform.Proofs.Tally

/-!
# Parts are paid for with bytes

Nothing but the limits bounds a number of elements that stands on the wire, and by default there are
none. What does bound the number of those that are decoded is that each of them takes a byte at
least. There are types whose values take none: aggregates without fields, or with fields of such
types only, and boxes of them. Any number of these can follow a count. But that is all: parts of
all other types are paid for, one by one, and each with bytes of its own.

A step spends so much of what its state is worth if it leaves that much less when it succeeds, and no
more than there was when it fails. A tally is worth the bytes that are left and a byte for each part
that has been decoded and takes one. So to decode a part is to turn bytes into a part, and a tally is
never worth more than in the beginning.
-/

namespace Wireform

variable {σ α β : Type}

namespace Step

/-- What is left is worth less, by at least so much, after a success, and not more after a
    failure. -/
structure Spends (worth : σ → Nat) (least : Nat) (step : Step σ α) : Prop where
  ok : ∀ {state result after}, step state = .ok result after → worth after + least ≤ worth state
  error : ∀ {state error after}, step state = .error error after → worth after ≤ worth state

variable {worth : σ → Nat} {least : Nat} {step : Step σ α}

/-- A result is free. -/
theorem spends_pure (result : α) : Spends worth 0 (pure result : Step σ α) where
  ok ended := by cases ended; exact Nat.le_refl _
  error ended := by cases ended

/-- There is no success to be paid for in a failure. -/
theorem spends_fail (error : Error) : Spends worth least (fail error : Step σ α) where
  ok ended := by cases ended
  error ended := by cases ended; exact Nat.le_refl _

/-- A known outcome is free. -/
theorem spends_lift (outcome : Except Error α) : Spends worth 0 (lift outcome : Step σ α) := by
  cases outcome with
  | ok result => exact spends_pure result
  | error error => exact spends_fail error

/-- Who spends more spends less. -/
theorem Spends.mono {fewer : Nat} (spends : Spends worth least step) (le : fewer ≤ least) :
    Spends worth fewer step where
  ok ended := Nat.le_trans (Nat.add_le_add_left le _) (spends.ok ended)
  error ended := spends.error ended

/-- A succession spends what both parts do. -/
theorem spends_bind {more : Nat} {next : α → Step σ β} (first : Spends worth least step)
    (second : ∀ result, Spends worth more (next result)) :
    Spends worth (least + more) (step >>= next) where
  ok {state result after} ended := by
    rw [bind_apply] at ended
    cases begun : step state with
    | error error between => rw [begun] at ended; cases ended
    | ok found between =>
        rw [begun] at ended
        have spent := first.ok begun
        have later := (second found).ok ended
        omega
  error {state error after} ended := by
    rw [bind_apply] at ended
    cases begun : step state with
    | error error between =>
        rw [begun] at ended
        cases ended
        exact first.error begun
    | ok found between =>
        rw [begun] at ended
        have spent := first.ok begun
        have later := (second found).error ended
        omega

/-- What follows may be free. -/
theorem spends_bind_free {next : α → Step σ β} (first : Spends worth least step)
    (second : ∀ result, Spends worth 0 (next result)) : Spends worth least (step >>= next) :=
  spends_bind first second

/-- Changing the result is free. -/
theorem spends_map (change : α → β) (spends : Spends worth least step) :
    Spends worth least (change <$> step) := by
  rw [map_eq_pure_bind]
  exact spends_bind_free spends fun result => spends_pure (change result)

/-- Naming the field of a failure is free. -/
theorem spends_inField (owner name : String) (spends : Spends worth least step) :
    Spends worth least (inField owner name step) where
  ok {state result after} ended := by
    unfold inField at ended
    cases begun : step state with
    | error error between => rw [begun] at ended; cases ended
    | ok found between => rw [begun] at ended; cases ended; exact spends.ok begun
  error {state error after} ended := by
    unfold inField at ended
    cases begun : step state with
    | ok found between => rw [begun] at ended; cases ended
    | error error between => rw [begun] at ended; cases ended; exact spends.error begun

end Step

open Step

namespace Buffer

/-- Bytes that are taken are gone. -/
theorem spends_take (count : Nat) : Spends length count (take count) := by
  constructor
  · intro buffer result after ended
    obtain ⟨contents, config⟩ := buffer
    cases contents with
    | written reversed => cases ended
    | unread bytes =>
        simp only [take, List.splitAt_eq] at ended
        split at ended
        · next enough =>
            cases ended
            have parts := congrArg List.length (List.take_append_drop count bytes)
            rw [List.length_append, enough] at parts
            exact Nat.le_of_eq ((Nat.add_comm _ _).trans parts)
        · cases ended
  · intro buffer error after ended
    obtain ⟨contents, config⟩ := buffer
    cases contents with
    | written reversed => cases ended; exact Nat.le_refl _
    | unread bytes =>
        simp only [take, List.splitAt_eq] at ended
        split at ended
        · cases ended
        · cases ended; exact Nat.le_refl _

/-- A look at the limits is free. -/
theorem spends_limits : Spends length 0 limits where
  ok ended := by cases ended; exact Nat.le_refl _
  error ended := by cases ended

/-- A number takes its octets. -/
theorem spends_readNumber (width : Nat) : Spends length width (readNumber width) :=
  spends_bind_free (spends_take width) fun _ => spends_pure _

/-- A flag takes its octet. -/
theorem spends_readBool : Spends length 1 readBool := by
  refine spends_bind_free (spends_readNumber 1) fun number => ?_
  match number with
  | 0 => exact spends_pure false
  | 1 => exact spends_pure true
  | number + 2 => exact spends_fail _

/-- To judge a length is free. -/
theorem spends_checkLength (width : Nat) (range : Range) (number : Nat) :
    Spends length 0 (checkLength width range number) := by
  unfold checkLength
  split
  · split
    · exact spends_pure number
    · exact spends_fail _
  · exact spends_fail _

/-- A length that obeys the limits takes four octets. -/
theorem spends_length (range : Config → Range) :
    Spends length 4 (limits >>= fun limits => readLength (range limits)) := by
  have judged (limits : Config) : Spends length 4 (readLength (range limits)) :=
    spends_bind_free (spends_readNumber 4) fun number => spends_checkLength 4 _ number
  exact (spends_bind spends_limits judged).mono (Nat.le_refl _)

/-- A number of elements that obeys the limits takes eight octets. -/
theorem spends_longLength (range : Config → Range) :
    Spends length 8 (limits >>= fun limits => readLongLength (range limits)) := by
  have judged (limits : Config) : Spends length 8 (readLongLength (range limits)) :=
    spends_bind_free (spends_readNumber 8) fun number => spends_checkLength 8 _ number
  exact (spends_bind spends_limits judged).mono (Nat.le_refl _)

/-- What follows a number of octets takes them. -/
theorem spends_counted (range : Config → Range) {next : Nat → Op α}
    (free : ∀ count, Spends length 0 (next count)) :
    Spends length 4 (do
      let limits ← limits
      let count ← readLength (range limits)
      next count) := by
  have counted := spends_bind_free (spends_length range) free
  rwa [bind_assoc] at counted

/-- Text takes the four octets of its length at least. -/
theorem spends_readString : Spends length 4 readString := by
  refine spends_counted Config.stringLengths fun count => ?_
  refine spends_bind_free ((spends_take count).mono (Nat.zero_le _)) fun octets => ?_
  unfold asText
  split
  · exact spends_pure _
  · exact spends_fail _

/-- A byte string takes the four octets of its length at least. -/
theorem spends_readBytes : Spends length 4 readBytes :=
  spends_counted Config.byteLengths fun count => (spends_take count).mono (Nat.zero_le _)

/-- A character takes its unit. -/
theorem spends_readChar : Spends length 2 readChar := by
  refine spends_bind_free (spends_readNumber 2) fun unit => ?_
  split
  · exact spends_pure _
  · exact spends_fail _

end Buffer

/-- Every leaf takes a byte at least. -/
theorem Leaf.spends_read (plain : Leaf) : Spends Buffer.length 1 plain.read := by
  have number (width : Nat) (some : 1 ≤ width) (make : Nat → Scalar) :
      Spends Buffer.length 1 (do return make (← Buffer.readNumber width)) :=
    (spends_bind_free (Buffer.spends_readNumber width) fun _ => spends_pure _).mono some
  cases plain with
  | bool => exact spends_bind_free Buffer.spends_readBool fun _ => spends_pure _
  | char =>
      exact (spends_bind_free Buffer.spends_readChar fun _ => spends_pure _).mono (by decide)
  | string =>
      exact (spends_bind_free Buffer.spends_readString fun _ => spends_pure _).mono (by decide)
  | bytes =>
      exact (spends_bind_free Buffer.spends_readBytes fun _ => spends_pure _).mono (by decide)
  | _ => exact number _ (by decide) _

/-- Every member of an enumeration takes the length of its name at least. -/
theorem Enumeration.spends_read (type : Ty) (names : List String) :
    Spends Buffer.length 1 (Enumeration.read type names) := by
  refine (spends_bind_free Buffer.spends_readString fun name => ?_).mono (by decide)
  split
  · exact spends_pure _
  · exact spends_fail _

/-! ## Types that take no bytes -/

/-- The values of the type take no bytes: it is an aggregate whose fields are of such types and are
    not marked as nullable, or a box of one. -/
inductive Schema.Idle (schema : Schema) : Ty → Prop
  | boxed (inner : Ty) (idle : Idle schema inner) : Idle schema (.boxed inner)
  | aggregate (type : Ty) (description : Aggregate)
      (described : schema.kind type = .aggregate description)
      (unflagged : ∀ field ∈ description.fields, field.markers.contains .nullable = false)
      (each : ∀ field ∈ description.fields, Idle schema field.type) : Idle schema type

namespace Schema

variable {schema : Schema}

open Classical in
/-- What a part of a type costs. -/
noncomputable def price (schema : Schema) (type : Ty) : Nat := if schema.Idle type then 0 else 1

/-- What a value costs at a place with markers. -/
noncomputable def priceAt (schema : Schema) (declared : Ty) (markers : List Marker) : Nat :=
  if markers.contains .nullable then 1 else schema.price declared

open Classical in
/-- How many of the parts take bytes. -/
noncomputable def busy (schema : Schema) (parts : List Ty) : Nat :=
  parts.countP fun type => ¬ schema.Idle type

/-- A part that takes a byte is one more of them. -/
theorem busy_cons (type : Ty) (parts : List Ty) :
    schema.busy (type :: parts) = schema.busy parts + schema.price type := by
  unfold busy price
  by_cases idle : schema.Idle type
  · rw [List.countP_cons_of_neg (by simpa using idle), if_pos idle]
    rfl
  · rw [List.countP_cons_of_pos (by simpa using idle), if_neg idle]

/-- Parts that take bytes add up. -/
theorem busy_append (first second : List Ty) :
    schema.busy (first ++ second) = schema.busy first + schema.busy second :=
  List.countP_append

/-- An idle type costs nothing. -/
theorem price_of_idle {type : Ty} (idle : schema.Idle type) : schema.price type = 0 := if_pos idle

/-- Any other type costs a byte. -/
theorem price_of_not_idle {type : Ty} (busy : ¬ schema.Idle type) : schema.price type = 1 :=
  if_neg busy

/-- No type costs more than a byte. -/
theorem price_le_one (type : Ty) : schema.price type ≤ 1 := by
  unfold price
  split
  · exact Nat.zero_le 1
  · exact Nat.le_refl 1

/-- Nothing costs more than a byte at any place. -/
theorem priceAt_le_one (declared : Ty) (markers : List Marker) :
    schema.priceAt declared markers ≤ 1 := by
  unfold priceAt
  split
  · exact Nat.le_refl 1
  · exact price_le_one declared

/-- Only idle values without a flag cost nothing. -/
theorem idle_of_priceAt {declared : Ty} {markers : List Marker}
    (free : schema.priceAt declared markers = 0) :
    markers.contains .nullable = false ∧ schema.Idle declared := by
  unfold priceAt at free
  split at free
  · cases free
  · next unflagged =>
      refine ⟨Bool.eq_false_iff.mpr unflagged, ?_⟩
      by_contra busy
      rw [price_of_not_idle busy] at free
      cases free

/-- Boxes are for free. -/
theorem idle_of_unwrapped {type : Ty} (strips : type.stripsOption = false)
    (idle : schema.Idle type.unwrapped) : schema.Idle type := by
  induction type with
  | boxed inner inductionHypothesis => exact .boxed inner (inductionHypothesis strips idle)
  | option inner => cases strips
  | _ => exact idle

/-- Without a flag a value costs at a place what is below the boxes. -/
theorem priceAt_le_price {declared : Ty} {markers : List Marker}
    (strips : declared.stripsOption = false) (unflagged : markers.contains .nullable = false) :
    schema.priceAt declared markers ≤ schema.price declared.unwrapped := by
  rw [priceAt, unflagged, if_neg Bool.false_ne_true]
  by_cases idle : schema.Idle declared
  · rw [price_of_idle idle]
    exact Nat.zero_le _
  · rw [price_of_not_idle fun below => idle (idle_of_unwrapped strips below)]
    exact price_le_one declared

/-- An aggregate costs no more than its fields. -/
theorem price_le_totalSize {type : Ty} {description : Aggregate}
    (described : schema.kind type = .aggregate description) :
    schema.price type
      ≤ totalSize (description.fields.map fun field => schema.priceAt field.type field.markers) := by
  by_cases free : ∀ field ∈ description.fields, schema.priceAt field.type field.markers = 0
  · have idle : schema.Idle type := .aggregate type description described
      (fun field listed => (idle_of_priceAt (free field listed)).1)
      (fun field listed => (idle_of_priceAt (free field listed)).2)
    rw [price_of_idle idle]
    exact Nat.zero_le _
  · push Not at free
    obtain ⟨field, listed, costs⟩ := free
    calc schema.price type ≤ 1 := price_le_one type
      _ ≤ schema.priceAt field.type field.markers := Nat.one_le_iff_ne_zero.mpr costs
      _ ≤ _ := le_totalSize (List.mem_map_of_mem
        (f := fun field : Field => schema.priceAt field.type field.markers) listed)

end Schema

/-- Nothing of an idle value is on the wire. -/
theorem Schema.Idle.layout_eq_nil {schema : Schema} {type : Ty} (idle : schema.Idle type)
    (value : Value) (marked : Option Ty) : value.layout schema type marked = [] := by
  induction idle generalizing value marked with
  | boxed inner _ inductionHypothesis =>
      cases value with
      | boxed held => exact inductionHypothesis held marked
      | _ => rfl
  | aggregate type description described unflagged each inductionHypothesis =>
      cases value with
      | record own members =>
          simp only [Value.layout, described]
          refine List.flatMap_eq_nil_iff.mpr fun field listed => ?_
          rw [Value.itemLayouts_eq_map, List.getElem?_map]
          cases members[field.slot]? with
          | none => rfl
          | some member =>
              have silent : Piece.presence field.type field.markers = [] := by
                rw [Piece.presence, unflagged field listed, Bool.and_false]
                rfl
              simp only [Option.map_some, silent, List.nil_append]
              exact inductionHypothesis field listed member _
      | _ => simp only [Value.layout, described]

/-! ## Tallies -/

namespace Tally

variable {schema : Schema} {least : Nat}

/-- A tally is worth the bytes that are left, and a byte for each part that takes one. -/
noncomputable def worth (schema : Schema) (tally : Tally) : Nat :=
  tally.buffer.length + schema.busy tally.parts

/-- What is written down at a site is worth so much. -/
noncomputable def noted (schema : Schema) (site : Option Site) : Nat :=
  schema.busy (site.bind Site.part?).toList

/-- What the buffer loses the tally loses. -/
theorem spends_on {operation : Buffer.Op α} (spends : Spends Buffer.length least operation) :
    Spends (worth schema) least (on operation) := by
  constructor
  · intro tally result after ended
    obtain ⟨buffer, worked, rfl⟩ := carry_eq_ok ended
    have spent := spends.ok worked
    simp only [worth]
    omega
  · intro tally error after ended
    obtain ⟨buffer, worked, rfl⟩ := carry_eq_error ended
    exact Nat.add_le_add_right (spends.error worked) _

/-- What has been spent pays for what is written down. -/
theorem spends_note {step : Step Tally α} (site : Option Site)
    (spends : Spends (worth schema) (least + noted schema site) step) :
    Spends (worth schema) least (do
      let result ← step
      note site
      return result) := by
  constructor
  · intro tally result after ended
    rw [bind_apply] at ended
    cases begun : step tally with
    | error error between => rw [begun] at ended; cases ended
    | ok found between =>
        rw [begun] at ended
        cases ended
        have spent := spends.ok begun
        have one := schema.busy_append (site.bind Site.part?).toList between.parts
        simp only [worth, noted] at spent ⊢
        omega
  · intro tally error after ended
    rw [bind_apply] at ended
    cases begun : step tally with
    | error other between => rw [begun] at ended; cases ended; exact spends.error begun
    | ok found between => rw [begun] at ended; cases ended

end Tally

namespace Program

variable {worth : σ → Nat} {serve : (request : Request) → Step σ request.Answer}

/-- Elements are free if each is. -/
theorem spends_decodeEach {context : Context}
    (spends : Spends worth 0 (serve (.decode context) : Step σ Value)) (count : Nat)
    (collected : List Value) :
    Spends worth 0 ((decodeEach context count collected).run serve) := by
  induction count generalizing collected with
  | zero => exact spends_pure _
  | succ count inductionHypothesis =>
      rw [decodeEach, run_bind, decode, run_perform]
      exact spends_bind_free spends fun value => inductionHypothesis (value :: collected)

/-- Entries are free if each key and each value is. -/
theorem spends_decodeEntries {key value : Context}
    (keys : Spends worth 0 (serve (.decode key) : Step σ Value))
    (values : Spends worth 0 (serve (.decode value) : Step σ Value)) (count : Nat)
    (collected : List (Value × Value)) :
    Spends worth 0 ((decodeEntries key value count collected).run serve) := by
  induction count generalizing collected with
  | zero => exact spends_pure _
  | succ count inductionHypothesis =>
      rw [decodeEntries, run_bind, decode, run_perform]
      refine spends_bind_free keys fun first => ?_
      rw [run_bind, decode, run_perform]
      exact spends_bind_free values fun second => inductionHypothesis ((first, second) :: collected)

end Program

namespace Serializer

variable {schema : Schema} {config : Config}

/-- What is decoded at a place with markers costs its price, less what is written down of it. -/
def PaysAt (config : Config) (schema : Schema) (depth : Nat) (visited : List Ty) (declared : Ty)
    (markers : List Marker) : Prop :=
  ∀ site least, least + Tally.noted schema (some site) ≤ schema.priceAt declared markers →
    Spends (Tally.worth schema) least ((build schema config).tally depth visited
      (.decode (.ofPlace declared markers site none)) : Step Tally Value)

/-- What is read from a buffer and takes a byte at least takes the price of any type. -/
theorem spends_read (depth : Nat) (visited : List Ty) (type : Ty) {operation : Buffer.Op Value}
    (spends : Spends Buffer.length 1 operation) :
    Spends (Tally.worth schema) (schema.price type)
      ((some <$> Program.buffer operation).run ((build schema config).tally depth visited)) := by
  rw [Program.run_map, run_buffer_tally]
  exact (spends_map some (Tally.spends_on spends)).mono (schema.price_le_one type)

/-- What follows a count takes the price of any type if the count takes a byte at least. -/
theorem spends_count (depth : Nat) (visited : List Ty) (type : Ty) {operation : Buffer.Op Nat}
    {next : Nat → Program α} (spends : Spends Buffer.length 1 operation)
    (free : ∀ count, Spends (Tally.worth schema) 0
      ((next count).run ((build schema config).tally depth visited))) :
    Spends (Tally.worth schema) (schema.price type)
      ((do next (← Program.buffer operation)).run ((build schema config).tally depth visited)) := by
  rw [Program.run_bind, run_buffer_tally]
  exact (spends_bind_free (Tally.spends_on spends) free).mono (schema.price_le_one type)

/-- Parts are for free, for they are written down at their price. -/
theorem PaysAt.part {depth : Nat} {visited : List Ty} {type : Ty}
    (pays : PaysAt config schema depth visited type []) (site : Site)
    (own : site.part? = some type) :
    Spends (Tally.worth schema) 0 ((build schema config).tally depth visited
      (.decode (.ofPlace type [] site none)) : Step Tally Value) := by
  refine pays site 0 (Nat.le_of_eq ?_)
  simp only [Tally.noted, Option.bind_some, own, Option.toList_some, Schema.busy_cons]
  simp [Schema.busy, Schema.priceAt]

/-- The codec of a shape takes the price of its type, if the requests that it makes take
    theirs. -/
theorem spends_codec (depth : Nat) (visited : List Ty) (type : Ty) (marked : Option Ty)
    (shape : Shape) (shaped : schema.shape type marked = .ok shape) (legible : schema.Legible type)
    (each : ∀ part, schema.Part type part → PaysAt config schema depth visited part [])
    (named : ∀ element, marked = some element → PaysAt config schema depth visited element [])
    (nested : PaysAt config schema depth visited type [])
    (fields : ∀ description, schema.kind type = .aggregate description →
      Spends (Tally.worth schema) (schema.price type) ((build schema config).tally depth visited
        (.decodeFields type description) : Step Tally Value)) :
    Spends (Tally.worth schema) (schema.price type)
      ((shape.codec schema type).decode.run ((build schema config).tally depth visited)) := by
  have fits := schema.fits_of_shape type marked shape shaped
  cases shape with
  | leaf plain =>
      exact spends_read depth visited type
        (spends_bind_free plain.spends_read fun _ => spends_pure _)
  | octets =>
      refine spends_read depth visited type ?_
      exact (spends_bind_free Buffer.spends_readBytes fun _ => spends_pure _).mono (by decide)
  | enumeration names =>
      exact spends_read depth visited type (Enumeration.spends_read type names)
  | sequence element =>
      obtain ⟨-, declared, described, chosen⟩ := fits
      have elements : PaysAt config schema depth visited element [] := by
        cases marked with
        | some other =>
            cases chosen
            exact named element rfl
        | none =>
            cases chosen
            obtain ⟨kind, rfl⟩ := schema.kind_sequence type element described
            exact each element (.element kind element)
      refine spends_count depth visited type
        ((Buffer.spends_longLength Config.collectionLengths).mono (by decide)) fun count => ?_
      rw [Program.run_bind]
      refine spends_bind_free (Program.spends_decodeEach (elements.part _ rfl) count [])
        fun items => ?_
      rw [Program.run_map, Program.run_lift]
      exact spends_map some (spends_lift _)
  | map key value =>
      obtain ⟨kind, rfl⟩ := schema.kind_map type key value fits
      have keys := (each key (.key kind key value)).part (.key key) rfl
      have values := (each value (.value kind key value)).part (.value value) rfl
      refine spends_count depth visited _
        ((Buffer.spends_length Config.collectionLengths).mono (by decide)) fun count => ?_
      rw [Program.run_bind]
      refine spends_bind_free (Program.spends_decodeEntries keys values count []) fun entries => ?_
      rw [Program.run_map, Program.run_lift]
      exact spends_map some (spends_lift _)
  | nested =>
      simp only [Shape.codec, Codec.innerOption, Program.run_map]
      refine spends_map some ?_
      rw [Program.decode, Program.run_perform]
      refine nested (.inner type) _ (Nat.le_of_eq ?_)
      simp [Tally.noted, Site.part?, Schema.busy, Schema.priceAt]
  | aggregate description =>
      simp only [Shape.codec, Codec.aggregate, Program.run_map]
      refine spends_map some ?_
      rw [Program.run_perform]
      exact fields description fits
  | custom format => exact absurd fits (legible.own format)

/-- A flag takes the price of any place, and without one the price is that of the codec. -/
theorem spends_flagged (depth : Nat) (visited : List Ty) (declared : Ty) (markers : List Marker)
    (codec : Codec)
    (below : Spends (Tally.worth schema) (schema.price declared.unwrapped)
      (codec.decode.run ((build schema config).tally depth visited))) :
    Spends (Tally.worth schema) (schema.priceAt declared markers)
      ((codec.flagged (declared.stripsOption || markers.contains .nullable)).decode.run
        ((build schema config).tally depth visited)) := by
  cases flag : declared.stripsOption || markers.contains .nullable with
  | false =>
      obtain ⟨strips, unflagged⟩ := Bool.or_eq_false_iff.mp flag
      exact below.mono (Schema.priceAt_le_price strips unflagged)
  | true =>
      simp only [Codec.flagged, if_true, Codec.nullable, Program.run_bind, run_buffer_tally]
      refine (spends_bind_free (Tally.spends_on Buffer.spends_readBool) fun present => ?_).mono
        (Schema.priceAt_le_one declared markers)
      cases present with
      | true => exact below.mono (Nat.zero_le _)
      | false => exact spends_pure none

/-- The arguments that mirror fields take what the fields do. -/
theorem spends_decodeArguments {worth : σ → Nat} {decode : Context → Step σ Value} (owner : Ty)
    (constructor position : Nat) (fields : List Field)
    (each : ∀ field ∈ fields, ∀ site : Site, site.part? = none →
      Spends worth (schema.priceAt field.type field.markers)
        (decode (.ofPlace field.type field.markers site none))) :
    Spends worth (totalSize (fields.map fun field => schema.priceAt field.type field.markers))
      (decodeArguments decode owner constructor position (fields.map Field.parameter)) := by
  induction fields generalizing position with
  | nil => exact spends_pure []
  | cons field rest inductionHypothesis =>
      refine spends_bind (spends_inField _ _
        (each field List.mem_cons_self (.parameter owner constructor position) rfl))
        fun argument => ?_
      exact spends_bind_free (inductionHypothesis (position + 1) fun other later =>
        each other (List.mem_cons_of_mem _ later)) fun others => spends_pure _

/-- Assigned fields take what the fields do. -/
theorem spends_assignFields {worth : σ → Nat} {decode : Context → Step σ Value} (owner : Ty)
    (index : Nat) (fields : List Field) (value : Value)
    (each : ∀ field ∈ fields, ∀ site : Site, site.part? = none →
      Spends worth (schema.priceAt field.type field.markers)
        (decode (.ofPlace field.type field.markers site none))) :
    Spends worth (totalSize (fields.map fun field => schema.priceAt field.type field.markers))
      (assignFields decode owner index fields value) := by
  induction fields generalizing index value with
  | nil => exact spends_pure value
  | cons field rest inductionHypothesis =>
      refine spends_bind (spends_inField _ _ ?_) fun assigned =>
        inductionHypothesis (index + 1) assigned fun other later =>
          each other (List.mem_cons_of_mem _ later)
      exact spends_bind_free (each field List.mem_cons_self (.field owner index) rfl)
        fun decoded => spends_lift _

/-- An aggregate takes what its fields do, whichever way it is rebuilt. -/
theorem spends_rebuild {worth : σ → Nat} {decode : Context → Step σ Value} (type : Ty)
    (description : Aggregate) (described : schema.kind type = .aggregate description)
    (legible : schema.Legible type)
    (each : ∀ field ∈ description.fields, ∀ site : Site, site.part? = none →
      Spends worth (schema.priceAt field.type field.markers)
        (decode (.ofPlace field.type field.markers site none))) :
    Spends worth (totalSize (description.fields.map fun field =>
      schema.priceAt field.type field.markers)) (rebuild decode type description) := by
  unfold rebuild
  cases chosen : description.strategy with
  | construct index constructor =>
      simp only [legible.mirrors description described index constructor chosen]
      exact spends_bind_free (spends_decodeArguments type index 0 description.fields each)
        fun arguments => spends_lift _
  | assign initial => exact spends_assignFields type 0 description.fields initial each
  | unavailable => exact spends_fail _

/-- What is decoded at a context is written down once it has been rewrapped. -/
theorem tally_decode (depth : Nat) (visited : List Ty) (context : Context) :
    (build schema config).tally (depth + 1) visited (.decode context)
      = (do
          let value ← (do
            let shape ← Step.lift (schema.shape context.unwrapped context.streamableElement)
            let inner ← ((shape.codec schema context.unwrapped).flagged
              context.isNullable).decode.run ((build schema config).tally depth visited)
            Step.lift (context.rewrap inner))
          Tally.note context.site
          return value) := by
  simp only [tally, freshCodec_build]
  cases schema.shape context.unwrapped context.streamableElement with
  | error error => rfl
  | ok shape =>
      simp only [LawfulMonad.bind_assoc]
      rfl

/-- Every place of a legible type takes its price, and so do the fields of an aggregate. The
    induction is on how deep requests may nest, for both together. -/
theorem pays_tally (depth : Nat) :
    (∀ visited declared markers, schema.Throughout schema.Legible declared →
      (∀ element, Marker.element? markers = some element →
        schema.Throughout schema.Legible element) →
      PaysAt config schema depth visited declared markers) ∧
    ∀ visited type description, schema.kind type = .aggregate description →
      schema.Throughout schema.Legible type →
      Spends (Tally.worth schema) (schema.price type) ((build schema config).tally depth visited
        (.decodeFields type description) : Step Tally Value) := by
  induction depth with
  | zero => exact ⟨fun _ _ _ _ _ _ _ _ => spends_fail _, fun _ _ _ _ _ => spends_fail _⟩
  | succ depth inductionHypothesis =>
      obtain ⟨places, aggregates⟩ := inductionHypothesis
      constructor
      · intro visited declared markers legible named site least affordable
        have unmarked (part : Ty) (legiblePart : schema.Throughout schema.Legible part) :
            PaysAt config schema depth visited part [] := by
          refine places visited part [] legiblePart ?_
          rintro element ⟨⟩
        have element : (Context.ofPlace declared markers site none).streamableElement
            = Marker.element? markers := Context.streamableElement_make declared markers
        have nullable : (Context.ofPlace declared markers site none).isNullable
            = (declared.stripsOption || markers.contains .nullable) :=
          Context.isNullable_make declared markers
        rw [tally_decode, element, nullable]
        refine Tally.spends_note (some site) (Spends.mono ?_ affordable)
        cases shaped : schema.shape (Context.ofPlace declared markers site none).unwrapped
            (Marker.element? markers) with
        | error error => exact spends_fail error
        | ok shape =>
            have below := spends_codec depth visited declared.unwrapped (Marker.element? markers)
              shape shaped legible.unwrapped.self
              (fun part contained => unmarked part (legible.unwrapped.part contained))
              (fun element given => unmarked element (named element given))
              (unmarked declared.unwrapped legible.unwrapped)
              (fun description described =>
                aggregates visited declared.unwrapped description described legible.unwrapped)
            rw [Step.lift_ok, LawfulMonad.pure_bind]
            exact spends_bind_free (spends_flagged depth visited declared markers _ below)
              fun inner => spends_lift _
      · intro visited type description described legible
        simp only [tally]
        split
        · exact spends_fail _
        · refine (spends_rebuild type description described legible.self
            fun field listed site whole => ?_).mono (Schema.price_le_totalSize described)
          refine places (type :: visited) field.type field.markers
            (legible.part (.field type description described field listed)) ?_ site _ ?_
          · intro element named
            exact legible.part (.marked type description described field listed element
              (Marker.streamable_of_element? field.markers element named))
          · rw [Tally.noted, Option.bind_some, whole]
            exact Nat.le_refl _

/-- Taking a value of a legible type off a buffer takes a byte at least for each part that is decoded
    and takes any. -/
theorem spends_tallying (type : Ty) (legible : schema.Throughout schema.Legible type) :
    Spends (Tally.worth schema) 0 ((build schema config).tallying type) := by
  refine spends_bind_free ?_ fun value => spends_lift _
  exact (pays_tally _).1 [] type [] legible (by rintro element ⟨⟩) (.root type) 0 (Nat.zero_le _)

/-- Whatever the bytes and the limits, and whether decoding succeeds or not, there is a byte of those
    that have been read for each element, each key and each value that has been decoded, if it is of
    a type that takes any. The values of other types are not on the wire at all. -/
theorem parts_paid_for (schema : Schema) (config limits : Config) (type : Ty)
    (legible : schema.Throughout schema.Legible type) (bytes : Bytes) (memory : Memory)
    (reached : (build schema config).Reached memory) :
    let serializer := build schema config
    let reader := Buffer.reader bytes limits
    let outcome := serializer.tallying type { buffer := reader }
    (∃ later, serializer.decodeFrom type reader memory
      = Step.carry (fun tally => ⟨tally.buffer, [], later⟩) outcome) ∧
    schema.busy (Step.left outcome).parts + (Step.left outcome).buffer.length ≤ bytes.length ∧
    ∀ part, schema.Idle part → ∀ value : Value, value.layout schema part none = [] := by
  intro serializer reader outcome
  refine ⟨?_, ?_, fun part idle value => idle.layout_eq_nil value none⟩
  · obtain ⟨later, same⟩ := decodeFrom_of_reached schema config type reader memory reached
    have erased : serializer.takingFrom type reader = Step.carry Tally.buffer outcome :=
      serializer.agrees_tallying type { buffer := reader }
    rw [erased, Step.carry_carry] at same
    exact ⟨later, same⟩
  · have spends : Spends (Tally.worth schema) 0 (serializer.tallying type) :=
      spends_tallying type legible
    have worth : Tally.worth schema (Step.left outcome)
        ≤ Tally.worth schema { buffer := reader } := by
      cases ended : outcome with
      | ok value after => exact spends.ok ended
      | error error after => exact spends.error ended
    rw [Nat.add_comm]
    exact worth

/-- Slips have no fields. -/
def depots : Schema where
  entries := [Catalogue.declared (.named "Slip") []]

/-- The bytes of a map with one entry and nine slips in it pay for the key and for the value. -/
theorem parts_paid_for_depot :
    let serializer := build depots {}
    let type := Ty.map .ordered .i32 (.vector (.named "Slip"))
    let bytes : Bytes := [0, 0, 0, 1, 0, 0, 0, 7, 0, 0, 0, 0, 0, 0, 0, 9]
    let parts := .vector (.named "Slip") :: (List.replicate 9 (.named "Slip") ++ [.i32])
    depots.Throughout depots.Legible type ∧ serializer.Reached serializer.start ∧
      (∃ value state, serializer.decodeFrom type (Buffer.reader bytes) serializer.start
        = .ok value state) ∧
      (Step.left (serializer.tallying type { buffer := Buffer.reader bytes })).parts = parts ∧
      depots.busy parts ≤ 16 := by
  intro serializer type bytes parts
  have legible : depots.Throughout depots.Legible type := by
    refine Schema.throughout_of_closed [type, .i32, .vector (.named "Slip"), .named "Slip"]
      List.mem_cons_self (by decide) ?_
    simp only [List.mem_cons, List.not_mem_nil, or_false]
    rintro part (rfl | rfl | rfl | rfl)
    · exact Schema.Derived.legible (.map .ordered .i32 _)
    · exact Schema.Derived.legible (.leaf _ (by decide))
    · exact Schema.Derived.legible (.sequence .vector _)
    · refine Schema.Derived.legible
        (Schema.derived_of_declared "Slip" [] none true .named rfl ?_ (by simp) (by simp))
      rintro field ⟨⟩
  have tallied : (Step.left (serializer.tallying type { buffer := Buffer.reader bytes })).parts
      = parts := by decide +kernel
  obtain ⟨-, paid, -⟩ := parts_paid_for depots {} {} type legible bytes serializer.start .start
  rw [tallied] at paid
  refine ⟨legible, .start, Step.exists_of_succeeded (by decide +kernel), tallied, ?_⟩
  exact Nat.le_trans (Nat.le_add_right _ _) paid

/-- Nine slips are decoded from eight bytes. -/
theorem parts_unpaid_slips :
    let serializer := build depots {}
    let type := Ty.vector (.named "Slip")
    let bytes : Bytes := [0, 0, 0, 0, 0, 0, 0, 9]
    (∃ value state, serializer.decodeFrom type (Buffer.reader bytes) serializer.start
        = .ok value state) ∧
      bytes.length
        < (Step.left (serializer.tallying type { buffer := Buffer.reader bytes })).parts.length := by
  intro serializer type bytes
  exact ⟨Step.exists_of_succeeded (by decide +kernel), by decide +kernel⟩

end Serializer

end Wireform
