import Wireform.Proofs.Conveys

/-!
# What is read back if anything is

Whether something written can be read again depends on the limits of the reader, and on types
that check what they read. Where it is known that reading succeeds, none of this has to be
asked for. A reading operation recovers what a writing operation has written if, whenever it
succeeds on these bytes and whatever stands behind them, its result is a good one and what
stands behind is left.

Nothing is said of bytes that cannot be read. So a recovered result need not exist, and what
follows it on the side of the reader may be of no use to tell how far the writer goes. That is
asked for separately: a writer grows at its end.
-/

namespace Wireform

variable {α β γ : Type}

namespace Buffer

/-! ## Writers that grow -/

/-- If the operation succeeds on a writer, it has appended some bytes. -/
def Grows (write : Op Unit) : Prop :=
  ∀ reversed config after, write ⟨.written reversed, config⟩ = .ok () after →
    ∃ bytes : Bytes, after = ⟨.written (bytes.reverse ++ reversed), config⟩

/-- Appending known bytes is growing. -/
theorem Appends.grows {write : Op Unit} {bytes : Bytes} (appends : Appends write bytes) :
    Grows write :=
  fun reversed config after succeeded => ⟨bytes, appends reversed config after succeeded⟩

/-- What only fails never gets to grow. -/
theorem grows_fail (error : Error) : Grows (Step.fail error) :=
  (emits_fail error []).appends.grows

/-- Growing twice is growing. -/
theorem grows_bind {write : Op Unit} {next : Unit → Op Unit} (first : Grows write)
    (second : Grows (next ())) : Grows (write >>= next) := by
  intro reversed config last succeeded
  rw [Step.bind_apply] at succeeded
  cases ended : write ⟨.written reversed, config⟩ with
  | error error between => rw [ended] at succeeded; cases succeeded
  | ok done between =>
      rw [ended] at succeeded
      obtain ⟨front, rfl⟩ := first reversed config between ended
      obtain ⟨behind, rfl⟩ := second _ config last succeeded
      exact ⟨front ++ behind, by rw [List.reverse_append, List.append_assoc]⟩

/-- Writing what an outcome is needed for grows if it does for every result. -/
theorem grows_lift_bind {outcome : Except Error α} {next : α → Op Unit}
    (each : ∀ result, outcome = .ok result → Grows (next result)) :
    Grows (Step.lift outcome >>= next) := by
  cases outcome with
  | ok result => exact each result rfl
  | error error => exact grows_fail error

/-- Naming the field of a failure is of no account. -/
theorem grows_inField {write : Op Unit} (owner name : String) (grows : Grows write) :
    Grows (Step.inField owner name write) := by
  intro reversed config after succeeded
  cases ended : write ⟨.written reversed, config⟩ with
  | error error between =>
      simp only [Step.inField, ended] at succeeded
      cases succeeded
  | ok done between =>
      simp only [Step.inField, ended] at succeeded
      cases succeeded
      exact grows reversed config _ ended

/-- Growing item by item is growing. -/
theorem grows_forM {write : α → Op Unit} (items : List α)
    (each : ∀ item ∈ items, Grows (write item)) : Grows (items.forM write) := by
  induction items with
  | nil => exact emits_pure.appends.grows
  | cons item rest inductionHypothesis =>
      exact grows_bind (each item List.mem_cons_self)
        (inductionHypothesis fun other later => each other (List.mem_cons_of_mem _ later))

/-! ## Results that are recovered -/

/-- Whenever reading succeeds on the bytes that writing has appended, and whatever stands behind
    them, the result is good and what stands behind is left. -/
def Recovers (config : Config) (write : Op Unit) (read : Op β) (good : β → Prop) : Prop :=
  ∀ reversed (bytes : Bytes),
    write ⟨.written reversed, config⟩ = .ok () ⟨.written (bytes.reverse ++ reversed), config⟩ →
      ∀ rest result after, read (reader (bytes ++ rest) config) = .ok result after →
        good result ∧ after = reader rest config

variable {config : Config} {write : Op Unit} {read : Op β} {good : β → Prop}

/-- Of what cannot be written anything is recovered. -/
theorem recovers_fail (error : Error) : Recovers config (Step.fail error) read good :=
  fun _ _ succeeded => by cases succeeded

/-- What never reads anything recovers only good results. -/
theorem recovers_from_fail (error : Error) : Recovers config write (Step.fail error) good :=
  fun _ _ _ _ _ _ taken => by cases taken

/-- A good result is recovered from nothing. -/
theorem recovers_pure (result : β) (fine : good result) :
    Recovers config (pure ()) (pure result) good := by
  intro reversed bytes succeeded rest found after taken
  obtain rfl : [] = bytes := by
    have contents : EStateM.Result.ok () ⟨.written reversed, config⟩
        = (.ok () ⟨.written (bytes.reverse ++ reversed), config⟩
          : EStateM.Result Error Buffer Unit) := succeeded
    exact written_inj (EStateM.Result.ok.inj contents).2
  cases taken
  exact ⟨fine, rfl⟩

/-- Bytes that are known to be appended and known to be read are recovered. -/
theorem recovers_of_reads (bytes : Bytes) (result : β) (appends : Appends write bytes)
    (reads : Succeeds write → Reads config read bytes result) (fine : good result) :
    Recovers config write read good := by
  intro reversed others succeeded rest found after taken
  obtain rfl : others = bytes := written_inj (appends reversed config _ succeeded)
  rw [reads ⟨_, _, _, succeeded⟩ rest] at taken
  cases taken
  exact ⟨fine, rfl⟩

/-- What is recovered in succession is recovered, if what comes next fits whatever good result
    there is at first. -/
theorem recovers_bind {next : Unit → Op Unit} {after : β → Op γ} {better : γ → Prop}
    (grows : Grows write) (growsNext : Grows (next ())) (first : Recovers config write read good)
    (second : ∀ result, good result → Recovers config (next ()) (after result) better) :
    Recovers config (write >>= next) (read >>= after) better := by
  intro reversed bytes succeeded rest whole last taken
  rw [Step.bind_apply] at succeeded taken
  cases ended : write ⟨.written reversed, config⟩ with
  | error error between => rw [ended] at succeeded; cases succeeded
  | ok done between =>
      rw [ended] at succeeded
      obtain ⟨front, rfl⟩ := grows reversed config between ended
      obtain ⟨behind, same⟩ := growsNext _ config _ succeeded
      obtain rfl : bytes = front ++ behind := by
        rw [← List.append_assoc, ← List.reverse_append] at same
        exact written_inj same
      rw [List.append_assoc] at taken
      cases found : read (reader (front ++ (behind ++ rest)) config) with
      | error error left => rw [found] at taken; cases taken
      | ok result left =>
          rw [found] at taken
          obtain ⟨fine, rfl⟩ := first reversed front ended (behind ++ rest) result left found
          rw [List.reverse_append, List.append_assoc] at succeeded
          exact second result fine _ behind succeeded rest whole last taken

/-- What is made of a good result without reading is recovered as well. -/
theorem recovers_bind_pure {after : β → Op γ} {better : γ → Prop}
    (recovers : Recovers config write read good)
    (makes : ∀ result, good result → ∀ buffer whole last,
      after result buffer = .ok whole last → better whole ∧ last = buffer) :
    Recovers config write (read >>= after) better := by
  intro reversed bytes succeeded rest whole last taken
  rw [Step.bind_apply] at taken
  cases found : read (reader (bytes ++ rest) config) with
  | error error left => rw [found] at taken; cases taken
  | ok result left =>
      rw [found] at taken
      obtain ⟨fine, rfl⟩ := recovers reversed bytes succeeded rest result left found
      exact makes result fine _ whole last taken

/-- A changed result is recovered from the same bytes. -/
theorem recovers_map {better : γ → Prop} (change : β → γ)
    (recovers : Recovers config write read good)
    (improves : ∀ result, good result → better (change result)) :
    Recovers config write (change <$> read) better := by
  rw [map_eq_pure_bind]
  refine recovers_bind_pure recovers fun result fine buffer whole last made => ?_
  cases made
  exact ⟨improves result fine, rfl⟩

/-- A result that comes of a good one, if one does, is recovered from the same bytes. -/
theorem recovers_bind_lift {outcome : β → Except Error γ} {better : γ → Prop}
    (recovers : Recovers config write read good)
    (known : ∀ result whole, good result → outcome result = .ok whole → better whole) :
    Recovers config write (do Step.lift (outcome (← read))) better := by
  refine recovers_bind_pure recovers fun result fine buffer whole last made => ?_
  cases come : outcome result with
  | error error => rw [come] at made; cases made
  | ok found =>
      rw [come] at made
      cases made
      exact ⟨known result whole fine come, rfl⟩

/-- Of what an outcome is needed for to be written, something is recovered for every result. -/
theorem recovers_lift_bind {outcome : Except Error α} {next : α → Op Unit}
    (recovers : ∀ result, outcome = .ok result → Recovers config (next result) read good) :
    Recovers config (Step.lift outcome >>= next) read good := by
  cases outcome with
  | ok result => exact recovers result rfl
  | error error => exact recovers_fail error

/-- A good result is good enough if all good results are. -/
theorem recovers_mono {better : β → Prop} (recovers : Recovers config write read good)
    (improves : ∀ result, good result → better result) : Recovers config write read better := by
  intro reversed bytes succeeded rest result after taken
  obtain ⟨fine, left⟩ := recovers reversed bytes succeeded rest result after taken
  exact ⟨improves result fine, left⟩

/-- Naming the field of a failure changes nothing on either side. -/
theorem recovers_inField (owner name other otherName : String)
    (recovers : Recovers config write read good) :
    Recovers config (Step.inField owner name write) (Step.inField other otherName read) good := by
  intro reversed bytes succeeded rest result after taken
  cases ended : write ⟨.written reversed, config⟩ with
  | error error between =>
      simp only [Step.inField, ended] at succeeded
      cases succeeded
  | ok done between =>
      simp only [Step.inField, ended] at succeeded
      cases found : read (reader (bytes ++ rest) config) with
      | error error left =>
          simp only [Step.inField, found] at taken
          cases taken
      | ok whole left =>
          simp only [Step.inField, found] at taken
          cases taken
          exact recovers reversed bytes (ended.trans succeeded) rest result after found

/-- The reader can look up its limits first. -/
theorem recovers_limits {next : Config → Op β}
    (recovers : Recovers config write (next config) good) :
    Recovers config write (limits >>= next) good :=
  recovers

/-- Items that are recovered one by one are recovered in succession, in order. -/
theorem recovers_repeated {put : α → Op Unit} {related : α → β → Prop} (items : List α)
    (grows : ∀ item ∈ items, Grows (put item))
    (each : ∀ item ∈ items, Recovers config (put item) read (related item))
    (collected : List β) :
    Recovers config (items.forM put) (repeated read items.length collected)
      fun results => ∃ others, results = collected.reverse ++ others ∧
        List.Forall₂ related items others := by
  induction items generalizing collected with
  | nil => exact recovers_pure _ ⟨[], (List.append_nil _).symm, .nil⟩
  | cons item rest inductionHypothesis =>
      obtain ⟨growsFirst, growsRest⟩ := List.forall_mem_cons.mp grows
      obtain ⟨first, others⟩ := List.forall_mem_cons.mp each
      refine recovers_bind growsFirst (grows_forM rest growsRest) first fun result fine => ?_
      refine recovers_mono (inductionHypothesis growsRest others (result :: collected)) ?_
      rintro results ⟨results, rfl, pairs⟩
      refine ⟨result :: results, ?_, .cons fine pairs⟩
      rw [List.reverse_cons, List.append_assoc, List.singleton_append]

/-- Items that are recovered one by one are recovered together. -/
theorem recovers_each {put : α → Op Unit} {related : α → β → Prop} (items : List α)
    (grows : ∀ item ∈ items, Grows (put item))
    (each : ∀ item ∈ items, Recovers config (put item) read (related item)) :
    Recovers config (items.forM put) (repeated read items.length [])
      (List.Forall₂ related items) := by
  refine recovers_mono (recovers_repeated items grows each []) ?_
  rintro _ ⟨others, rfl, pairs⟩
  exact pairs

/-! ## Flags, lengths, text and octets -/

/-- A flag is recovered. -/
theorem recovers_bool (flag : Bool) : Recovers config (writeBool flag) readBool (· = flag) :=
  recovers_of_reads _ flag (emits_writeBool flag).appends (fun _ => reads_readBool config flag) rfl

/-- A number that was read as a length is accepted as it is, if it is. -/
theorem eq_of_checkLength (width : Nat) (range : Range) (number : Nat) (buffer : Buffer)
    (length : Nat) (after : Buffer)
    (accepted : checkLength width range number buffer = .ok length after) :
    length = number ∧ after = buffer := by
  unfold checkLength at accepted
  split at accepted
  · split at accepted
    · cases accepted
      exact ⟨rfl, rfl⟩
    · cases accepted
  · cases accepted

/-- A number that fits its octets is recovered. -/
theorem recovers_number (width number : Nat) (fits : number < Bytes.capacity width) :
    Recovers config (writeNumber width number) (readNumber width) (· = number) :=
  recovers_of_reads _ number (emits_append _).appends
    (fun _ => reads_readNumber_of_lt config width number fits) rfl

/-- A length is recovered, whatever the limits are. -/
theorem recovers_length (range : Range) (length : Nat) :
    Recovers config (writeLength length) (readLength range) (· = length) := by
  unfold writeLength
  split
  · next fits =>
      have room : Bytes.capacity 4 = 0x100000000 := rfl
      refine recovers_bind_pure (recovers_number 4 length (by omega)) ?_
      rintro _ rfl buffer found last accepted
      exact eq_of_checkLength 4 range _ buffer found last accepted
  · exact recovers_fail _

/-- A long length is recovered, whatever the limits are. -/
theorem recovers_longLength (range : Range) (length : Nat) :
    Recovers config (writeLongLength length) (readLongLength range) (· = length) := by
  unfold writeLongLength
  split
  · next fits =>
      have room : Bytes.capacity 8 = 0x10000000000000000 := rfl
      refine recovers_bind_pure (recovers_number 8 length (by omega)) ?_
      rintro _ rfl buffer found last accepted
      exact eq_of_checkLength 8 range _ buffer found last accepted
  · exact recovers_fail _

/-- Octets that are appended are taken again. -/
theorem recovers_take (octets : Bytes) :
    Recovers config (append octets) (take octets.length) (· = octets) :=
  recovers_of_reads _ octets (emits_append octets).appends
    (fun _ => reads_take config octets) rfl

/-- Octets are recovered, whatever the limits are. -/
theorem recovers_bytes (octets : Bytes) :
    Recovers config (writeBytes octets) readBytes (· = octets) := by
  refine recovers_limits (recovers_bind (emits_writeLength _).appends.grows
    (emits_append octets).appends.grows (recovers_length _ octets.length) ?_)
  rintro _ rfl
  exact recovers_take octets

/-- Text is recovered, whatever the limits are. -/
theorem recovers_string (text : String) :
    Recovers config (writeString text) readString (· = text) := by
  refine recovers_limits (recovers_bind (emits_writeLength _).appends.grows
    (emits_append _).appends.grows (recovers_length _ _) ?_)
  rintro _ rfl
  refine recovers_bind_pure (recovers_take _) ?_
  rintro _ rfl buffer found last made
  rw [asText, Text.Utf8.decode_encode] at made
  cases made
  exact ⟨rfl, rfl⟩

end Buffer

open Buffer (Recovers)

variable {config : Config}

/-- A scalar is recovered. -/
theorem Leaf.recovers_read (plain : Scalar) :
    Recovers config plain.write plain.leaf.read (· = plain) := by
  have known (admitted : ∀ piece ∈ plain.layout, piece.Admitted config) :
      Recovers config plain.write plain.leaf.read (· = plain) :=
    Buffer.recovers_of_reads _ plain plain.emits_write.appends
      (fun succeeds => Leaf.reads_read config plain succeeds admitted) rfl
  -- Only text and octets have lengths that limits could refuse.
  cases plain with
  | string text =>
      exact Buffer.recovers_map Scalar.string (Buffer.recovers_string text)
        fun _ same => congrArg Scalar.string same
  | bytes octets =>
      exact Buffer.recovers_map Scalar.bytes (Buffer.recovers_bytes octets)
        fun _ same => congrArg Scalar.bytes same
  | _ =>
      refine known fun piece listed => ?_
      cases List.mem_singleton.mp listed
      trivial

/-- A value of a leaf type is recovered. -/
theorem Leaf.recovers_value (kind : Leaf) (value : Value) :
    Recovers config (kind.writeValue value) kind.readValue (· = value) := by
  unfold writeValue
  split
  · next plain =>
      split
      · next own =>
          subst own
          refine Buffer.recovers_bind_pure (Leaf.recovers_read plain) ?_
          rintro _ rfl buffer found last made
          cases made
          exact ⟨rfl, rfl⟩
      · exact Buffer.recovers_fail _
  · exact Buffer.recovers_fail _

namespace Enumeration

/-- Only a member of the enumeration has a name, and it is the one in its position. -/
theorem nameOf_eq_ok (type : Ty) (names : List String) (value : Value) (name : String)
    (named : nameOf type names value = .ok name) :
    ∃ index, value = .member type index ∧ names[index]? = some name := by
  unfold nameOf at named
  split at named
  · next actual index =>
      split at named
      · next own known =>
          split at named
          · next same =>
              cases named
              exact ⟨index, congrArg (Value.member · index) same, known⟩
          · cases named
      · cases named
  · cases named

/-- A member is recovered by its name, if no other member has that name. -/
theorem recovers_member (type : Ty) (names : List String) (distinct : names.Nodup)
    (value : Value) :
    Recovers config (write type names value) (read type names)
      fun result => result.type = type ∧ result = value := by
  unfold write
  split
  · next name named =>
      obtain ⟨index, rfl, known⟩ := nameOf_eq_ok type names value name named
      obtain ⟨inside, rfl⟩ := List.getElem?_eq_some_iff.mp known
      refine Buffer.recovers_bind_pure (Buffer.recovers_string _) ?_
      rintro _ rfl buffer result last made
      rw [fromName_getElem type names distinct index inside] at made
      cases made
      exact ⟨⟨rfl, rfl⟩, rfl⟩
  · exact Buffer.recovers_fail _

end Enumeration

end Wireform
