import Mathlib.Logic.Function.Iterate
import Wireform.Proofs.Reads

/-!
# Several presence flags around a codec

A presence flag can be put around a codec that has one already. Absence is told by the outermost flag
alone, so every further flag costs a present value one more octet and changes nothing else: what is
read back, and what is left unread, is the same as with a single flag. This holds of every codec that
looks at no more than it is given to work on, whether it fails or reads a present value back as an
absent one.

The codecs run on a walker as it is, with its memory. Only what shows in the buffer is compared.
-/

namespace Wireform

variable {α : Type}

/-- The end of a step as far as the buffer shows it: its outcome, and what has been written or is
    still unread. -/
def Walk.shown : EStateM.Result Error Walk.State α → Except Error α × Bytes
  | .ok result after => (.ok result, after.buffer.bytes)
  | .error error after => (.error error, after.buffer.bytes)

/-- The walker with other contents in its buffer. -/
def Walk.State.holding (state : Walk.State) (contents : Buffer.Contents) : Walk.State :=
  { state with buffer := { state.buffer with contents := contents } }

/-- A buffer is written to if it holds what has been written. -/
theorem Buffer.mode_eq_write {buffer : Buffer} :
    buffer.mode = .write ↔ ∃ reversed, buffer.contents = .written reversed := by
  unfold mode
  cases buffer.contents with
  | written reversed => simp
  | unread bytes => simp

namespace Codec

variable (serializer : Serializer) (depth : Nat)

/-- Encodes with a codec on a walker. -/
def encodeOn (codec : Codec) (value : Option Value) : Walk Unit :=
  (codec.encode value).run (serializer.serve depth)

/-- Decodes with a codec on a walker. -/
def decodeOn (codec : Codec) : Walk (Option Value) :=
  codec.decode.run (serializer.serve depth)

/-- What the codec writes and how writing ends depends on nothing but the value and the enclosing
    aggregates, and what it reads on nothing but the unread bytes and the enclosing aggregates. The
    limits of the buffer are the same throughout. -/
structure Plain (codec : Codec) : Prop where
  encode : ∀ value (state other : Walk.State),
    state.buffer.mode = .write → other.buffer.mode = .write →
    state.buffer.config = other.buffer.config → state.visited = other.visited →
      ∃ outcome written,
        Walk.shown (codec.encodeOn serializer depth value state)
            = (outcome, state.buffer.bytes ++ written) ∧
          Walk.shown (codec.encodeOn serializer depth value other)
            = (outcome, other.buffer.bytes ++ written)
  decode : ∀ state other : Walk.State, state.buffer.mode = .read →
    state.buffer = other.buffer → state.visited = other.visited →
      Walk.shown (codec.decodeOn serializer depth state)
        = Walk.shown (codec.decodeOn serializer depth other)

variable {serializer depth} (inner : Codec)

/-- A buffer operation of a codec works on the walker's buffer and changes nothing else. -/
theorem run_buffer_serve (operation : Buffer.Op α) (state : Walk.State) :
    (Program.buffer operation).run (serializer.serve depth) state
      = Step.carry (fun after => { state with buffer := after }) (operation state.buffer) :=
  Program.run_buffer_within (serializer.serve depth) Walk.State.buffer
    (fun after state => { state with buffer := after })
    (fun _ => by cases depth <;> rfl) (fun _ _ => by cases depth <;> rfl) operation state

/-- On a writer, an absent value is written as one octet. -/
theorem encodeOn_nullable_none (state : Walk.State) (reversed : Bytes)
    (writes : state.buffer.contents = .written reversed) :
    (nullable inner).encodeOn serializer depth none state
      = .ok () (state.holding (.written (0 :: reversed))) := by
  obtain ⟨⟨contents, config⟩, visited, memory⟩ := state
  cases writes
  have flag : Buffer.writeBool false ⟨.written reversed, config⟩
      = .ok () ⟨.written (0 :: reversed), config⟩ := rfl
  rw [encodeOn, nullable, Program.run_bind, Step.bind_apply, run_buffer_serve, Option.isSome_none, flag]
  rfl

/-- On a writer, a present value is written by the inner codec behind one octet. -/
theorem encodeOn_nullable_some (value : Value) (state : Walk.State) (reversed : Bytes)
    (writes : state.buffer.contents = .written reversed) :
    (nullable inner).encodeOn serializer depth (some value) state
      = inner.encodeOn serializer depth (some value) (state.holding (.written (1 :: reversed))) := by
  obtain ⟨⟨contents, config⟩, visited, memory⟩ := state
  cases writes
  have flag : Buffer.writeBool true ⟨.written reversed, config⟩
      = .ok () ⟨.written (1 :: reversed), config⟩ := rfl
  rw [encodeOn, nullable, Program.run_bind, Step.bind_apply, run_buffer_serve, Option.isSome_some, flag]
  rfl

/-- A buffer that is read from takes no flag. -/
theorem encodeOn_nullable_unread (value : Option Value) (state : Walk.State) (unread : Bytes)
    (reads : state.buffer.contents = .unread unread) :
    (nullable inner).encodeOn serializer depth value state
      = .error (.mode Mode.read.name) state := by
  obtain ⟨⟨contents, config⟩, visited, memory⟩ := state
  cases reads
  rw [encodeOn, nullable, Program.run_bind, Step.bind_apply, run_buffer_serve]
  rfl

/-- The octet 0 is read as an absent value. -/
theorem decodeOn_nullable_zero (state : Walk.State) (rest : Bytes)
    (reads : state.buffer.contents = .unread (0 :: rest)) :
    (nullable inner).decodeOn serializer depth state = .ok none (state.holding (.unread rest)) := by
  obtain ⟨⟨contents, config⟩, visited, memory⟩ := state
  cases reads
  have flag : Buffer.readBool ⟨.unread (0 :: rest), config⟩ = .ok false ⟨.unread rest, config⟩ :=
    Buffer.reads_readBool config false rest
  rw [decodeOn, nullable, Program.run_bind, Step.bind_apply, run_buffer_serve, flag]
  rfl

/-- What follows the octet 1 is read by the inner codec. -/
theorem decodeOn_nullable_one (state : Walk.State) (rest : Bytes)
    (reads : state.buffer.contents = .unread (1 :: rest)) :
    (nullable inner).decodeOn serializer depth state
      = inner.decodeOn serializer depth (state.holding (.unread rest)) := by
  obtain ⟨⟨contents, config⟩, visited, memory⟩ := state
  cases reads
  have flag : Buffer.readBool ⟨.unread (1 :: rest), config⟩ = .ok true ⟨.unread rest, config⟩ :=
    Buffer.reads_readBool config true rest
  rw [decodeOn, nullable, Program.run_bind, Step.bind_apply, run_buffer_serve, flag]
  rfl

/-- Several flags around a codec write an octet each in front of what the codec writes for a present
    value. -/
theorem encodeOn_iterate (count : Nat) (value : Value) (state : Walk.State) (reversed : Bytes)
    (writes : state.buffer.contents = .written reversed) :
    (nullable^[count] inner).encodeOn serializer depth (some value) state
      = inner.encodeOn serializer depth (some value)
          (state.holding (.written (List.replicate count 1 ++ reversed))) := by
  induction count generalizing state reversed with
  | zero =>
      obtain ⟨⟨contents, config⟩, visited, memory⟩ := state
      cases writes
      rfl
  | succ count inductionHypothesis =>
      rw [Function.iterate_succ_apply', encodeOn_nullable_some _ value state reversed writes,
        inductionHypothesis (state.holding (.written (1 :: reversed))) (1 :: reversed) rfl]
      have octets : List.replicate count 1 ++ 1 :: reversed
          = List.replicate (count + 1) (1 : UInt8) ++ reversed := by
        rw [List.replicate_succ', List.append_assoc, List.singleton_append]
      rw [octets]
      rfl

/-- Several flags around a codec take an octet each off the front before the codec reads. -/
theorem decodeOn_iterate (count : Nat) (state : Walk.State) (rest : Bytes)
    (reads : state.buffer.contents = .unread (List.replicate count 1 ++ rest)) :
    (nullable^[count] inner).decodeOn serializer depth state
      = inner.decodeOn serializer depth (state.holding (.unread rest)) := by
  induction count generalizing state with
  | zero =>
      obtain ⟨⟨contents, config⟩, visited, memory⟩ := state
      cases reads
      rfl
  | succ count inductionHypothesis =>
      rw [List.replicate_succ, List.cons_append] at reads
      rw [Function.iterate_succ_apply', decodeOn_nullable_one _ state _ reads,
        inductionHypothesis (state.holding (.unread (List.replicate count 1 ++ rest))) rfl]
      rfl

/-- A present value is written by the inner codec as without flags, behind as many octets as there
    are flags. -/
theorem shown_encodeOn_iterate (plain : inner.Plain serializer depth) (count : Nat) (value : Value)
    (state : Walk.State) (writes : state.buffer.mode = .write) :
    ∃ outcome written,
      Walk.shown (inner.encodeOn serializer depth (some value) state)
          = (outcome, state.buffer.bytes ++ written) ∧
        Walk.shown ((nullable^[count] inner).encodeOn serializer depth (some value) state)
          = (outcome, state.buffer.bytes ++ (List.replicate count 1 ++ written)) := by
  obtain ⟨reversed, contents⟩ := Buffer.mode_eq_write.mp writes
  obtain ⟨outcome, written, bare, flagged⟩ := plain.encode (some value) state
    (state.holding (.written (List.replicate count 1 ++ reversed))) writes rfl rfl rfl
  refine ⟨outcome, written, bare, ?_⟩
  rw [encodeOn_iterate inner count value state reversed contents, flagged]
  have bytes : state.buffer.bytes = reversed.reverse := by
    rw [Buffer.bytes, contents]
  have longer : (state.holding (.written (List.replicate count 1 ++ reversed))).buffer.bytes
      = reversed.reverse ++ List.replicate count 1 := by
    simp [Buffer.bytes, Walk.State.holding]
  rw [bytes, longer, List.append_assoc]

/-- An absent value is written as the octet 0, however many flags there are. -/
theorem shown_encodeOn_iterate_none (count : Nat) (positive : 0 < count) (state : Walk.State)
    (writes : state.buffer.mode = .write) :
    Walk.shown ((nullable^[count] inner).encodeOn serializer depth none state)
      = (.ok (), state.buffer.bytes ++ [0]) := by
  obtain ⟨fewer, rfl⟩ := Nat.exists_eq_add_one.mpr positive
  obtain ⟨reversed, contents⟩ := Buffer.mode_eq_write.mp writes
  rw [Function.iterate_succ_apply', encodeOn_nullable_none _ state reversed contents]
  simp [Walk.shown, Walk.State.holding, Buffer.bytes, contents]

/-- What a codec with flags has written for a value: a lone octet 0 if the value is absent, and
    otherwise what the inner codec writes. -/
theorem written_of_encodeOn_iterate (plain : inner.Plain serializer depth) (count : Nat)
    (positive : 0 < count) (value : Option Value) (state : Walk.State)
    (writes : state.buffer.mode = .write) (bytes : Bytes)
    (wrote : Walk.shown ((nullable^[count] inner).encodeOn serializer depth value state)
      = (.ok (), state.buffer.bytes ++ bytes)) :
    (value = none ∧ bytes = [0]) ∨
      ∃ present written, value = some present ∧ bytes = List.replicate count 1 ++ written ∧
        Walk.shown (inner.encodeOn serializer depth value state)
          = (.ok (), state.buffer.bytes ++ written) := by
  cases value with
  | none =>
      rw [shown_encodeOn_iterate_none inner count positive state writes] at wrote
      exact .inl ⟨rfl, List.append_cancel_left (congrArg Prod.snd wrote).symm⟩
  | some present =>
      obtain ⟨outcome, written, bare, flagged⟩ :=
        shown_encodeOn_iterate inner plain count present state writes
      rw [flagged] at wrote
      have same : outcome = .ok () := congrArg Prod.fst wrote
      subst same
      exact .inr ⟨present, written, rfl, List.append_cancel_left (congrArg Prod.snd wrote).symm, bare⟩

/-- The octet 0 is read as an absent value, however many flags there are. -/
theorem shown_decodeOn_iterate_none (count : Nat) (positive : 0 < count) (state : Walk.State)
    (rest : Bytes) (reads : state.buffer.contents = .unread (0 :: rest)) :
    Walk.shown ((nullable^[count] inner).decodeOn serializer depth state) = (.ok none, rest) := by
  obtain ⟨fewer, rfl⟩ := Nat.exists_eq_add_one.mpr positive
  rw [Function.iterate_succ_apply', decodeOn_nullable_zero _ state rest reads]
  rfl

/-- Any positive number of flags around a codec does what a single one does. An absent value is
    written as the octet 0. A present one is written as without flags behind an octet 1 for each flag,
    and writing it ends as it does without flags. If both numbers of flags succeed in writing a value,
    either reads its own bytes with the same outcome, whatever stands behind them, and leaves the same.
    A buffer that is read from takes no flags. -/
theorem nullable_iterate (plain : inner.Plain serializer depth) (count : Nat)
    (positive : 0 < count) (state : Walk.State) :
    (state.buffer.mode = .write →
      Walk.shown ((nullable^[count] inner).encodeOn serializer depth none state)
          = (.ok (), state.buffer.bytes ++ [0]) ∧
        (∀ value, ∃ outcome written,
          Walk.shown (inner.encodeOn serializer depth (some value) state)
              = (outcome, state.buffer.bytes ++ written) ∧
            Walk.shown ((nullable^[count] inner).encodeOn serializer depth (some value) state)
              = (outcome, state.buffer.bytes ++ (List.replicate count 1 ++ written))) ∧
        ∀ value many once,
          Walk.shown ((nullable^[count] inner).encodeOn serializer depth value state)
              = (.ok (), state.buffer.bytes ++ many) →
          Walk.shown ((nullable inner).encodeOn serializer depth value state)
              = (.ok (), state.buffer.bytes ++ once) →
          ∀ (suffix : Bytes) (config : Config) (unread other : Walk.State),
            unread.visited = other.visited →
            unread.buffer = Buffer.reader (many ++ suffix) config →
            other.buffer = Buffer.reader (once ++ suffix) config →
              Walk.shown ((nullable^[count] inner).decodeOn serializer depth unread)
                = Walk.shown ((nullable inner).decodeOn serializer depth other)) ∧
      (state.buffer.mode = .read → ∀ value,
        (nullable^[count] inner).encodeOn serializer depth value state
          = .error (.mode Mode.read.name) state) := by
  refine ⟨fun writes => ⟨?_, ?_, ?_⟩, ?_⟩
  · exact shown_encodeOn_iterate_none inner count positive state writes
  · intro value
    exact shown_encodeOn_iterate inner plain count value state writes
  · intro value many once wroteMany wroteOnce suffix config unread other visited left leftOther
    have first := written_of_encodeOn_iterate inner plain count positive value state writes many
      wroteMany
    have second := written_of_encodeOn_iterate inner plain 1 Nat.one_pos value state writes once
      wroteOnce
    obtain ⟨rfl, rfl⟩ | ⟨present, written, rfl, rfl, bare⟩ := first
    · obtain ⟨-, rfl⟩ | ⟨_, _, ⟨⟩, -⟩ := second
      have here : unread.buffer.contents = .unread (0 :: suffix) := by rw [left]; rfl
      have there : other.buffer.contents = .unread (0 :: suffix) := by rw [leftOther]; rfl
      rw [shown_decodeOn_iterate_none inner count positive unread suffix here]
      exact (shown_decodeOn_iterate_none inner 1 Nat.one_pos other suffix there).symm
    · obtain ⟨⟨⟩, -⟩ | ⟨_, others, -, rfl, bareOther⟩ := second
      have alike : written = others :=
        List.append_cancel_left (congrArg Prod.snd (bare.symm.trans bareOther))
      subst alike
      have here : unread.buffer.contents = .unread (List.replicate count 1 ++ (written ++ suffix)) := by
        rw [left, List.append_assoc]
        rfl
      have there : other.buffer.contents = .unread (List.replicate 1 1 ++ (written ++ suffix)) := by
        rw [leftOther, List.append_assoc]
        rfl
      have behind : (unread.holding (.unread (written ++ suffix))).buffer
          = (other.holding (.unread (written ++ suffix))).buffer := by
        simp only [Walk.State.holding, left, leftOther]
        rfl
      rw [decodeOn_iterate inner count unread _ here, plain.decode _ _ rfl behind visited]
      exact congrArg Walk.shown (decodeOn_iterate inner 1 other _ there).symm
  · intro reads value
    obtain ⟨fewer, rfl⟩ := Nat.exists_eq_add_one.mpr positive
    rw [Function.iterate_succ_apply']
    cases contents : state.buffer.contents with
    | written reversed => rw [Buffer.mode, contents] at reads; cases reads
    | unread bytes => exact encodeOn_nullable_unread _ value state bytes contents

/-- A codec that works on the buffer alone is plain if what it writes is the same on all buffers. -/
theorem plain_of_emits (write : Option Value → Buffer.Op Unit) (read : Buffer.Op (Option Value))
    (emits : ∀ value, ∃ bytes, Buffer.Emits (write value) bytes) :
    (Codec.mk (fun value => Program.buffer (write value)) (Program.buffer read)).Plain
      serializer depth where
  encode value state other writes writesOther _ _ := by
    obtain ⟨_, written, outcome, -, wrote⟩ := emits value
    have shows (state : Walk.State) (writes : state.buffer.mode = .write) :
        Walk.shown ((Program.buffer (write value)).run (serializer.serve depth) state)
          = (outcome, state.buffer.bytes ++ written) := by
      obtain ⟨⟨contents, config⟩, visited, memory⟩ := state
      obtain ⟨reversed, rfl⟩ := Buffer.mode_eq_write.mp writes
      rw [run_buffer_serve]
      simp only [wrote]
      cases outcome with
      | ok done => simp [Step.carry, Walk.shown, Buffer.bytes, pure, EStateM.pure]
      | error error => simp [Step.lift, Step.fail, Step.carry, Walk.shown, Buffer.bytes]
    exact ⟨outcome, written, shows state writes, shows other writesOther⟩
  decode state other reads same _ := by
    simp only [decodeOn, run_buffer_serve, same]
    cases read other.buffer <;> rfl

/-- A codec for truth values that reads untruth as an absent value. -/
def hollow : Codec where
  encode value := Program.buffer
    (match value with
    | some (.scalar (.bool truth)) => Buffer.writeBool truth
    | _ => Buffer.fail (.typeMismatch "bool"))
  decode := Program.buffer do
    if ← Buffer.readBool then return some (.bool true) else return none

/-- With three flags around it the codec writes four octets for untruth, and reads them as an absent
    value, as it does with one flag. -/
theorem nullable_iterate_hollow :
    let serializer := Serializer.build ⟨[]⟩
    let writer : Walk.State := { buffer := Buffer.writer }
    let reader (bytes : Bytes) : Walk.State := { buffer := Buffer.reader bytes }
    hollow.Plain serializer 0 ∧ 0 < 3 ∧
      Walk.shown ((nullable^[3] hollow).encodeOn serializer 0 none writer) = (.ok (), [0]) ∧
      Walk.shown ((nullable^[3] hollow).encodeOn serializer 0 (some (.bool false)) writer)
        = (.ok (), [1, 1, 1, 0]) ∧
      Walk.shown ((nullable^[3] hollow).decodeOn serializer 0 (reader [1, 1, 1, 0, 9]))
        = (.ok none, [9]) := by
  intro serializer writer reader
  have plain : hollow.Plain serializer 0 := by
    refine plain_of_emits _ _ fun value => ?_
    split
    · exact ⟨_, Buffer.emits_writeBool _⟩
    · exact ⟨[], Buffer.emits_fail _ _⟩
  obtain ⟨encodes, -⟩ := nullable_iterate hollow plain 3 (by decide) writer
  obtain ⟨absent, present, alike⟩ := encodes rfl
  have bare : Walk.shown (hollow.encodeOn serializer 0 (some (.bool false)) writer)
      = (.ok (), [0]) := rfl
  have once : Walk.shown ((nullable hollow).encodeOn serializer 0 (some (.bool false)) writer)
      = (.ok (), [1, 0]) := rfl
  have single : Walk.shown ((nullable hollow).decodeOn serializer 0 (reader [1, 0, 9]))
      = (.ok none, [9]) := by
    rfl
  have many : Walk.shown ((nullable^[3] hollow).encodeOn serializer 0 (some (.bool false)) writer)
      = (.ok (), [1, 1, 1, 0]) := by
    obtain ⟨outcome, written, inside, flagged⟩ := present (.bool false)
    obtain ⟨rfl, rfl⟩ := Prod.mk.inj (bare.symm.trans inside)
    exact flagged
  refine ⟨plain, by decide, absent, many, ?_⟩
  rw [alike (some (.bool false)) [1, 1, 1, 0] [1, 0] many once [9] {} (reader [1, 1, 1, 0, 9])
    (reader [1, 0, 9]) rfl rfl rfl, single]

end Codec

end Wireform
