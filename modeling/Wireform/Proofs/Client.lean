import Wireform.Proofs.Indifference
import Wireform.Proofs.Memory

/-!
# Clients of a serializer

A client makes one call after another and may choose each by the outcomes of those
before it. An outcome is all that a caller sees: the result or the failure with its
path, and what the caller's own buffer holds afterwards. What the serializer
remembers goes from call to call and is no part of it.

The cache is transparent: no client can tell a serializer that remembers codecs
from one that does not. Both go through the same answers, because coherent memories
stay coherent through every call, failed ones included, and because the only other
thing that differs, the setting itself on the buffers that the serializer makes, is
nothing that indifferent codecs look at.
-/

namespace Wireform

variable {α β : Type}

/-- What can be asked of a serializer. A buffer of the caller's has limits of its own
    or those of the serializer. -/
inductive Call
  | encode (value : Value)
  | encodeContext (context : Context)
  | encodeInto (value : Value) (contents : Buffer.Contents) (limits : Option Config)
  | decode (type : Ty) (bytes : Bytes)
  | decodeFrom (type : Ty) (contents : Buffer.Contents) (limits : Option Config)
  | decodeType (type : Ty) (contents : Buffer.Contents) (limits : Option Config)
  | reset

/-- What a caller sees of a call, with what its buffer holds afterwards if it brought
    one along. -/
inductive Outcome
  | bytes (result : Except Error Bytes)
  | value (result : Except Error Value)
  | written (result : Except Error Unit) (left : Buffer.Contents)
  | read (result : Except Error Value) (left : Buffer.Contents)
  | forgotten

namespace Serializer

/-- A buffer of the caller's, with the serializer's limits if it has none of its own. -/
def buffer (serializer : Serializer) (contents : Buffer.Contents) (limits : Option Config) :
    Buffer :=
  ⟨contents, limits.getD serializer.config⟩

end Serializer

namespace Call

/-- How a walk over a buffer of the caller's ended. -/
def ended (outcome : Except Error α → Buffer.Contents → Outcome) :
    EStateM.Result Error Walk.State α → Outcome × Memory
  | .ok result state => (outcome (.ok result) state.buffer.contents, state.memory)
  | .error error state => (outcome (.error error) state.buffer.contents, state.memory)

/-- How a call without a buffer of the caller's ended. -/
def settled (outcome : Except Error α → Outcome) :
    EStateM.Result Error Memory α → Outcome × Memory
  | .ok result memory => (outcome (.ok result), memory)
  | .error error memory => (outcome (.error error), memory)

/-- Makes a call. -/
def run (serializer : Serializer) : Call → Memory → Outcome × Memory
  | .encode value, memory => settled .bytes (serializer.encode value memory)
  | .encodeContext context, memory => settled .bytes (serializer.encodeContext context memory)
  | .encodeInto value contents limits, memory =>
      ended .written (serializer.encodeInto value (serializer.buffer contents limits) memory)
  | .decode type bytes, memory => settled .value (serializer.decode type bytes memory)
  | .decodeFrom type contents limits, memory =>
      ended .read (serializer.decodeFrom type (serializer.buffer contents limits) memory)
  | .decodeType type contents limits, memory =>
      ended .read (serializer.decodeType type (serializer.buffer contents limits) memory)
  | .reset, memory => (.forgotten, Serializer.reset memory)

/-- The call names only sites that stand for what they say. All calls but the one
    that brings its own context leave the sites to the engine. -/
def Placed (schema : Schema) : Call → Prop
  | .encodeContext context => context.Placed schema
  | _ => True

end Call

/-- Calls made one after another, each chosen by the outcomes of those before it. -/
inductive Client
  | done
  | asking (call : Call) (next : Outcome → Client)

namespace Client

/-- The outcomes of all calls in order. -/
def outcomes (serializer : Serializer) : Client → Memory → List Outcome
  | .done, _ => []
  | .asking call next, memory =>
      let (outcome, later) := call.run serializer memory
      outcome :: (next outcome).outcomes serializer later

/-- No call names a site that stands for something else. -/
def Placed (schema : Schema) : Client → Prop
  | .done => True
  | .asking call next => call.Placed schema ∧ ∀ outcome, (next outcome).Placed schema

end Client

/-- A memory that earlier calls can have left behind, whatever they were and however
    they ended. -/
inductive Serializer.Reached (serializer : Serializer) : Memory → Prop
  | start : Reached serializer serializer.start
  | call (memory : Memory) (reached : Reached serializer memory) (call : Call)
      (placed : call.Placed serializer.schema) :
      Reached serializer (call.run serializer memory).2

/-! ## Calls without a memory -/

namespace Serializer

/-- The context of a value, or of none, at the root of a type. -/
def root (type : Ty) (value : Option Value) : Context :=
  { Context.of type with value := value, site := some (.root type) }

/-- What is at the root of a type is placed. -/
theorem root_placed (schema : Schema) (type : Ty) (value : Option Value) :
    (root type value).Placed schema := by
  intro site placed
  cases placed
  rfl

/-- Answers a request that no other one is around. -/
def directly (serializer : Serializer) (context : Context) (request : Request) :
    Buffer.Op request.Answer :=
  serializer.answer (serializer.nesting context) [] request

/-- Appends a value without a memory. -/
def appending (serializer : Serializer) (value : Value) : Buffer.Op Unit :=
  let context := root value.type (some value)
  serializer.directly context (.encode context)

/-- Takes a value of a described type off without a memory. -/
def taking (serializer : Serializer) (type : Ty) : Buffer.Op Value :=
  serializer.directly (root type none) (.decode (root type none))

/-- Takes a value of a type off without a memory. -/
def takingFrom (serializer : Serializer) (type : Ty) : Buffer.Op Value := do
  let value ← serializer.taking type
  Step.lift (value.expect type)

/-- The end of an operation on a buffer that is given up after a last look. -/
def closed (last : α → Buffer → Except Error β) : EStateM.Result Error Buffer α → Except Error β
  | .ok result buffer => last result buffer
  | .error error _ => .error error

/-- The bytes of a context's value, without a memory. -/
def encoded (serializer : Serializer) (context : Context) : Except Error Bytes :=
  closed (fun _ buffer => buffer.finish)
    (serializer.directly context (.encode context) serializer.writer)

/-- The value of a type that bytes stand for, without a memory. -/
def decoded (serializer : Serializer) (type : Ty) (bytes : Bytes) : Except Error Value :=
  closed (fun value buffer => (fun _ => value) <$> buffer.ensureConsumed)
    (serializer.takingFrom type (serializer.reader bytes))

/-- Bytes that stand for a value are taken off to the last. -/
theorem taken_of_decoded (serializer : Serializer) (type : Ty) (bytes : Bytes) (value : Value)
    (decoded : serializer.decoded type bytes = .ok value) :
    ∃ after, serializer.takingFrom type (serializer.reader bytes) = .ok value after ∧
      after.contents = .unread [] := by
  unfold Serializer.decoded closed at decoded
  cases ended : serializer.takingFrom type (serializer.reader bytes) with
  | error error after => rw [ended] at decoded; cases decoded
  | ok result after =>
      rw [ended] at decoded
      dsimp only [Buffer.ensureConsumed] at decoded
      split at decoded
      · cases decoded
      · next emptied =>
          cases decoded
          exact ⟨after, rfl, emptied⟩
      · cases decoded

section
variable {serializer : Serializer} {type : Ty} {bytes rest : Bytes} {value : Value} {error : Error}
  {stopped : Buffer}

/-- What is taken off to the last byte is decoded. -/
theorem decoded_of_taken
    (taken : serializer.takingFrom type (serializer.reader bytes)
      = .ok value (serializer.reader [])) :
    serializer.decoded type bytes = .ok value := by
  unfold decoded
  rw [taken]
  rfl

/-- What is left behind a value is counted. -/
theorem decoded_of_left
    (taken : serializer.takingFrom type (serializer.reader bytes)
      = .ok value (serializer.reader rest)) (some : rest ≠ []) :
    serializer.decoded type bytes = .error (.extraData rest.length) := by
  obtain ⟨octet, others, rfl⟩ := List.exists_cons_of_ne_nil some
  unfold decoded
  rw [taken]
  rfl

/-- What cannot be taken off is not decoded. -/
theorem decoded_of_failed
    (failed : serializer.takingFrom type (serializer.reader bytes) = .error error stopped) :
    serializer.decoded type bytes = .error error := by
  unfold decoded
  rw [failed]
  rfl

/-- What is appended to an empty buffer is encoded. -/
theorem encoded_of_appended
    (appended : serializer.appending value serializer.writer
      = .ok () ⟨.written bytes.reverse, serializer.config⟩) :
    serializer.encoded (root value.type (some value)) = .ok bytes := by
  change closed _ (serializer.appending value serializer.writer) = _
  rw [appended]
  exact congrArg Except.ok (List.reverse_reverse bytes)

/-- The bytes of a value are appended to an empty buffer. -/
theorem appended_of_encoded
    (encoded : serializer.encoded (root value.type (some value)) = .ok bytes) :
    ∃ after, serializer.appending value serializer.writer = .ok () after ∧
      after.finish = .ok bytes := by
  change closed _ (serializer.appending value serializer.writer) = _ at encoded
  cases ended : serializer.appending value serializer.writer with
  | error error between => rw [ended] at encoded; cases encoded
  | ok done between =>
      rw [ended] at encoded
      exact ⟨between, rfl, encoded⟩

end

end Serializer

namespace Call

/-- What the caller of an operation on its buffer sees. -/
def seen (outcome : Except Error α → Buffer.Contents → Outcome) :
    EStateM.Result Error Buffer α → Outcome
  | .ok result buffer => outcome (.ok result) buffer.contents
  | .error error buffer => outcome (.error error) buffer.contents

/-- The outcome of a call to a serializer that remembers nothing. -/
def answered (serializer : Serializer) : Call → Outcome
  | .encode value => .bytes (serializer.encoded (Serializer.root value.type (some value)))
  | .encodeContext context => .bytes (serializer.encoded context)
  | .encodeInto value contents limits =>
      seen .written (serializer.appending value (serializer.buffer contents limits))
  | .decode type bytes => .value (serializer.decoded type bytes)
  | .decodeFrom type contents limits =>
      seen .read (serializer.takingFrom type (serializer.buffer contents limits))
  | .decodeType type contents limits =>
      seen .read (serializer.taking type (serializer.buffer contents limits))
  | .reset => .forgotten

end Call

namespace Serializer

variable {serializer : Serializer} {memory : Memory}

/-- A walk of its own does to its buffer what its answer does. -/
theorem walk_eq_directly (static : serializer.Static)
    (makes : serializer.Makes (Codec.Placed serializer.schema)) (context : Context)
    (request : Request) (placed : request.Placed serializer.schema) (buffer : Buffer)
    (coherent : serializer.Coherent memory) :
    ∃ later, serializer.Coherent later ∧ serializer.walk context request buffer memory
      = Step.carry (fun after => ⟨after, [], later⟩) (serializer.directly context request buffer) :=
  follows_serve static makes (serializer.nesting context) [] request placed buffer memory coherent

/-- Appending a value to a buffer, whatever is remembered. -/
theorem encodeInto_eq_appending (static : serializer.Static)
    (makes : serializer.Makes (Codec.Placed serializer.schema)) (value : Value) (buffer : Buffer)
    (coherent : serializer.Coherent memory) :
    ∃ later, serializer.Coherent later ∧ serializer.encodeInto value buffer memory
      = Step.carry (fun after => ⟨after, [], later⟩) (serializer.appending value buffer) :=
  let context := root value.type (some value)
  walk_eq_directly static makes context (.encode context) (root_placed _ _ _) buffer coherent

/-- Decoding a value of a described type, whatever is remembered. -/
theorem decodeType_eq_taking (static : serializer.Static)
    (makes : serializer.Makes (Codec.Placed serializer.schema)) (type : Ty) (buffer : Buffer)
    (coherent : serializer.Coherent memory) :
    ∃ later, serializer.Coherent later ∧ serializer.decodeType type buffer memory
      = Step.carry (fun after => ⟨after, [], later⟩) (serializer.taking type buffer) :=
  let context := root type none
  walk_eq_directly static makes context (.decode context) (root_placed _ _ _) buffer coherent

/-- Decoding a value of a type off the front of a buffer, whatever is remembered. -/
theorem decodeFrom_eq_takingFrom (static : serializer.Static)
    (makes : serializer.Makes (Codec.Placed serializer.schema)) (type : Ty) (buffer : Buffer)
    (coherent : serializer.Coherent memory) :
    ∃ later, serializer.Coherent later ∧ serializer.decodeFrom type buffer memory
      = Step.carry (fun after => ⟨after, [], later⟩) (serializer.takingFrom type buffer) := by
  obtain ⟨later, kept, walked⟩ := decodeType_eq_taking static makes type buffer coherent
  refine ⟨later, kept, ?_⟩
  rw [takingFrom, Step.bind_apply]
  simp only [decodeFrom, walked]
  cases serializer.taking type buffer with
  | ok value after =>
      cases expected : value.expect type <;> simp only [Step.carry, expected] <;> rfl
  | error error after => rfl

/-- Encoding the value of a context, whatever is remembered. -/
theorem encodeContext_eq_encoded (static : serializer.Static)
    (makes : serializer.Makes (Codec.Placed serializer.schema)) (context : Context)
    (placed : context.Placed serializer.schema) (coherent : serializer.Coherent memory) :
    ∃ later, serializer.Coherent later ∧ serializer.encodeContext context memory
      = Step.lift (serializer.encoded context) later := by
  obtain ⟨later, kept, walked⟩ :=
    walk_eq_directly static makes context (.encode context) placed serializer.writer coherent
  refine ⟨later, kept, ?_⟩
  simp only [encodeContext, encoded, walked]
  cases serializer.directly context (.encode context) serializer.writer with
  | ok result after =>
      simp only [Step.carry, closed]
      cases after.finish <;> rfl
  | error error after => rfl

/-- Encoding a value, whatever is remembered. -/
theorem encode_eq_encoded (static : serializer.Static)
    (makes : serializer.Makes (Codec.Placed serializer.schema)) (value : Value)
    (coherent : serializer.Coherent memory) :
    ∃ later, serializer.Coherent later ∧ serializer.encode value memory
      = Step.lift (serializer.encoded (root value.type (some value))) later :=
  encodeContext_eq_encoded static makes _ (root_placed _ _ _) coherent

/-- Decoding a value from all of the bytes, whatever is remembered. -/
theorem decode_eq_decoded (static : serializer.Static)
    (makes : serializer.Makes (Codec.Placed serializer.schema)) (type : Ty) (bytes : Bytes)
    (coherent : serializer.Coherent memory) :
    ∃ later, serializer.Coherent later ∧ serializer.decode type bytes memory
      = Step.lift (serializer.decoded type bytes) later := by
  obtain ⟨later, kept, walked⟩ :=
    decodeFrom_eq_takingFrom static makes type (serializer.reader bytes) coherent
  refine ⟨later, kept, ?_⟩
  simp only [decode, decoded, walked]
  cases serializer.takingFrom type (serializer.reader bytes) with
  | ok value after =>
      simp only [Step.carry, closed]
      cases after.ensureConsumed <;> rfl
  | error error after => rfl

end Serializer

namespace Call

variable {serializer : Serializer}

/-- What is seen of a walk is what is seen of the operation that it follows. -/
theorem ended_carry (outcome : Except Error α → Buffer.Contents → Outcome) (later : Memory)
    (result : EStateM.Result Error Buffer α) :
    ended outcome (Step.carry (fun after => ⟨after, [], later⟩) result)
      = (seen outcome result, later) := by
  cases result <;> rfl

/-- A result and what is remembered are apart. -/
theorem settled_lift (outcome : Except Error α → Outcome) (later : Memory)
    (result : Except Error α) :
    settled outcome (Step.lift result later) = (outcome result, later) := by
  cases result <;> rfl

/-- A call comes out as if nothing were remembered, and leaves a coherent memory. -/
theorem run_eq_answered (static : serializer.Static)
    (makes : serializer.Makes (Codec.Placed serializer.schema)) (call : Call)
    (placed : call.Placed serializer.schema) (memory : Memory)
    (coherent : serializer.Coherent memory) :
    (call.run serializer memory).1 = call.answered serializer
      ∧ serializer.Coherent (call.run serializer memory).2 := by
  cases call with
  | encode value =>
      obtain ⟨later, kept, same⟩ := Serializer.encode_eq_encoded static makes value coherent
      simp only [run, answered, same, settled_lift]
      exact ⟨trivial, kept⟩
  | encodeContext context =>
      obtain ⟨later, kept, same⟩ :=
        Serializer.encodeContext_eq_encoded static makes context placed coherent
      simp only [run, answered, same, settled_lift]
      exact ⟨trivial, kept⟩
  | encodeInto value contents limits =>
      obtain ⟨later, kept, same⟩ := Serializer.encodeInto_eq_appending static makes value
        (serializer.buffer contents limits) coherent
      simp only [run, answered, same, ended_carry]
      exact ⟨trivial, kept⟩
  | decode type bytes =>
      obtain ⟨later, kept, same⟩ := Serializer.decode_eq_decoded static makes type bytes coherent
      simp only [run, answered, same, settled_lift]
      exact ⟨trivial, kept⟩
  | decodeFrom type contents limits =>
      obtain ⟨later, kept, same⟩ := Serializer.decodeFrom_eq_takingFrom static makes type
        (serializer.buffer contents limits) coherent
      simp only [run, answered, same, ended_carry]
      exact ⟨trivial, kept⟩
  | decodeType type contents limits =>
      obtain ⟨later, kept, same⟩ := Serializer.decodeType_eq_taking static makes type
        (serializer.buffer contents limits) coherent
      simp only [run, answered, same, ended_carry]
      exact ⟨trivial, kept⟩
  | reset => exact ⟨rfl, Serializer.coherent_of_empty _⟩

end Call

/-- Whatever earlier calls have left behind is coherent. -/
theorem Serializer.coherent_of_reached {serializer : Serializer} (static : serializer.Static)
    (makes : serializer.Makes (Codec.Placed serializer.schema)) (memory : Memory)
    (reached : serializer.Reached memory) : serializer.Coherent memory := by
  induction reached with
  | start => exact coherent_of_empty _
  | call memory _ call placed inductionHypothesis =>
      exact (call.run_eq_answered static makes placed memory inductionHypothesis).2

/-- Without rules of a user's none looks at values. -/
theorem Serializer.builtin_static (schema : Schema) (config : Config) :
    (build schema config).Static :=
  static_build schema config [] [] _ (List.forall_mem_nil _) (List.forall_mem_nil _)

/-- Without rules of a user's every codec asks for placed contexts only. -/
theorem Serializer.builtin_makes (schema : Schema) (config : Config) :
    (build schema config).Makes (Codec.Placed schema) :=
  makes_build (Codec.builtin_placed schema) config [] [] _ (List.forall_mem_nil _)
    (List.forall_mem_nil _)

/-- Without rules of a user's, taking a value off a buffer never depends on earlier calls. -/
theorem Serializer.decodeFrom_of_reached (schema : Schema) (config : Config) (type : Ty)
    (buffer : Buffer) (memory : Memory) (reached : (build schema config).Reached memory) :
    ∃ later, (build schema config).decodeFrom type buffer memory
      = Step.carry (fun after => ⟨after, [], later⟩)
          ((build schema config).takingFrom type buffer) := by
  obtain ⟨later, _, same⟩ := decodeFrom_eq_takingFrom (builtin_static schema config)
    (builtin_makes schema config) type buffer
    (coherent_of_reached (builtin_static schema config) (builtin_makes schema config) memory reached)
  exact ⟨later, same⟩

/-- Without rules of a user's, decoding never depends on earlier calls. -/
theorem Serializer.decode_of_reached (schema : Schema) (config : Config) (type : Ty)
    (bytes : Bytes) (memory : Memory) (reached : (build schema config).Reached memory) :
    ∃ later, (build schema config).decode type bytes memory
      = Step.lift ((build schema config).decoded type bytes) later := by
  obtain ⟨later, _, same⟩ := decode_eq_decoded (builtin_static schema config)
    (builtin_makes schema config) type bytes
    (coherent_of_reached (builtin_static schema config) (builtin_makes schema config) memory reached)
  exact ⟨later, same⟩

/-- Without rules of a user's, encoding never depends on earlier calls. -/
theorem Serializer.encode_of_reached (schema : Schema) (config : Config) (value : Value)
    (memory : Memory) (reached : (build schema config).Reached memory) :
    ∃ later, (build schema config).encode value memory
      = Step.lift ((build schema config).encoded (root value.type (some value))) later := by
  obtain ⟨later, _, same⟩ := encode_eq_encoded (builtin_static schema config)
    (builtin_makes schema config) value
    (coherent_of_reached (builtin_static schema config) (builtin_makes schema config) memory reached)
  exact ⟨later, same⟩

/-- The outcomes of a client of a serializer that remembers nothing. -/
def Client.answers (serializer : Serializer) : Client → List Outcome
  | .done => []
  | .asking call next =>
      call.answered serializer :: (next (call.answered serializer)).answers serializer

/-- A client sees what it would see if nothing were remembered. -/
theorem Client.outcomes_eq_answers {serializer : Serializer} (static : serializer.Static)
    (makes : serializer.Makes (Codec.Placed serializer.schema)) (client : Client)
    (placed : client.Placed serializer.schema) (memory : Memory)
    (coherent : serializer.Coherent memory) :
    client.outcomes serializer memory = client.answers serializer := by
  induction client generalizing memory with
  | done => rfl
  | asking call next inductionHypothesis =>
      obtain ⟨same, kept⟩ := call.run_eq_answered static makes placed.1 memory coherent
      simp only [outcomes, answers, same]
      rw [inductionHypothesis _ (placed.2 _) _ kept]

/-! ## The cache is transparent -/

/-- The serializer with codecs remembered or not. -/
def Serializer.remembering (serializer : Serializer) (remembers : Bool) : Serializer :=
  { serializer with config := { serializer.config with cacheCodecs := remembers } }

namespace Serializer

variable {serializer : Serializer}

/-- The setting has no part in how requests are answered. -/
theorem answer_remembering (remembers : Bool) (depth : Nat) (visited : List Ty)
    (request : Request) :
    (serializer.remembering remembers).answer depth visited request
      = serializer.answer depth visited request := by
  induction depth generalizing visited request with
  | zero => cases request <;> rfl
  | succ depth inductionHypothesis =>
      have same (visited : List Ty) : (serializer.remembering remembers).answer depth visited
          = serializer.answer depth visited :=
        funext fun request => inductionHypothesis visited request
      cases request with
      | look => rfl
      | replace buffer => rfl
      | path => rfl
      | encodeFields type description value => simp only [answer, same]
      | decodeFields type description => simp only [answer, same]
      | _ => simp only [answer, same]; rfl

/-- The setting has no part in answering a request that no other one is around. -/
theorem directly_remembering (remembers : Bool) (context : Context) (request : Request) :
    (serializer.remembering remembers).directly context request
      = serializer.directly context request :=
  answer_remembering remembers (serializer.nesting context) [] request

/-- Appending is indifferent. -/
theorem indifferent_appending (makes : serializer.Makes Codec.Indifferent) (value : Value) :
    Buffer.Indifferent (serializer.appending value) :=
  (indifferently_answer makes _ []).others (.encode _) rfl

/-- Taking a value of a described type off is indifferent. -/
theorem indifferent_taking (makes : serializer.Makes Codec.Indifferent) (type : Ty) :
    Buffer.Indifferent (serializer.taking type) :=
  (indifferently_answer makes _ []).others (.decode _) rfl

/-- Taking a value of a type off is indifferent. -/
theorem indifferent_takingFrom (makes : serializer.Makes Codec.Indifferent) (type : Ty) :
    Buffer.Indifferent (serializer.takingFrom type) :=
  Buffer.indifferent_bind (indifferent_taking makes type) fun _ => Buffer.indifferent_lift _

/-- A last look that does not see the setting ends an indifferent operation alike. -/
theorem closed_stamped {operation : Buffer.Op α} (indifferent : Buffer.Indifferent operation)
    (last : α → Buffer → Except Error β)
    (unseen : ∀ result remembers buffer,
      last result (Buffer.stamped remembers buffer) = last result buffer)
    (remembers : Bool) (buffer : Buffer) :
    closed last (operation (buffer.stamped remembers)) = closed last (operation buffer) := by
  rw [indifferent remembers buffer]
  cases operation buffer with
  | ok result after => exact unseen result remembers after
  | error error after => rfl

end Serializer

namespace Call

variable {serializer : Serializer}

/-- What is seen of an indifferent operation on a buffer is the same under either
    setting, whether the limits are the serializer's or not. -/
theorem seen_remembering {operation : Buffer.Op α} (indifferent : Buffer.Indifferent operation)
    (outcome : Except Error α → Buffer.Contents → Outcome) (remembers : Bool)
    (contents : Buffer.Contents) (limits : Option Config) :
    seen outcome (operation ((serializer.remembering remembers).buffer contents limits))
      = seen outcome (operation (serializer.buffer contents limits)) := by
  cases limits with
  | some config => rfl
  | none =>
      change seen outcome (operation ((serializer.buffer contents none).stamped remembers)) = _
      rw [indifferent remembers (serializer.buffer contents none)]
      cases operation (serializer.buffer contents none) <;> rfl

/-- The setting shows in no outcome. -/
theorem answered_remembering (makes : serializer.Makes Codec.Indifferent) (remembers : Bool)
    (call : Call) : call.answered (serializer.remembering remembers) = call.answered serializer := by
  have encoded (context : Context) :
      (serializer.remembering remembers).encoded context = serializer.encoded context := by
    unfold Serializer.encoded
    rw [Serializer.directly_remembering]
    exact Serializer.closed_stamped ((Serializer.indifferently_answer makes _ []).others _ rfl) _
      (fun _ _ _ => rfl) remembers serializer.writer
  have appending (value : Value) :
      (serializer.remembering remembers).appending value = serializer.appending value :=
    Serializer.directly_remembering remembers _ _
  have taking (type : Ty) :
      (serializer.remembering remembers).taking type = serializer.taking type :=
    Serializer.directly_remembering remembers _ _
  have takingFrom (type : Ty) :
      (serializer.remembering remembers).takingFrom type = serializer.takingFrom type := by
    simp only [Serializer.takingFrom, taking]
  cases call with
  | encode value => simp only [answered, encoded]
  | encodeContext context => simp only [answered, encoded]
  | encodeInto value contents limits =>
      simp only [answered, appending]
      exact seen_remembering (Serializer.indifferent_appending makes value) _ remembers contents limits
  | decode type bytes =>
      simp only [answered, Serializer.decoded, takingFrom]
      exact congrArg Outcome.value (Serializer.closed_stamped
        (Serializer.indifferent_takingFrom makes type) _ (fun _ _ _ => rfl) remembers
        (serializer.reader bytes))
  | decodeFrom type contents limits =>
      simp only [answered, takingFrom]
      exact seen_remembering (Serializer.indifferent_takingFrom makes type) _ remembers contents limits
  | decodeType type contents limits =>
      simp only [answered, taking]
      exact seen_remembering (Serializer.indifferent_taking makes type) _ remembers contents limits
  | reset => rfl

end Call

/-- A client is answered alike under either setting. -/
theorem Client.answers_remembering {serializer : Serializer}
    (makes : serializer.Makes Codec.Indifferent) (remembers : Bool) (client : Client) :
    client.answers (serializer.remembering remembers) = client.answers serializer := by
  induction client with
  | done => rfl
  | asking call next inductionHypothesis =>
      simp only [answers, call.answered_remembering makes remembers, inductionHypothesis]

/-- A codec that asks for placed contexts only and does not look at the setting. -/
structure Codec.Orderly (schema : Schema) (codec : Codec) : Prop where
  placed : codec.Placed schema
  indifferent : codec.Indifferent

/-- Rules of a user's that do not look at values and that make and keep orderly codecs,
    over a schema whose custom formats are indifferent. -/
structure Orderly (schema : Schema) (resolvers : List Resolver) (transforms : List Transform) :
    Prop where
  claims : ∀ resolver ∈ resolvers, resolver.Static
  makes : ∀ resolver ∈ resolvers, resolver.Makes (Codec.Orderly schema)
  applies : ∀ transform ∈ transforms, transform.Static
  keeps : ∀ transform ∈ transforms, transform.Keeps (Codec.Orderly schema)
  formats : ∀ type format, schema.kind type = .custom format → format.Indifferent

/-- Built-in codecs are orderly. -/
theorem Codec.builtin_orderly (schema : Schema)
    (formats : ∀ type format, schema.kind type = .custom format → format.Indifferent) :
    Codec.Builtin schema (Codec.Orderly schema) := by
  have placed := builtin_placed schema
  have indifferent := builtin_indifferent schema formats
  constructor
  · exact fun leaf => ⟨placed.leaf leaf, indifferent.leaf leaf⟩
  · exact ⟨placed.octetVector, indifferent.octetVector⟩
  · exact fun type names => ⟨placed.enumeration type names, indifferent.enumeration type names⟩
  · exact fun type key value => ⟨placed.map type key value, indifferent.map type key value⟩
  · exact fun type element collect =>
      ⟨placed.stream type element collect, indifferent.stream type element collect⟩
  · exact fun type => ⟨placed.innerOption type, indifferent.innerOption type⟩
  · exact fun type description described =>
      ⟨placed.aggregate type description described,
        indifferent.aggregate type description described⟩
  · exact fun type format described =>
      ⟨placed.custom type format described, indifferent.custom type format described⟩
  · exact fun inner orderly =>
      ⟨placed.nullable inner orderly.placed, indifferent.nullable inner orderly.indifferent⟩

/-- Whether codecs are remembered makes no difference to any client: with orderly rules
    at any priorities, every call of every sequence of calls has the same outcome. -/
theorem caching_transparent (schema : Schema) (config : Config) (resolvers : List Resolver)
    (transforms : List Transform) (nesting : Context → Nat)
    (orderly : Orderly schema resolvers transforms) (client : Client)
    (placed : client.Placed schema) :
    let caching := Serializer.build schema { config with cacheCodecs := true } resolvers transforms
      nesting
    let forgetful := Serializer.build schema { config with cacheCodecs := false } resolvers
      transforms nesting
    client.outcomes caching caching.start = client.outcomes forgetful forgetful.start := by
  intro caching forgetful
  have static (config : Config) :=
    Serializer.static_build schema config resolvers transforms nesting orderly.claims
      orderly.applies
  have makes (config : Config) :=
    Serializer.makes_build (Codec.builtin_orderly schema orderly.formats) config resolvers
      transforms nesting orderly.makes orderly.keeps
  have answered (config : Config) :
      client.outcomes (Serializer.build schema config resolvers transforms nesting)
          (Serializer.build schema config resolvers transforms nesting).start
        = client.answers (Serializer.build schema config resolvers transforms nesting) :=
    Client.outcomes_eq_answers (static config)
      (Serializer.makes_mono (fun _ both => both.placed) (makes config)) client placed _
      (Serializer.coherent_of_empty _)
  have indifferent : forgetful.Makes Codec.Indifferent :=
    Serializer.makes_mono (fun _ both => both.indifferent) (makes _)
  rw [answered, answered]
  change client.answers (forgetful.remembering true) = client.answers forgetful
  exact Client.answers_remembering indifferent true client

/-- A schema of one aggregate, whose only field is tagged. -/
def counters : Schema where
  entries :=
    [{ type := .named "Counter", members := [⟨"hits", .i64, [.tag "flagged"], none⟩]
       definition := .aggregate
        { fields := [⟨"hits", .i64, [.tag "flagged"], 0⟩]
          initial := some (.record (.named "Counter") [.i64 0]) } }]

/-- A rule that writes tagged numbers like untagged ones, before any other rule. -/
def plainly : Resolver where
  priority := 500
  claims context := context.hasTag "flagged"
  make _ := .ok (Codec.leaf .i64)

/-- A rule that puts a flag in front of tagged values. -/
def flagging : Transform where
  applies context := context.hasTag "flagged"
  wrap := Codec.nullable

/-- A client that decodes what it has encoded, forgets, and starts again once. -/
def counting : Client :=
  let value := Value.record (.named "Counter") [.i64 7]
  .asking (.encode value) fun outcome =>
    match outcome with
    | .bytes (.ok bytes) =>
        .asking (.decode (.named "Counter") bytes) fun _ =>
          .asking .reset fun _ => .asking (.encodeInto value (.unread []) none) fun _ => .done
    | _ => .done

/-- The client that counts sees no difference, though the rules tell its field from
    others. -/
theorem caching_transparent_counting :
    Orderly counters [plainly] [flagging] ∧ counting.Placed counters ∧
      counting.outcomes
          (Serializer.build counters { cacheCodecs := true } [plainly] [flagging] counters.depth)
          (Serializer.build counters { cacheCodecs := true } [plainly] [flagging]
            counters.depth).start
        = counting.outcomes
          (Serializer.build counters { cacheCodecs := false } [plainly] [flagging] counters.depth)
          (Serializer.build counters { cacheCodecs := false } [plainly] [flagging]
            counters.depth).start := by
  have formats : ∀ type format, counters.kind type = .custom format → format.Indifferent := by
    intro type format described
    have told : (counters.kind type).definition? = some (.custom format) := by
      rw [described]
      rfl
    obtain ⟨entry, found, custom⟩ := counters.entry_of_kind type _ told
    cases List.mem_singleton.mp (List.mem_of_find?_eq_some found)
    cases custom
  have builtin := Codec.builtin_orderly counters formats
  have orderly : Orderly counters [plainly] [flagging] := by
    refine ⟨?_, ?_, ?_, ?_, formats⟩
    · intro resolver registered
      cases List.mem_singleton.mp registered
      exact ⟨fun _ => rfl, fun _ => rfl⟩
    · intro resolver registered context codec made
      cases List.mem_singleton.mp registered
      cases made
      exact builtin.leaf .i64
    · intro transform registered context
      cases List.mem_singleton.mp registered
      rfl
    · intro transform registered
      cases List.mem_singleton.mp registered
      exact builtin.nullable
  have placed : counting.Placed counters := by
    refine ⟨trivial, fun outcome => ?_⟩
    dsimp only
    split
    · exact ⟨trivial, fun _ => ⟨trivial, fun _ => ⟨trivial, fun _ => trivial⟩⟩⟩
    · trivial
  exact ⟨orderly, placed,
    caching_transparent counters {} [plainly] [flagging] counters.depth orderly counting placed⟩

/-- Writes whether codecs are remembered, as the limits of the buffer tell. -/
def writeSetting : Buffer.Op Unit := do
  Buffer.writeBool (← Buffer.limits).cacheCodecs

/-- A rule that has the setting written in place of tagged numbers. Its codec keeps no state and
    asks for nothing but the buffer. -/
def telling : Resolver where
  priority := 500
  claims context := context.hasTag "flagged"
  make _ := .ok (Codec.typed .i64 (fun _ => writeSetting) (do
    let _ ← Buffer.readBool
    return .i64 0))

/-- A schema of one type, which has the setting written in place of its only value. -/
def gauges : Schema where
  entries :=
    [{ type := .named "Gauge"
       definition := .custom
        { write := fun _ => writeSetting
          read := do
            let _ ← Buffer.readBool
            return .record (.named "Gauge") [] } }]

/-- Codecs that look at the setting make it known, though their rule looks at no value and they ask
    for no place: the bytes of one and the same value are others where codecs are remembered. So do
    types that write themselves, with no rules but the built-in ones. -/
theorem caching_told :
    let bytes := fun schema resolvers value cacheCodecs =>
      let serializer := Serializer.build schema { cacheCodecs } resolvers [] schema.depth
      Step.result? (serializer.encode value serializer.start)
    let counter := Value.record (.named "Counter") [.i64 7]
    let gauge := Value.record (.named "Gauge") []
    (telling.Static ∧ telling.Makes (Codec.Placed counters)) ∧
      (bytes counters [telling] counter true = some [1] ∧
        bytes counters [telling] counter false = some [0]) ∧
      bytes gauges [] gauge true = some [1] ∧ bytes gauges [] gauge false = some [0] := by
  refine ⟨⟨⟨fun _ => rfl, fun _ => rfl⟩, ?_⟩, ?_⟩
  · rintro context codec ⟨⟩
    exact Codec.typed_placed counters _ _ _
  · decide +kernel

end Wireform
