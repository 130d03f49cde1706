import Wireform.Context

/-!
# Codec programs

A codec does its work through a walker: it reads and writes the walker's buffer,
asks the walker to encode or decode at another context, and may look at the path
of aggregates that enclose it. A program is such work written down as data: it
ends in a result or a failure, or makes a request and goes on with the answer. A
failed request is an answer too, so a program may carry on after it.

Whatever can be said of every program holds of every codec, built in or not.
-/

namespace Wireform

/-- What a program can ask its walker for. -/
inductive Request
  /-- The buffer as it stands. -/
  | look
  /-- Another buffer in place of the present one. -/
  | replace (buffer : Buffer)
  /-- The names of the aggregates being walked, outermost first. -/
  | path
  /-- Encode the value of a context. -/
  | encode (context : Context)
  /-- Decode a value of the declared type of a context. -/
  | decode (context : Context)
  /-- Descend into an aggregate and encode its fields. -/
  | encodeFields (type : Ty) (aggregate : Aggregate) (value : Value)
  /-- Descend into an aggregate and rebuild it from decoded parts. -/
  | decodeFields (type : Ty) (aggregate : Aggregate)
  /-- Resolve a context and let the codec found encode a value, if one is found. -/
  | encodeResolved (context : Context) (value : Option Value)
  /-- Resolve a context and let the codec found decode, if one is found. -/
  | decodeResolved (context : Context)

/-- What a request is answered with when it succeeds. -/
@[reducible] def Request.Answer : Request → Type
  | .look => Buffer
  | .replace _ => Unit
  | .path => List String
  | .encode _ => Unit
  | .decode _ => Value
  | .encodeFields _ _ _ => Unit
  | .decodeFields _ _ => Value
  | .encodeResolved _ _ => Option Unit
  | .decodeResolved _ => Option (Option Value)

/-- Work that yields an `α`. -/
inductive Program (α : Type) : Type
  | done (result : α)
  | fail (error : Error)
  | ask (request : Request) (next : Except Error request.Answer → Program α)

namespace Program

variable {α β γ : Type}

/-- One program after another. A failure ends both. -/
def bind : Program α → (α → Program β) → Program β
  | .done result, next => next result
  | .fail error, _ => .fail error
  | .ask request answered, next => .ask request fun answer => (answered answer).bind next

instance : Monad Program where
  pure := .done
  bind := bind

/-- Going on with nothing changes nothing. -/
theorem bind_done (program : Program α) : program.bind .done = program := by
  induction program with
  | done result => rfl
  | fail error => rfl
  | ask request next inductionHypothesis => simp [bind, inductionHypothesis]

/-- How a succession of programs is grouped does not matter. -/
theorem bind_assoc (program : Program α) (first : α → Program β) (second : β → Program γ) :
    (program.bind first).bind second = program.bind fun result => (first result).bind second := by
  induction program with
  | done result => rfl
  | fail error => rfl
  | ask request next inductionHypothesis => simp [bind, inductionHypothesis]

instance : LawfulMonad Program :=
  LawfulMonad.mk' Program bind_done (fun _ _ => rfl) bind_assoc

/-- A result or a failure as a program that does nothing. -/
def lift : Except Error α → Program α
  | .ok result => .done result
  | .error error => .fail error

/-- Makes a request and fails if the request does. -/
def perform (request : Request) : Program request.Answer :=
  .ask request lift

/-- Runs a buffer operation on the walker's buffer. -/
def buffer (operation : Buffer.Op α) : Program α := do
  let before : Buffer ← perform .look
  match operation before with
  | .ok result after => do
      let _ : Unit ← perform (.replace after)
      return result
  | .error error after => do
      let _ : Unit ← perform (.replace after)
      fail error

/-- Encodes the value of a context. -/
def encode (context : Context) : Program Unit := perform (.encode context)

/-- Decodes a value of the declared type of a context. -/
def decode (context : Context) : Program Value := perform (.decode context)

/-- The names of the aggregates being walked, outermost first. -/
def path : Program (List String) := perform .path

/-- Encodes values one after another in the same context. -/
def encodeEach (context : Context) : List Value → Program Unit
  | [] => return ()
  | value :: rest => do
      encode (context.withValue value)
      encodeEach context rest

/-- Decodes a number of values in the same context, in order. -/
def decodeEach (context : Context) : (count : Nat) → (collected : List Value) →
    Program (List Value)
  | 0, collected => return collected.reverse
  | count + 1, collected => do
      let value ← decode context
      decodeEach context count (value :: collected)

/-- Encodes entries one after another, each key before its value. -/
def encodeEntries (key value : Context) : List (Value × Value) → Program Unit
  | [] => return ()
  | entry :: rest => do
      encode (key.withValue entry.1)
      encode (value.withValue entry.2)
      encodeEntries key value rest

/-- Decodes a number of entries in order, each key before its value. -/
def decodeEntries (key value : Context) : (count : Nat) → (collected : List (Value × Value)) →
    Program (List (Value × Value))
  | 0, collected => return collected.reverse
  | count + 1, collected => do
      let first ← decode key
      let second ← decode value
      decodeEntries key value count ((first, second) :: collected)

end Program

end Wireform
