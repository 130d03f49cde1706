import Wireform.Text.Utf8

/-!
# Failures of encoding and decoding

Each constructor is a cause. The wording is in `message` alone. A failure inside
a field of an aggregate is wrapped once per enclosing field, so that `path` can
list the fields from the outermost inwards and `rootCause` is what went wrong at
the end of that path.

Work that can fail is a `Step`: it leaves its state behind on failure as well, so
what was done before the failure stays done.
-/

namespace Wireform

/-- What a buffer can be used for. -/
inductive Mode
  | write
  | read
deriving DecidableEq, Repr

/-- The mode as it is named in messages. -/
def Mode.name : Mode → String
  | .write => "write"
  | .read => "read"

/-- Why an operation on a buffer, a value or a description failed. Types are named
    by their qualified names. -/
inductive Error
  /-- The buffer is in the mode of this name, which the operation does not work in. -/
  | mode (name : String)
  | endOfBuffer
  | extraData (count : Nat)
  | invalidLength (length : Int)
  | lengthExceeded (length : Nat)
  | lengthOverflow (length : Nat)
  | lengthMismatch (expected actual : Nat)
  | invalidBool
  | invalidChar (code : Nat)
  | invalidUtf8 (fault : Text.Utf8.Fault)
  | circularReference (type : String)
  | noCodecFound (type : String)
  | noConstructorAvailable (type : String)
  | invalidEnumValue (type name : String)
  | missingElementType (type : String)
  | unexpectedNull (type : String)
  | typeMismatch (expected : String)
  /-- The walk is nested deeper than it was allowed to be. -/
  | depthExceeded
  /-- A failure inside a field of an aggregate. -/
  | field (owner name : String) (cause : Error)
  /-- A failure that a user codec, a constructor or a custom format reports. -/
  | custom (text : String)
deriving DecidableEq, Repr

namespace Error

/-- The failure as seen from the aggregate that has it in one of its fields. -/
def inField (owner name : String) (error : Error) : Error :=
  .field owner name error

/-- What went wrong, without the fields it happened in. -/
def rootCause : Error → Error
  | .field _ _ cause => cause.rootCause
  | error => error

/-- The names of the enclosing fields, outermost first. -/
def path : Error → List String
  | .field _ name cause => name :: cause.path
  | _ => []

/-- The cause in one word, by which reports are grouped. -/
def label : Error → String
  | .mode _ => "Mode"
  | .endOfBuffer => "EndOfBuffer"
  | .extraData _ => "ExtraData"
  | .invalidLength _ => "InvalidLength"
  | .lengthExceeded _ => "LengthExceeded"
  | .lengthOverflow _ => "LengthOverflow"
  | .lengthMismatch _ _ => "LengthMismatch"
  | .invalidBool => "InvalidBool"
  | .invalidChar _ => "InvalidChar"
  | .invalidUtf8 _ => "InvalidUtf8"
  | .circularReference _ => "CircularReference"
  | .noCodecFound _ => "NoCodecFound"
  | .noConstructorAvailable _ => "NoConstructorAvailable"
  | .invalidEnumValue _ _ => "InvalidEnumValue"
  | .missingElementType _ => "MissingElementType"
  | .unexpectedNull _ => "UnexpectedNull"
  | .typeMismatch _ => "TypeMismatch"
  | .depthExceeded => "DepthExceeded"
  | .field _ _ _ => "Field"
  | .custom _ => "Custom"

/-- A number in hexadecimal with its base sign. -/
def hexadecimal (number : Nat) : String :=
  "0x" ++ String.ofList (Nat.toDigits 16 number)

/-- What is reported to a user. -/
def message : Error → String
  | .mode name => "buffer is in " ++ name ++ " mode"
  | .endOfBuffer => "unexpected end of buffer"
  | .extraData count => "extra data found: " ++ toString count ++ " bytes"
  | .invalidLength length => "invalid length: " ++ toString length
  | .lengthExceeded length => "length exceeded: " ++ toString length ++ " not in allowed range"
  | .lengthOverflow length =>
      "length overflow: " ++ toString length ++ " does not fit the length prefix"
  | .lengthMismatch expected actual =>
      "length mismatch: expected " ++ toString expected ++ ", found " ++ toString actual
  | .invalidBool => "invalid bool"
  | .invalidChar code => "invalid char: " ++ hexadecimal code
  | .invalidUtf8 fault => "invalid utf-8: " ++ fault.message
  | .circularReference type => "circular reference: " ++ type
  | .noCodecFound type => "no codec found: " ++ type
  | .noConstructorAvailable type => "no constructor available: " ++ type
  | .invalidEnumValue type name => "invalid enum value for " ++ type ++ ": " ++ name
  | .missingElementType type => "missing element type: " ++ type
  | .unexpectedNull type => "unexpected null: " ++ type
  | .typeMismatch expected => "type mismatch: expected " ++ expected
  | .depthExceeded => "nesting too deep"
  | .field owner name cause => owner ++ "." ++ name ++ ": " ++ cause.message
  | .custom text => text

end Error

/-- Work on a state that yields a result or fails. The state is left behind either
    way. -/
abbrev Step (σ α : Type) := EStateM Error σ α

namespace Step

variable {σ α : Type}

/-- Fails with the given cause and leaves the state as it is. -/
def fail (error : Error) : Step σ α := fun state => .error error state

/-- A result or a failure as a step that changes nothing. -/
def lift : Except Error α → Step σ α
  | .ok result => fun state => .ok result state
  | .error error => fail error

/-- Reports a failure of a step as one inside a field. -/
def inField (owner name : String) (step : Step σ α) : Step σ α := fun state =>
  match step state with
  | .ok result after => .ok result after
  | .error error after => .error (error.inField owner name) after

end Step

end Wireform
