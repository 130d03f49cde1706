import Wireform.Error

/-!
# Failures of packet handling

What can go wrong when packets are registered, framed and compressed, on top of
the failures of encoding and decoding itself.
-/

namespace Wireform.Packet

/-- Why an operation on packets failed. Types are named by their qualified names. -/
inductive Error
  | codec (cause : Wireform.Error)
  | notRegistered (type : String)
  | unknownId (id : String)
  | duplicateId (id : String)
  | duplicateType (type : String)
  | oversized (size limit : Nat)
  /-- The compressed form could not be made or is not one. -/
  | compression
deriving DecidableEq, Repr

/-- The cause in one word, by which reports are grouped. -/
def Error.label : Error → String
  | .codec _ => "Codec"
  | .notRegistered _ => "NotRegistered"
  | .unknownId _ => "UnknownId"
  | .duplicateId _ => "DuplicateId"
  | .duplicateType _ => "DuplicateType"
  | .oversized _ _ => "Oversized"
  | .compression => "Compression"

/-- What is reported to a user. -/
def Error.message : Error → String
  | .codec cause => "codec error: " ++ cause.message
  | .notRegistered type => "packet type not registered: " ++ type
  | .unknownId id => "unknown packet id: " ++ id
  | .duplicateId id => "duplicate packet id: " ++ id
  | .duplicateType type => "packet type already registered: " ++ type
  | .oversized size limit => "frame too large: " ++ toString size ++ " > " ++ toString limit
  | .compression => "compression failed"

end Wireform.Packet
