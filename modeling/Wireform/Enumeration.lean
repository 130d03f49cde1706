import Wireform.Buffer
import Wireform.Value

/-!
# Enumerations on the wire

A member travels as its name, written like any text. A list of names describes an
enumeration; a name stands for the first member that has it, so reading undoes
writing exactly when the names are distinct.
-/

namespace Wireform.Enumeration

/-- The name of a member of the enumeration `type`. -/
def nameOf (type : Ty) (names : List String) : Value → Except Error String
  | .member actual index =>
      match names[index]? with
      | some name => if actual = type then .ok name else .error (.typeMismatch type.name)
      | none => .error (.typeMismatch type.name)
  | _ => .error (.typeMismatch type.name)

/-- The member with a name, if there is one. -/
def fromName (type : Ty) (names : List String) (name : String) : Option Value :=
  (names.idxOf? name).map (.member type)

/-- Writes the name of a member. -/
def write (type : Ty) (names : List String) (value : Value) : Buffer.Op Unit :=
  match nameOf type names value with
  | .ok name => Buffer.writeString name
  | .error error => Buffer.fail error

/-- Reads a name and finds its member. -/
def read (type : Ty) (names : List String) : Buffer.Op Value := do
  let name ← Buffer.readString
  match fromName type names name with
  | some value => return value
  | none => Buffer.fail (.invalidEnumValue type.name name)

end Wireform.Enumeration
