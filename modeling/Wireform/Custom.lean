import Wireform.Buffer
import Wireform.Value

/-!
# Types that write and read themselves

A custom format is a pair of buffer operations that a type brings along. Nothing
is assumed about them; in particular reading need not undo writing.
-/

namespace Wireform

/-- How values of a custom type are written and read. -/
structure Custom where
  write : Value → Buffer.Op Unit
  read : Buffer.Op Value

namespace Custom

/-- Writes a value of the custom type; a value of any other type is refused. -/
def writeValue (type : Ty) (custom : Custom) (value : Value) : Buffer.Op Unit :=
  if value.type = type then custom.write value else Buffer.fail (.typeMismatch type.name)

end Custom

end Wireform
