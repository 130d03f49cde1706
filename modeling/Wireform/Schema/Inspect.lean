import Wireform.Schema
import Wireform.Text.Quoted

/-!
# Descriptions shown for inspection

What a description looks like in a report that is meant for a reader: the
qualified name of the type, quoted, and the label of its kind.
-/

namespace Wireform.Schema

/-- The name and the kind of a type. -/
def inspect (schema : Schema) (type : Ty) : String :=
  "TypeInfo \x7b name: " ++ Text.Quoted.quote type.name
    ++ ", kind: " ++ Text.Quoted.quote (schema.kind type).label ++ " \x7d"

end Wireform.Schema
