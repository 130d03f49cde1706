import Wireform.Derive.Generics
import Wireform.Derive.Literal
import Wireform.Derive.Path

/-!
# Declarations

A declaration as far as descriptions depend on it: its attributes, its generic
parameters, and its fields or members. Types, bounds and conditions are kept as
the code they were written in. Of the attributes only those named `reflect` are
looked into, and what cannot be read of them is kept as a fault, so that it is
reported when the attribute is asked for and not before.
-/

namespace Wireform.Derive

/-- An item of an attribute. -/
inductive Item
  | flag (path : Path)
  | value (path : Path) (literal : Literal)
  | list (path : Path)
deriving DecidableEq, Repr

/-- What stands in the list of an attribute. -/
inductive Entry
  | literal
  | item (item : Item)
deriving DecidableEq, Repr

/-- What follows the name of an attribute. -/
inductive Form
  | list (entries : List Entry)
  /-- Nothing, or a single value. -/
  | noList
  | unreadable (fault : Fault)
deriving DecidableEq, Repr

/-- An attribute. Only those named `reflect` concern descriptions. -/
inductive Attribute
  | reflect (form : Form)
  | other
deriving DecidableEq, Repr

/-- A field of an aggregate. Without a name it goes by its position. -/
structure FieldDeclaration where
  attributes : List Attribute
  name : Option String
  type : Code
deriving DecidableEq, Repr

/-- A member of an enumeration. -/
structure MemberDeclaration where
  attributes : List Attribute
  name : String
  hasFields : Bool
deriving DecidableEq, Repr

/-- What a declaration declares. -/
inductive Body
  | aggregate (fields : List FieldDeclaration)
  | enumeration (members : List MemberDeclaration)
  | union
deriving DecidableEq, Repr

/-- A declaration of a type. -/
structure Declaration where
  attributes : List Attribute := []
  name : String
  generics : Generics := {}
  body : Body
deriving DecidableEq, Repr

end Wireform.Derive
