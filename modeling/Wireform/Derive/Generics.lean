import Wireform.Derive.Tree

/-!
# Generic parameters

The parameters of a declaration and the conditions on them. A parameter has three
forms: as it is declared, as it is introduced elsewhere, where what it is by default
is left out, and as it is used.
-/

namespace Wireform.Derive

/-- A generic parameter. The attributes of a parameter are copied with it. -/
inductive GenericParameter
  | lifetime (code : Code)
  /-- `preset` is what the type is by default, with the sign before it. -/
  | type (attributes : Code) (name : String) (bounds preset : Code)
  | const (attributes : Code) (name : String) (type preset : Code)
deriving DecidableEq, Repr

/-- The generic parameters of a declaration and the conditions on them. -/
structure Generics where
  parameters : List GenericParameter := []
  /-- Whether a comma follows the last parameter. -/
  trailingComma : Bool := false
  conditions : Code := []
deriving DecidableEq, Repr

namespace GenericParameter

/-- Whether a parameter is a lifetime. -/
def isLifetime : GenericParameter → Bool
  | .lifetime _ => true
  | _ => false

/-- The parameter as it is introduced. -/
def introduction : GenericParameter → Code
  | .lifetime code => code
  | .type attributes name bounds _ =>
      attributes ++ name :: (if bounds.isEmpty then [] else ":" :: bounds)
  | .const attributes name kind _ => attributes ++ "const" :: name :: ":" :: kind

/-- The parameter as it is declared. -/
def declaration (parameter : GenericParameter) : Code :=
  parameter.introduction ++
    match parameter with
    | .lifetime _ => []
    | .type _ _ _ preset => preset
    | .const _ _ _ preset => preset

/-- The parameter as it is used. -/
def use : GenericParameter → Code
  | .lifetime code => code
  | .type _ name _ _ => [name]
  | .const _ name _ _ => [name]

end GenericParameter

/-- The conditions with their keyword, or nothing if there are none. -/
def Generics.restriction (generics : Generics) : Code :=
  if generics.conditions.isEmpty then [] else "where" :: generics.conditions

end Wireform.Derive
