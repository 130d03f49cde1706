import Wireform.Derive.Options

/-!
# Expansions

What is generated for a declaration, before it is written out. An aggregate gets a
builder: one registration for each field that travels and, unless it is left out,
a constructor that gives every field a value, an argument to those that travel and
its default to the others. An enumeration gets a table of names that serves both
directions, so names must be distinct.

`derive` decides in a fixed order, which is the order in which faults are
reported.
-/

namespace Wireform.Derive

/-- How a field is reached. -/
inductive Access
  | name (name : String)
  | position (index : Nat)
deriving DecidableEq, Repr

/-- The text under which a field is registered. -/
def Access.label : Access → TextLiteral
  | .name given => .ofText given
  | .position index => .ofText (toString index)

/-- A field of an aggregate with what is asked for it. -/
structure PreparedField where
  access : Access
  type : Code
  options : FieldOptions
deriving DecidableEq, Repr

/-- A field that travels. -/
structure Registration where
  access : Access
  type : Code
  markers : List FieldMarker
deriving DecidableEq, Repr

/-- Where the constructor takes a field's value from. -/
inductive Source
  | argument
  | default
deriving DecidableEq, Repr

/-- A field's value in the constructor. -/
structure Initializer where
  access : Access
  source : Source
deriving DecidableEq, Repr

/-- The description of an aggregate as it is built up. -/
structure Builder where
  registrations : List Registration
  /-- The initializers of the constructor, if there is one. -/
  constructor : Option (List Initializer)
  hasDefault : Bool
deriving DecidableEq, Repr

/-- How a type is described. -/
inductive Description
  | custom
  | aggregate (builder : Builder)
deriving DecidableEq, Repr

/-- A member of an enumeration and its name on the wire. -/
structure NamedMember where
  member : String
  name : TextLiteral
deriving DecidableEq, Repr

/-- What is generated for a declaration. -/
inductive Expansion
  | described (type : String) (generics : Generics) (description : Description)
  | enumerated (type : String) (members : List NamedMember)
deriving DecidableEq, Repr

/-- The path of the trait that described types have. -/
def reflectPath : Code := [":", ":", "packetwire_codec", ":", ":", "Reflect"]

/-- Bounds with the trait of described types added. -/
def withReflect (bounds : Code) : Code :=
  if bounds.isEmpty || bounds.getLast? = some "+" then bounds ++ reflectPath
  else bounds ++ "+" :: reflectPath

namespace GenericParameter

/-- A parameter that must be described if it is a type. -/
def bounded : GenericParameter → GenericParameter
  | .type attributes name bounds preset => .type attributes name (withReflect bounds) preset
  | parameter => parameter

end GenericParameter

/-- Generic parameters of which the types must be described. -/
def Generics.bounded (generics : Generics) : Generics :=
  { generics with parameters := generics.parameters.map GenericParameter.bounded }

/-- The fields with what is asked for them, positions counted from `index`. -/
def prepare : (index : Nat) → List FieldDeclaration → Reading (List PreparedField)
  | _, [] => .ok []
  | index, field :: rest => do
      let options ← FieldOptions.of field.attributes
      let access := match field.name with
        | some name => Access.name name
        | none => Access.position index
      let others ← prepare (index + 1) rest
      return ⟨access, field.type, options⟩ :: others

namespace PreparedField

/-- The registration of a field, unless it is skipped. -/
def registration? (field : PreparedField) : Option Registration :=
  if field.options.skipped then none
  else some ⟨field.access, field.type, field.options.markers⟩

/-- A field's value in the constructor. -/
def initializer (field : PreparedField) : Initializer :=
  ⟨field.access, if field.options.skipped then .default else .argument⟩

end PreparedField

/-- The builder of an aggregate. -/
def aggregate (options : TypeOptions) (fields : List FieldDeclaration) : Reading Builder := do
  if options.skipsConstructor && !options.hasDefault then throw .noConstructor
  let fields ← prepare 0 fields
  return {
    registrations := fields.filterMap PreparedField.registration?
    constructor :=
      if options.skipsConstructor then none else some (fields.map PreparedField.initializer)
    hasDefault := options.hasDefault }

/-- The members of an enumeration with their names, after those named so far. -/
def nameMembers : (named : List NamedMember) → List MemberDeclaration →
    Reading (List NamedMember)
  | named, [] => .ok named
  | named, member :: rest => do
      if member.hasFields then throw .memberWithFields
      let options ← MemberOptions.of member.attributes
      let name := options.rename.getD (.ofText member.name)
      if named.any fun earlier => earlier.name.value = name.value then throw .duplicateName
      nameMembers (named ++ [⟨member.name, name⟩]) rest

/-- The expansion of an enumeration. -/
def enumeration (type : String) (generics : Generics) (members : List MemberDeclaration) :
    Reading Expansion := do
  unless generics.parameters.isEmpty do throw .genericEnumeration
  if members.isEmpty then throw .noMembers
  return .enumerated type (← nameMembers [] members)

/-- What is generated for a declaration. -/
def derive (declaration : Declaration) : Reading Expansion := do
  let options ← TypeOptions.of declaration.attributes
  if declaration.generics.parameters.any GenericParameter.isLifetime then
    throw .lifetimeParameters
  if options.isCustom then
    return .described declaration.name declaration.generics.bounded .custom
  match declaration.body with
  | .aggregate fields =>
      let builder ← aggregate options fields
      return .described declaration.name declaration.generics.bounded (.aggregate builder)
  | .enumeration members => enumeration declaration.name declaration.generics members
  | .union => throw .union

end Wireform.Derive
