import Wireform.Derive.Expansion

/-!
# Generated code

An expansion written out, token by token. Every punctuation mark is a token of its
own, and commas stand between the parts of a list, with one after the last part
only where the generated form always has it.
-/

namespace Wireform.Derive

namespace Code

/-- A path from the root. -/
def path (names : List String) : Code := names.flatMap fun name => [":", ":", name]

/-- Code in round brackets. -/
def round (code : Code) : Code := "(" :: code ++ [")"]

/-- Code in curly brackets. -/
def curly (code : Code) : Code := "\x7b" :: code ++ ["\x7d"]

/-- Code in angle brackets. -/
def angle (code : Code) : Code := "<" :: code ++ [">"]

/-- Parts with a comma between any two. -/
def separated (parts : List Code) : Code := List.flatten (parts.intersperse [","])

/-- Parts with a comma after each. -/
def terminated (parts : List Code) : Code := parts.flatMap fun part => part ++ [","]

/-- A path of the library that descriptions are made for. -/
def library (names : List String) : Code := path ("packetwire_codec" :: names)

/-- A path of the core library. -/
def core (names : List String) : Code := path ("core" :: names)

/-- A call of a method. -/
def method (name : String) (arguments : Code) : Code := "." :: name :: round arguments

/-- A function without arguments. -/
def function (name : String) (parameters result body : Code) : Code :=
  "fn" :: name :: round parameters ++ ["-", ">"] ++ result ++ curly body

end Code

open Code

/-- Parameters in angle brackets, or nothing if there are none. -/
def Generics.list (generics : Generics) (form : GenericParameter → Code) : Code :=
  if generics.parameters.isEmpty then []
  else
    angle (separated (generics.parameters.map form) ++
      if generics.trailingComma then [","] else [])

/-- How a field is reached in code. -/
def Access.code : Access → Code
  | .name given => [given]
  | .position index => [toString index]

/-- A marker as an expression. -/
def FieldMarker.code : FieldMarker → Code
  | .nullable => library ["Marker", "Nullable"]
  | .tag label => library ["Marker", "Tag"] ++ round [label.spelling]
  | .streamable type =>
      library ["Marker", "Streamable"] ++
        round (angle (type ++ "as" :: reflectPath) ++ path ["type_info"])

/-- The registration of a field: how to read it, how to replace it, and its markers. -/
def Registration.code (field : Registration) : Code :=
  [".", "field"] ++ [":", ":"] ++ angle field.type ++
    round (separated
      [[field.access.label.spelling],
        ["|", "v", "|", "&", "v", "."] ++ field.access.code,
        ["|", "v", ",", "x", "|", "v", "."] ++ field.access.code ++ ["=", "x"]]) ++
    field.markers.flatMap fun marker => method "marker" marker.code

/-- A field's value in the constructor. -/
def Initializer.code (initializer : Initializer) : Code :=
  initializer.access.code ++ ":" ::
    match initializer.source with
    | .argument => "args" :: method "take" [] ++ ["?"]
    | .default => core ["default", "Default", "default"] ++ round []

/-- The constructor. Its argument goes unnamed if no field takes anything from it. -/
def constructorCode (takesArguments : Bool) (initializers : List Initializer) : Code :=
  method "constructor"
    (["|", if takesArguments then "args" else "_", "|"] ++ core ["result", "Result", "Ok"] ++
      round ("Self" :: curly (separated (initializers.map Initializer.code))))

/-- The description of an aggregate as an expression. -/
def Builder.code (builder : Builder) : Code :=
  library ["AggregateInfo", "builder"] ++ [":", ":"] ++ angle ["Self"] ++ round [] ++
    builder.registrations.flatMap Registration.code ++
    (match builder.constructor with
      | some initializers => constructorCode (!builder.registrations.isEmpty) initializers
      | none => []) ++
    (if builder.hasDefault then
      method "default_constructor"
        (angle (["Self", "as"] ++ core ["default", "Default"]) ++ path ["default"])
    else []) ++
    method "build" []

/-- A description as an expression. -/
def Description.code : Description → Code
  | .custom => library ["TypeInfo", "custom"] ++ [":", ":"] ++ angle ["Self"] ++ round []
  | .aggregate builder => builder.code

/-- The implementation that yields a description. -/
def describing (introduced : Code) (type : Code) (description : Code) : Code :=
  "impl" :: introduced ++ reflectPath ++ "for" :: type ++
    curly (function "type_info" [] (library ["TypeInfo"]) description)

/-- The function from members to names. -/
def nameFunction (members : List NamedMember) : Code :=
  function "name" ["&", "self"] ["&", "'", "static", "str"]
    ("match" :: "self" :: curly (terminated (members.map fun named =>
      "Self" :: path [named.member] ++ ["=", ">", named.name.spelling])))

/-- The function from names to members. -/
def fromNameFunction (members : List NamedMember) : Code :=
  function "from_name" ["name", ":", "&", "str"] (core ["option", "Option"] ++ angle ["Self"])
    ("match" :: "name" :: curly (terminated (
      (members.map fun named =>
        [named.name.spelling, "=", ">"] ++ core ["option", "Option", "Some"] ++
          round ("Self" :: path [named.member])) ++
      [["_", "=", ">"] ++ core ["option", "Option", "None"]])))

/-- An expansion as code. -/
def Expansion.code : Expansion → Code
  | .described type generics description =>
      describing (generics.list GenericParameter.introduction)
        (type :: generics.list GenericParameter.use ++ generics.restriction) description.code
  | .enumerated type members =>
      "impl" :: library ["WireEnum"] ++ "for" :: type ::
          curly (nameFunction members ++ fromNameFunction members) ++
        describing [] [type]
          (library ["TypeInfo", "enumeration"] ++ [":", ":"] ++ angle ["Self"] ++ round [])

/-- What is generated for a declaration in a text, with a blank between tokens. -/
def expand (text : String) : Reading String := do
  let declaration ← Declaration.read text
  let expansion ← derive declaration
  return " ".intercalate expansion.code

end Wireform.Derive
