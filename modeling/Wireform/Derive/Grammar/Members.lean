import Wireform.Derive.Grammar.Functions

/-!
# Members of traits, implementations and foreign blocks

Functions, constants and types that belong to something. A member is told by the
keyword that it starts with and may be a call of a generator of code instead. What
does not fit where it stands is copied.
-/

namespace Wireform.Derive.Grammar

open Wireform.Derive.Parser

/-- What a call of a generator of code can start with, where other things can stand. -/
def generatorStarts : List String := ["identifier", "`self`", "`super`", "`crate`", "`::`"]

/-- Whether a call of a generator of code can start here. -/
def startsGenerator (here : Cursor) : Bool :=
  here.hasName || here.hasWordOf ["self", "super", "crate"] || here.hasMark "::"

/-- A call of a generator of code in place of a member. A semicolon has to follow
    unless its brackets are curly. -/
def generatedMember : Parser Code := do
  let path ← Path.parse
  let bang ← mark "!"
  let isCurly ← sees (·.hasGroup .curly)
  let content ← anyGroup
  return path.code ++ bang ++ content ++ (← if isCurly then pure [] else mark ";")

/-- A value, after its sign. -/
def assigned (rules : Rules) : Parser Code := do
  let sign ← mark "="
  return sign ++ (← rules.expression true).code

/-- A type that belongs to something. -/
structure TypeMember where
  name : String
  generics : Generics
  hasColon : Bool
  bounds : Code
  /-- The type that the name stands for, with its sign. -/
  value : Code

namespace TypeMember

/-- Whether there are generic parameters or conditions. -/
def isGeneric (member : TypeMember) : Bool :=
  !member.generics.parameters.isEmpty || !member.generics.conditions.isEmpty

/-- The member as code. -/
def code (member : TypeMember) : Code :=
  "type" :: member.name :: declared member.generics ++
    (if member.bounds.isEmpty then [] else ":" :: member.bounds) ++
    member.generics.restriction ++ member.value ++ [";"]

end TypeMember

/-- A type that belongs to something, from its keyword on. Conditions can come after
    the value if they may be late. -/
def typeMember (rules : Rules) (late : Bool) : Parser TypeMember := do
  let _ ← word "type"
  let label ← name
  let generics ← generics rules
  let colon ← markIf ":"
  let stop (here : Cursor) := here.hasWord "where" || here.hasMark "=" || here.hasMark ";"
  let bounds ←
    if colon.isEmpty then pure []
    else pure (joined "+" (← listed stop "+" do return (← rules.bound).code))
  let hasEarly ← sees (·.hasWord "where")
  let early ← conditionsIf rules
  let value ←
    if ← sees (·.hasMark "=") then
      let sign ← mark "="
      pure (sign ++ (← rules.type true).code)
    else pure []
  let conditions ← if late && !hasEarly then conditionsIf rules else pure early
  let _ ← mark ";"
  return ⟨label, { generics with conditions := conditions }, !colon.isEmpty, bounds, value⟩

/-- The name and the type of a constant, from its keyword on. -/
def constantHead (rules : Rules) : Parser Code := do
  let keyword ← word "const"
  let label ← nameOrBlank
  let colon ← mark ":"
  return keyword ++ label :: colon ++ (← rules.type true).code

/-- A member of a trait. Visibility and presets have it copied. -/
def traitMember (rules : Rules) : Parser Code := do
  let start ← get
  let attributes ← outerAttributes
  let seen ← visibility
  let preset ← wordIf "default"
  let here ← get
  let code ←
    if startsSignature here then
      let head ← signature rules
      let here ← get
      if here.hasGroup .curly then pure (head ++ (← body rules))
      else if here.hasMark ";" then pure (head ++ (← mark ";"))
      else refuseAll ["curly braces", "`;`"]
    else if here.hasWord "const" then
      let after := here.next
      if after.hasName || after.hasWord "_" then
        let head ← constantHead rules
        let value ← if ← sees (·.hasMark "=") then assigned rules else pure []
        pure (head ++ value ++ (← mark ";"))
      else
        let _ ← word "const"
        refuseAll ["identifier", "`_`", "`async`", "`unsafe`", "`extern`", "`fn`"]
    else if here.hasWord "type" then
      let member ← typeMember rules true
      pure member.code
    else if startsGenerator here then generatedMember
    else refuseAll (["`fn`", "`const`", "`type`"] ++ generatorStarts)
  if seen.isEmpty && preset.isEmpty then return attributes ++ code
  else return between start (← get)

/-- A member of an implementation. A constant or a type without a value has it
    copied. -/
def implementationMember (rules : Rules) : Parser Code := do
  let start ← get
  let attributes ← outerAttributes
  let seen ← visibility
  let here ← get
  let preset ←
    if here.hasWord "default" && !here.next.hasMark "!" then word "default" else pure []
  let lead := attributes ++ seen ++ preset
  let here ← get
  if startsSignature here then
    let head ← signature rules
    if ← sees (·.hasMark ";") then return lead ++ head ++ (← mark ";")
    else return lead ++ head ++ (← body rules)
  else if here.hasWord "const" then
    let head ← constantHead rules
    if ← sees (·.hasMark "=") then
      let value ← assigned rules
      return lead ++ head ++ value ++ (← mark ";")
    else
      let _ ← mark ";"
      return between start (← get)
  else if here.hasWord "type" then
    let member ← typeMember rules true
    let stop ← get
    return if member.hasColon || member.value.isEmpty then between start stop
      else lead ++ member.code
  else if seen.isEmpty && preset.isEmpty && startsGenerator here then
    return attributes ++ (← generatedMember)
  else
    refuseAll (["`fn`", "`const`", "`type`"] ++
      if seen.isEmpty && preset.isEmpty then generatorStarts else [])

/-- A member of a foreign block. What has a body or a value there is copied. -/
def foreignMember (rules : Rules) : Parser Code := do
  let start ← get
  let attributes ← outerAttributes
  let seen ← visibility
  let lead := attributes ++ seen
  let here ← get
  if startsSignature here then
    let head ← signature rules
    if ← sees (·.hasGroup .curly) then
      let _ ← body rules
      return between start (← get)
    else return lead ++ head ++ (← mark ";")
  else if here.hasWord "static" then
    let keyword ← word "static"
    let mutability ← wordIf "mut"
    let label ← name
    let colon ← mark ":"
    let type ← rules.type true
    let hasValue ← sees (·.hasMark "=")
    let _ ← if hasValue then assigned rules else pure []
    let semicolon ← mark ";"
    let stop ← get
    return if hasValue then between start stop
      else lead ++ keyword ++ mutability ++ label :: colon ++ type.code ++ semicolon
  else if here.hasWord "type" then
    let member ← typeMember rules true
    let stop ← get
    return if member.isGeneric || member.hasColon || !member.value.isEmpty then between start stop
      else lead ++ member.code
  else if seen.isEmpty && startsGenerator here then return attributes ++ (← generatedMember)
  else
    refuseAll (["`fn`", "`static`", "`type`"] ++ if seen.isEmpty then generatorStarts else [])

end Wireform.Derive.Grammar
