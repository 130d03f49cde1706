import Wireform.Derive.Generics
import Wireform.Derive.Grammar.Bounds

/-!
# Reading generic parameters

Parameters stand in angle brackets behind the name of what is declared, conditions on
them further on. A bound on constant evaluation is taken only if it is copied with all
that follows it, so such a parameter has no bounds elsewhere.
-/

namespace Wireform.Derive.Grammar

open Wireform.Derive.Parser

/-- A constant as an argument. -/
def constantArgument (rules : Rules) : Parser Code := do
  let here ← get
  if here.hasLiteral then literal
  else if here.hasName then return [← name]
  else if here.hasGroup .curly then body rules
  else refuseAll []

/-- A type as a parameter, without its attributes. -/
def typeParameter (rules : Rules) (attributes : Code) : Parser GenericParameter := do
  let parameter ← name
  let colon ← markIf ":"
  let start ← get
  let stop (here : Cursor) := here.hasMark "," || here.hasMark ">" || here.hasMark "="
  let bounds ←
    if colon.isEmpty then pure []
    else chained stop "+" do
      let isConstant ← sees startsTilde
      if isConstant then
        let _ ← mark "~"
        let _ ← word "const"
      return (isConstant, (← rules.bound).code)
  let preset ←
    if ← sees (·.hasMark "=") then
      let sign ← mark "="
      pure (sign ++ (← rules.type true).code)
    else pure []
  if bounds.any fun entry => entry.1.1 then
    return .type attributes parameter [] (colon ++ between start (← get))
  let code := joined "+" (bounds.map fun entry => (entry.1.2, entry.2))
  return .type attributes parameter code preset

/-- A constant as a parameter, without its attributes. -/
def constantParameter (rules : Rules) (attributes : Code) : Parser GenericParameter := do
  let _ ← word "const"
  let parameter ← name
  let _ ← mark ":"
  let kind ← rules.type true
  let preset ←
    if ← sees (·.hasMark "=") then
      let sign ← mark "="
      pure (sign ++ (← constantArgument rules))
    else pure []
  return .const attributes parameter kind.code preset

/-- A generic parameter. -/
def genericParameter (rules : Rules) : Parser GenericParameter := do
  let attributes ← outerAttributes
  let here ← get
  if here.hasLifetime then return .lifetime (attributes ++ (← lifetimeParameter))
  else if here.hasName then typeParameter rules attributes
  else if here.hasWord "const" then constantParameter rules attributes
  else if here.hasWord "_" then return .type attributes (← anyWord) [] []
  else refuseAll ["lifetime", "identifier", "`const`"]

/-- The generic parameters of a declaration, if it has any. The conditions on them
    come later. -/
def generics (rules : Rules) : Parser Generics := do
  if ← sees (·.hasMark "<") then
    let _ ← mark "<"
    let parameters ← listed (·.hasMark ">") "," (genericParameter rules)
    let _ ← mark ">"
    return {
      parameters := parameters.map Prod.fst
      trailingComma := parameters.getLast?.any Prod.snd }
  else return {}

/-- Generic parameters as they are declared, lifetimes first. -/
def declared (generics : Generics) : Code :=
  let count := generics.parameters.length
  let parts := generics.parameters.mapIdx fun index parameter =>
    ((parameter.isLifetime, parameter.declaration), index + 1 < count || generics.trailingComma)
  if parts.isEmpty then [] else "<" :: lifetimesFirst parts ++ [">"]

/-- Whether conditions, or the bounds in one of them, stop here. -/
def stopsConditions (here : Cursor) : Bool :=
  here.atEnd || here.hasGroup .curly || here.hasMark "," || here.hasMark ";"
    || here.hasMarkNot ":" "::" || here.hasMark "="

/-- A condition: a lifetime or a type, and its bounds. -/
def condition (rules : Rules) : Parser Code := do
  let here ← get
  if here.hasLifetime && here.next.hasMark ":" then
    let start ← lifetime
    let colon ← mark ":"
    let stop (here : Cursor) := stopsConditions here || here.hasMark ":"
    return start ++ colon ++ joined "+" (← chained stop "+" lifetime)
  else
    let lifetimes ← boundLifetimesIf
    let type ← rules.type true
    let colon ← mark ":"
    return lifetimes ++ type.code ++ colon ++ (← boundsUntil rules stopsConditions)

/-- The conditions on generic parameters, without their keyword, if there are any. -/
def conditionsIf (rules : Rules) : Parser Code := do
  if ← sees (·.hasWord "where") then
    let _ ← word "where"
    return joined "," (← chained stopsConditions "," (condition rules))
  else return []

end Wireform.Derive.Grammar
