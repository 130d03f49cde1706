import Wireform.Derive.Grammar.Parameters

/-!
# Structures, enumerations and unions

What the declaration of a type holds, kept in parts, because a description is made
from the parts and a declaration inside other code is only written again. The
visibility of a member and its number say nothing about the member itself.
-/

namespace Wireform.Derive.Grammar

open Wireform.Derive.Parser

/-- A field. Without a name it goes by its position. -/
structure FieldCode where
  attributes : List AttributeCode
  visibility : Code
  name : Option String
  type : Code

/-- Fields in the brackets that tell whether they have names. -/
structure FieldsCode where
  delimiter : Delimiter
  fields : List (Listed FieldCode)

/-- A member of an enumeration. -/
structure MemberCode where
  attributes : List AttributeCode
  name : String
  fields : Option FieldsCode
  /-- The number of the member, with its sign. -/
  number : Code

/-- What a declaration of a type declares. -/
inductive DataCode
  | structure (fields : Option FieldsCode)
  | enumeration (members : List (Listed MemberCode))
  | union (fields : FieldsCode)

/-- Attributes as code. -/
def attributesCode (attributes : List AttributeCode) : Code := attributes.flatMap (·.code)

/-- A field as code. -/
def FieldCode.code (field : FieldCode) : Code :=
  attributesCode field.attributes ++ field.visibility ++
    (match field.name with
      | some name => [name, ":"]
      | none => []) ++
    field.type

/-- Fields as code. -/
def FieldsCode.code (fields : FieldsCode) : Code :=
  enclosed fields.delimiter (joined "," (fields.fields.map fun entry => (entry.1.code, entry.2)))

/-- A member as code. -/
def MemberCode.code (member : MemberCode) : Code :=
  attributesCode member.attributes ++ member.name ::
    (member.fields.map FieldsCode.code).getD [] ++ member.number

/-- What is declared as code, after its keyword and its name. -/
def DataCode.code (generics : Generics) : DataCode → Code
  | .structure none => declared generics ++ generics.restriction ++ [";"]
  | .structure (some fields) =>
      if fields.delimiter = .round then
        declared generics ++ fields.code ++ generics.restriction ++ [";"]
      else declared generics ++ generics.restriction ++ fields.code
  | .enumeration members =>
      declared generics ++ generics.restriction ++
        enclosed .curly (joined "," (members.map fun entry => (entry.1.code, entry.2)))
  | .union fields => declared generics ++ generics.restriction ++ fields.code

mutual

/-- A field with a name. A blank can stand for the name, and then the type can be
    declared in place. -/
def namedField (rules : Rules) : (fuel : Nat) → Parser FieldCode
  | 0 => refuseAll []
  | fuel + 1 => do
      let attributes ← AttributeCode.parseOuter
      let seen ← visibility
      let isBlank ← sees (·.hasWord "_")
      let label ← if isBlank then anyWord else name
      let _ ← mark ":"
      let here ← get
      let isDeclared := here.hasWord "struct" || (here.hasWord "union" && here.next.hasGroup .curly)
      let type ←
        if isBlank && isDeclared then copied do
          let _ ← anyWord
          namedFields rules fuel
        else pure (← rules.type true).code
      return ⟨attributes, seen, some label, type⟩

/-- Fields with names. -/
def namedFields (rules : Rules) : (fuel : Nat) → Parser FieldsCode
  | 0 => refuseAll []
  | fuel + 1 => do
      return ⟨.curly, ← within .curly (listed Cursor.atEnd "," (namedField rules fuel))⟩

end

/-- A field without a name. -/
def unnamedField (rules : Rules) : Parser FieldCode := do
  let attributes ← AttributeCode.parseOuter
  let seen ← visibility
  return ⟨attributes, seen, none, (← rules.type true).code⟩

/-- Fields with or without names, as their brackets tell. Each field declared in place
    takes two steps and more tokens. -/
def fields (rules : Rules) (delimiter : Delimiter) : Parser FieldsCode := do
  if delimiter = .curly then
    namedFields rules (2 * (Tree.codes (← get).rest).length + 2)
  else return ⟨.round, ← within .round (listed Cursor.atEnd "," (unnamedField rules))⟩

/-- A member of an enumeration. -/
def enumerationMember (rules : Rules) : Parser MemberCode := do
  let attributes ← AttributeCode.parseOuter
  let _ ← visibility
  let label ← name
  let here ← get
  let fields ←
    if here.hasGroup .curly then pure (some (← fields rules .curly))
    else if here.hasGroup .round then pure (some (← fields rules .round))
    else pure none
  let number ←
    if ← sees (·.hasMark "=") then
      let sign ← mark "="
      pure (sign ++ (← rules.expression true).code)
    else pure []
  return ⟨attributes, label, fields, number⟩

/-- The fields of a structure, and the conditions before or after them. Only fields
    without names can have the conditions after them. -/
def structureFields (rules : Rules) : Parser (Option FieldsCode × Code) := do
  let here ← get
  let leading ← conditionsIf rules
  let isLeading := here.hasWord "where"
  let place ← get
  if !isLeading && place.hasGroup .round then
    let fields ← fields rules .round
    let here ← get
    let trailing ← conditionsIf rules
    if ← sees (·.hasMark ";") then
      let _ ← mark ";"
      return (some fields, trailing)
    else refuseAll (if here.hasWord "where" then ["`;`"] else ["`where`", "`;`"])
  else if place.hasGroup .curly then return (some (← fields rules .curly), leading)
  else if place.hasMark ";" then
    let _ ← mark ";"
    return (none, leading)
  else
    refuseAll (if isLeading then ["curly braces", "`;`"]
      else ["`where`", "parentheses", "curly braces", "`;`"])

/-- The keywords that declare types of one's own. -/
def dataKeywords : List String := ["struct", "enum", "union"]

/-- The declaration of a type, from its keyword on. -/
def data (rules : Rules) : Parser (String × Generics × DataCode) := do
  if !(← sees (·.hasWordOf dataKeywords)) then refuseAll (dataKeywords.map cited)
  let keyword ← anyWord
  let label ← name
  let generics ← generics rules
  if keyword = "struct" then
    let (fields, conditions) ← structureFields rules
    return (label, { generics with conditions := conditions }, .structure fields)
  else
    let conditions ← conditionsIf rules
    let generics := { generics with conditions := conditions }
    if keyword = "enum" then
      let members ← within .curly (listed Cursor.atEnd "," (enumerationMember rules))
      return (label, generics, .enumeration members)
    else return (label, generics, .union (← fields rules .curly))

end Wireform.Derive.Grammar
