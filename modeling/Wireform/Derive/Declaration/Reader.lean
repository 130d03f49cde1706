import Wireform.Derive.Declaration
import Wireform.Derive.Grammar

/-!
# Reading declarations

A declaration is read by the grammar and reduced to what descriptions depend on. What
is wrong with the list of an attribute is kept for later, with the words that say so.
-/

namespace Wireform.Derive

open Wireform.Derive.Parser

/-- Reads the value of an item. -/
def Literal.parse : Parser Literal := do
  match ← literal with
  | [spelling] => return .ofSpelling spelling
  | _ => return .other

/-- Whether a truth value is given something, which makes it a name. -/
def namesTruth (here : Cursor) : Bool :=
  here.hasWordOf ["true", "false"] && here.next.hasMark "="

/-- Reads an entry of an attribute's list. Every word can be a name there. A list within
    an entry is read only to find what is wrong with it. -/
def Entry.parse : (fuel : Nat) → Parser Entry
  | 0 => refuse "expected identifier or literal"
  | fuel + 1 => do
      let here ← get
      if here.hasLiteral && !namesTruth here then
        let _ ← Literal.parse
        return .literal
      else if here.hasAnyWord || (here.hasMark "::" && here.next.next.hasAnyWord) then
        let path ← Path.parseWith Cursor.hasAnyWord
        let here ← get
        if here.hasGroup .round then
          let _ ← within .round (listed Cursor.atEnd "," (parse fuel))
          return .item (.list path)
        else if here.hasMark "=" then
          let _ ← mark "="
          return .item (.value path (← Literal.parse))
        else return .item (.flag path)
      else refuse "expected identifier or literal"

/-- Reads what follows the name of an attribute. Lists are at most as deep as there are
    tokens. -/
def Form.parse : Parser Form := do
  let here ← get
  if here.hasGroup .round then
    let depth := (Tree.codes here.rest).length
    let entries ← within .round (listed Cursor.atEnd "," (Entry.parse depth))
    return .list (entries.map Prod.fst)
  else if here.hasMark "=" then
    let _ ← mark "="
    let _ ← Literal.parse
    return .noList
  else return .noList

/-- What follows the name of an attribute. -/
def Form.read (trees : List Tree) : Form :=
  match complete parse trees with
  | .ok form => form
  | .error fault => .unreadable fault

/-- An attribute as far as descriptions depend on it. -/
def Attribute.ofCode (written : AttributeCode) : Attribute :=
  if written.path.is "reflect" then .reflect (Form.read written.rest) else .other

/-- A field as far as descriptions depend on it. -/
def FieldDeclaration.ofCode (field : Grammar.FieldCode) : FieldDeclaration :=
  ⟨field.attributes.map Attribute.ofCode, field.name, field.type⟩

/-- A member as far as descriptions depend on it. -/
def MemberDeclaration.ofCode (member : Grammar.MemberCode) : MemberDeclaration :=
  ⟨member.attributes.map Attribute.ofCode, member.name, member.fields.isSome⟩

/-- What is declared, as far as descriptions depend on it. -/
def Body.ofCode : Grammar.DataCode → Body
  | .structure none => .aggregate []
  | .structure (some fields) =>
      .aggregate (fields.fields.map fun entry => FieldDeclaration.ofCode entry.1)
  | .enumeration members => .enumeration (members.map fun entry => MemberDeclaration.ofCode entry.1)
  | .union _ => .union

/-- A declaration as it is written, as far as it is looked into. -/
structure DeclarationCode where
  attributes : List AttributeCode
  name : String
  generics : Generics
  content : Grammar.DataCode

/-- A declaration as far as descriptions depend on it. -/
def Declaration.ofCode (written : DeclarationCode) : Declaration :=
  ⟨written.attributes.map Attribute.ofCode, written.name, written.generics,
    Body.ofCode written.content⟩

/-- Reads a declaration as it is written. -/
def DeclarationCode.parse (rules : Grammar.Rules) : Parser DeclarationCode := do
  let attributes ← AttributeCode.parseOuter
  let _ ← visibility
  let (name, generics, content) ← Grammar.data rules
  return ⟨attributes, name, generics, content⟩

/-- Reads a declaration. -/
def Declaration.parse (rules : Grammar.Rules) : Parser Declaration := do
  return .ofCode (← DeclarationCode.parse rules)

/-- The declaration in a list of trees. -/
def Declaration.readTrees (trees : List Tree) : Reading Declaration :=
  complete (parse (Grammar.rulesFor trees)) trees

/-- The declaration that a text holds. -/
def Declaration.read (text : String) : Reading Declaration := completeText readTrees text

end Wireform.Derive
