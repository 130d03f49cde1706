import Wireform.Derive.Grammar.Atoms
import Wireform.Derive.Grammar.Items

/-!
# Statements

A block holds items, bindings and expressions. A semicolon ends an expression unless
it ends by itself or nothing comes after it; further semicolons mean nothing and are
kept. Attributes in front of an expression belong to its first operand.
-/

namespace Wireform.Derive.Grammar

open Wireform.Derive.Parser

/-- A call of a generator of code in curly brackets, which is an item, or one that
    gives a name to what is generated. -/
def callsItemGenerator (here : Cursor) : Bool :=
  here.hasMark "!" &&
    ((here.next.hasGroup .curly && !(here.next.next.hasMark "." || here.next.next.hasMark "?"))
      || here.next.hasName)

/-- The rest of such a call, after its path. -/
def itemGenerator : Parser Code := do
  let bang ← mark "!"
  let label ← if ← sees Cursor.hasName then pure [← name] else pure []
  let content ← anyGroup
  return bang ++ label ++ content ++ (← markIf ";")

/-- Whether an item starts here that is told by its first words. -/
def startsItem (here : Cursor) : Bool :=
  let next := here.next
  here.hasWordOf ["pub", "extern", "use", "fn", "mod", "type", "struct", "enum", "trait", "impl",
      "macro"]
    || (here.hasWord "crate" && !next.hasMark "::")
    || (here.hasWord "static" && (next.hasWord "mut" || next.hasName))
    || (here.hasWordOf ["const", "unsafe"] && !next.hasGroup .curly)
    || (here.hasWord "async" && next.hasWordOf ["unsafe", "extern", "fn"])
    || (here.hasWord "union" && next.hasName)
    || (here.hasWord "auto" && next.hasWord "trait")
    || (here.hasWord "default" && next.hasWordOf ["unsafe", "impl"])

/-- A binding of a pattern to a value. With a block for values that do not match it is
    copied, attributes included. -/
def localBinding (rules : Rules) (start : Cursor) (attributes : Code) : Parser Code := do
  let keyword ← word "let"
  let pattern ← alternatives rules
  let kind ←
    if ← sees (·.hasMark ":") then
      let colon ← mark ":"
      pure (colon ++ (← rules.type true).code)
    else pure []
  let value ← if ← sees (·.hasMark "=") then assigned rules else pure []
  if !value.isEmpty && (← get).hasWord "else" then
    let _ ← word "else"
    let _ ← block rules
    let stop ← get
    return between start stop ++ (← mark ";")
  return attributes ++ keyword ++ pattern.code ++ kind ++ value ++ (← mark ";")

/-- A statement, and whether something has to separate it from the next one. -/
def statement (rules : Rules) : Parser (Code × Bool) := do
  let start ← get
  let attributes ← outerAttributes
  match (← ahead Path.parse).filter fun found => callsItemGenerator found.2 with
  | some (path, after) =>
      advance after
      return (attributes ++ path.code ++ (← itemGenerator), false)
  | none =>
      let here ← get
      if here.hasWord "let" then return (← localBinding rules start attributes, false)
      else if startsItem here then return ((← rules.item).withAttributes attributes, false)
      else
        let value ← rules.clause
        let code := if value.startsCopied then value.code else attributes ++ value.code
        if ← sees (·.hasMark ";") then return (code ++ (← mark ";"), false)
        else return (code, value.needsEnd)

/-- The statements up to the end of a block. -/
def statementsFrom (rules : Rules) : (fuel : Nat) → Parser Code
  | 0 => return []
  | fuel + 1 => do
      let semicolons ← repeated (·.hasMark ";") (mark ";")
      if ← sees Cursor.atEnd then return semicolons.flatten
      let (first, needsEnd) ← statement rules
      if ← sees Cursor.atEnd then return semicolons.flatten ++ first
      if needsEnd then refuse "unexpected token"
      return semicolons.flatten ++ first ++ (← statementsFrom rules fuel)

/-- All statements of a block. -/
def statements (rules : Rules) : Parser Code := do statementsFrom rules (← steps)

end Wireform.Derive.Grammar
