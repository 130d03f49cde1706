import Wireform.Derive.Grammar.Operations

/-!
# Operands

An operand starts with signs and keywords that apply to all of it, goes on with an
atom, and ends with what is applied to the atom: calls, fields, positions and the
like. Positions that were spelled like a fraction are settled one by one.
-/

namespace Wireform.Derive.Grammar

open Wireform.Derive.Parser

/-- An argument of a method in angle brackets. -/
def methodArgument (rules : Rules) : Parser Code := do
  let here ← get
  if here.hasLiteral then literal
  else if here.hasGroup .curly then body rules
  else return (← rules.type true).code

/-- The arguments of a method in angle brackets, from the colons on. -/
def methodArguments (rules : Rules) : Parser Code := do
  let colons ← mark "::"
  let opening ← mark "<"
  let arguments ← listed (·.hasMark ">") "," (methodArgument rules)
  return colons ++ opening ++ joined "," arguments ++ (← mark ">")

/-- Expressions in round brackets with commas between them. -/
def roundExpressions (rules : Rules) : Parser Code :=
  group .round (commas do return (← rules.expression true).code)

/-- The field, the method or the wait that a point leads to, after the point. -/
def selection (rules : Rules) : Parser Code := do
  if ← sees (·.hasWord "await") then word "await"
  else
    let field ← member
    let arguments ←
      if field.isNamed && (← get).hasMark "::" then methodArguments rules else pure []
    if !arguments.isEmpty || (field.isNamed && (← get).hasGroup .round) then
      return field.code :: arguments ++ (← roundExpressions rules)
    else return [field.code]

/-- Positions that are spelled like a fraction, each after a point. A point at the end
    leads to one more selection. -/
def fractionSelections (rules : Rules) : Parser Code := do
  match ← literal with
  | [spelling] =>
      let (positions, isOpen) ← Numeral.positions spelling
      let code := positions.flatMap fun position => [".", toString position]
      if isOpen then return code ++ "." :: (← selection rules) else return code
  | code =>
      let _ ← Numeral.positions (code.getLastD "")
      throw (.unreadable "invalid digit found in string")

/-- What is applied to an expression that has been read. -/
def applicationsFrom (rules : Rules) : (fuel : Nat) → (left : Expression) → Parser Expression
  | 0, left => return left
  | fuel + 1, left => do
      let here ← get
      if here.hasGroup .round then
        applicationsFrom rules fuel ⟨left.code ++ (← roundExpressions rules), .plain⟩
      else if here.hasMarkNot "." ".." && left.shape ≠ .range then
        let point ← mark "."
        let selected ←
          if ← sees Cursor.hasFraction then fractionSelections rules
          else pure (point ++ (← selection rules))
        applicationsFrom rules fuel ⟨left.code ++ selected, .plain⟩
      else if here.hasGroup .square then
        let position ← group .square do return (← rules.expression true).code
        applicationsFrom rules fuel ⟨left.code ++ position, .plain⟩
      else if here.hasMark "?" then
        applicationsFrom rules fuel ⟨left.code ++ (← mark "?"), .plain⟩
      else return left

/-- What is applied to an expression that has been read. -/
def applications (rules : Rules) (left : Expression) : Parser Expression := do
  applicationsFrom rules (← steps) left

/-- A reference to the operand after it. A raw one is copied. -/
def reference (rules : Rules) (structures : Bool) (start : Cursor) (attributes : Code) :
    Parser Expression := do
  let sign ← mark "&"
  let here ← get
  let isRaw := here.hasWord "raw" && here.next.hasWordOf ["mut", "const"]
  if isRaw then
    let _ ← word "raw"
  let mutability ← wordIf "mut"
  if isRaw && mutability.isEmpty then
    let _ ← word "const"
  let inner ← rules.operand structures
  let stop ← get
  return if isRaw then ⟨between start stop, .copied⟩
    else ⟨attributes ++ sign ++ mutability ++ inner.code, .plain⟩

/-- An expression that is no operation on two operands. -/
def operand (rules : Rules) (atom : Parser Expression) (structures : Bool) :
    Parser Expression := do
  let start ← get
  let attributes ← outerAttributes
  let here ← get
  if here.hasMark "&" then reference rules structures start attributes
  else if here.hasWord "box" then
    let keyword ← word "box"
    return ⟨attributes ++ keyword ++ (← rules.operand structures).code, .plain⟩
  else if here.hasMark "*" || here.hasMark "!" || here.hasMark "-" then
    let sign ← mark (if here.hasMark "*" then "*" else if here.hasMark "!" then "!" else "-")
    return ⟨attributes ++ sign ++ (← rules.operand structures).code, .plain⟩
  else
    let found ← applications rules (← atom)
    if found.shape = .copied then return ⟨between start (← get), .copied⟩
    else return found.withAttributes attributes

end Wireform.Derive.Grammar
