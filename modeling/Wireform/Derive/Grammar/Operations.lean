import Wireform.Derive.Grammar.Patterns

/-!
# Operations

Operations on two operands are read by precedence: an operand belongs to the operator
after it if that binds more tightly than the one before. Assignments group from the
right and everything else from the left. Casts take a type as their second operand,
and a range can do without one.
-/

namespace Wireform.Derive.Grammar

open Wireform.Derive.Parser

/-- How tightly an operator binds. -/
inductive Precedence
  | any
  | assignment
  | range
  | or
  | and
  | comparison
  | bitOr
  | bitXor
  | bitAnd
  | shift
  | sum
  | product
  | cast
deriving DecidableEq, Repr

/-- The place of a precedence, the loosest first. -/
def Precedence.rank : Precedence → Nat
  | .any => 0
  | .assignment => 1
  | .range => 2
  | .or => 3
  | .and => 4
  | .comparison => 5
  | .bitOr => 6
  | .bitXor => 7
  | .bitAnd => 8
  | .shift => 9
  | .sum => 10
  | .product => 11
  | .cast => 12

/-- The operators, longer ones before those that they start with. -/
def operators : List (String × Precedence) :=
  [("+=", .assignment), ("-=", .assignment), ("*=", .assignment), ("/=", .assignment),
    ("%=", .assignment), ("^=", .assignment), ("&=", .assignment), ("|=", .assignment),
    ("<<=", .assignment), (">>=", .assignment), ("&&", .and), ("||", .or), ("<<", .shift),
    (">>", .shift), ("==", .comparison), ("<=", .comparison), ("!=", .comparison),
    (">=", .comparison), ("+", .sum), ("-", .sum), ("*", .product), ("/", .product),
    ("%", .product), ("^", .bitXor), ("&", .bitAnd), ("|", .bitOr), ("<", .comparison),
    (">", .comparison)]

/-- The operator that stands here. -/
def operator? (here : Cursor) : Option (String × Precedence) :=
  operators.find? fun entry => here.hasMark entry.1

/-- Whether a type for the value before it follows. -/
def ascribes (here : Cursor) : Bool := here.hasMarkNot ":" "::"

/-- The precedence of what stands here. -/
def precedenceAt (here : Cursor) : Precedence :=
  match operator? here with
  | some (_, precedence) => precedence
  | none =>
      if here.hasMarkNot "=" "=>" then .assignment
      else if here.hasMark ".." then .range
      else if here.hasWord "as" || ascribes here then .cast
      else .any

/-- Whether a range has no end here. -/
def endsRange (structures : Bool) (here : Cursor) : Bool :=
  here.atEnd || here.hasMark "," || here.hasMark ";" || here.hasMarkNot "." ".."
    || (!structures && here.hasGroup .curly)

/-- Refuses what cannot be applied to a cast without brackets. -/
def checkCast : Parser Unit := do
  let here ← get
  let cannot (what : String) : Parser Unit := refuse ("casts cannot be followed by " ++ what)
  if here.hasMarkNot "." ".." then
    let after := here.next
    if after.hasWord "await" then cannot "`.await`"
    else if after.hasName && (after.next.hasGroup .round || after.next.hasMark "::") then
      cannot "a method call"
    else cannot "a field access"
  else if here.hasMark "?" then cannot "`?`"
  else if here.hasGroup .square then cannot "indexing"
  else if here.hasGroup .round then cannot "a function call"

mutual

/-- Operations on an operand that has been read, as far as they bind at least as
    tightly as `base`. -/
def operationsFrom (rules : Rules) (structures : Bool) :
    (fuel : Nat) → (left : Expression) → (base : Precedence) → Parser Expression
  | 0, left, _ => return left
  | fuel + 1, left, base => do
      let here ← get
      let allows (precedence : Precedence) := base.rank ≤ precedence.rank
      let binary (code : Code) : Expression :=
        ⟨left.code ++ code, .operation left.startsCopied⟩
      match (operator? here).filter fun found => allows found.2 with
      | some (spelling, precedence) =>
          let sign ← mark spelling
          let least := if precedence = .assignment then precedence.rank else precedence.rank + 1
          let right ← tighter rules structures fuel least (← rules.operand structures)
          operationsFrom rules structures fuel (binary (sign ++ right.code)) base
      | none =>
          if allows .assignment && here.hasMark "=" && !here.hasMark "==" && !here.hasMark "=>" then
            let sign ← mark "="
            let right ← tighter rules structures fuel Precedence.assignment.rank
              (← rules.operand structures)
            operationsFrom rules structures fuel (binary (sign ++ right.code)) base
          else if allows .range && here.hasMark ".." then
            let (dots, _) ← rangeDots
            let last ←
              if ← sees (endsRange structures) then pure []
              else
                let right ← tighter rules structures fuel (Precedence.range.rank + 1)
                  (← rules.operand structures)
                pure right.code
            operationsFrom rules structures fuel ⟨left.code ++ dots ++ last, .range⟩ base
          else if allows .cast && (here.hasWord "as" || ascribes here) then
            let sign ← if here.hasWord "as" then word "as" else mark ":"
            let type ← rules.type false
            checkCast
            operationsFrom rules structures fuel ⟨left.code ++ sign ++ type.code, .plain⟩ base
          else return left

/-- An operand with the operations after it that bind tightly enough. -/
def tighter (rules : Rules) (structures : Bool) :
    (fuel : Nat) → (least : Nat) → (right : Expression) → Parser Expression
  | 0, _, right => return right
  | fuel + 1, least, right => do
      let next := precedenceAt (← get)
      if least ≤ next.rank then
        tighter rules structures fuel least (← operationsFrom rules structures fuel right next)
      else return right

end

/-- Operations on an operand that has been read, as far as they bind at least as
    tightly as `base`. Each operator takes two steps. -/
def operations (rules : Rules) (structures : Bool) (left : Expression) (base : Precedence) :
    Parser Expression := do
  operationsFrom rules structures (2 * (← steps)) left base

/-- An expression. -/
def expression (rules : Rules) (structures : Bool) : Parser Expression := do
  operations rules structures (← rules.operand structures) .any

end Wireform.Derive.Grammar
