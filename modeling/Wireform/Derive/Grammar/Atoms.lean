import Wireform.Derive.Grammar.Bounds
import Wireform.Derive.Grammar.Operands

/-!
# Atoms

The smallest expressions, and those that keywords and brackets hold together. Most
blocks end a statement by themselves. A closure for any choice of lifetimes, a
constant block, a blank and a structure of a path that is taken from a type are
copied.
-/

namespace Wireform.Derive.Grammar

open Wireform.Derive.Parser

/-- An expression where structures are allowed, as code. -/
def code (rules : Rules) : Parser Code := return (← rules.expression true).code

/-- Whether an expression that can be missing is missing here. -/
def lacksValue (here : Cursor) : Bool := here.atEnd || here.hasMark "," || here.hasMark ";"

/-- A parameter of a closure. -/
def closureParameter (rules : Rules) : Parser Code := do
  let attributes ← outerAttributes
  let pattern ← rules.pattern
  if ← sees (·.hasMark ":") then
    let colon ← mark ":"
    return attributes ++ pattern.code ++ colon ++ (← rules.type true).code
  else return pattern.withAttributes attributes

/-- A closure. With a result type its body is a block. -/
def closure (rules : Rules) (structures : Bool) : Parser Code := do
  let immobile ← wordIf "static"
  let asynchronous ← wordIf "async"
  let capture ← wordIf "move"
  let bar ← mark "|"
  let parameters ← listed (·.hasMark "|") "," (closureParameter rules)
  let closing ← mark "|"
  let head := immobile ++ asynchronous ++ capture ++ bar ++ joined "," parameters ++ closing
  if ← sees (·.hasMark "->") then
    let (_, output) ← result rules true
    return head ++ output ++ (← block rules)
  else return head ++ (← rules.expression structures).code

/-- Whether a closure for any choice of lifetimes starts here. -/
def startsQuantified (here : Cursor) : Bool :=
  here.hasWord "for" && here.next.hasMark "<"
    && (here.next.next.hasLifetime || here.next.next.hasMark ">")

/-- Whether a closure starts here. -/
def startsClosure (here : Cursor) : Bool :=
  here.hasMark "|" || (here.hasWord "async" && (here.next.hasMark "|" || here.next.hasWord "move"))
    || here.hasWord "static" || here.hasWord "move"

/-- Whether a block that is run later starts here. -/
def startsAsync (here : Cursor) : Bool :=
  here.hasWord "async" && (here.next.hasGroup .curly
    || (here.next.hasWord "move" && here.next.next.hasGroup .curly))

/-- Whether a block that can be left early starts here. -/
def startsTry (here : Cursor) : Bool := here.hasWord "try" && here.next.hasGroup .curly

/-- The values of the fields of a structure. Dots, and a value for the other fields,
    come last. -/
def fieldValues (rules : Rules) : (fuel : Nat) → Parser Code
  | 0 => return []
  | fuel + 1 => do
      if ← sees Cursor.atEnd then return []
      if ← sees (·.hasMark "..") then
        let dots ← mark ".."
        return dots ++ (← if ← sees Cursor.atEnd then pure [] else code rules)
      let attributes ← outerAttributes
      let field ← member
      let value ←
        if (← get).hasMark ":" || !field.isNamed then
          let colon ← mark ":"
          pure (colon ++ (← code rules))
        else pure []
      let first := attributes ++ field.code :: value
      if ← sees Cursor.atEnd then return first
      let comma ← mark ","
      return first ++ comma ++ (← fieldValues rules fuel)

/-- A path, a structure or a call of a generator of code. -/
def named (rules : Rules) (structures : Bool) : Parser Expression := do
  let start ← get
  let path ← path rules true
  let here ← get
  if callsGenerator path here then return ⟨path.code ++ (← generated), .plain⟩
  else if structures && here.hasGroup .curly then
    let fields ← group .curly do fieldValues rules (← steps)
    let stop ← get
    return if path.isQualified then ⟨between start stop, .copied⟩ else ⟨path.code ++ fields, .plain⟩
  else return ⟨path.code, .plain⟩

/-- Expressions in square brackets: each element, or one element and how often it is
    there. -/
def elements (rules : Rules) : Parser Code :=
  group .square do
    if ← sees Cursor.atEnd then return []
    let first ← code rules
    let here ← get
    if here.atEnd then return first
    else if here.hasMark "," then
      let comma ← mark ","
      return first ++ comma ++ (← commas (code rules))
    else if here.hasMark ";" then
      let semicolon ← mark ";"
      return first ++ semicolon ++ (← code rules)
    else refuse "expected `,` or `;`"

/-- A condition and the block that is run if it holds. -/
def branch (rules : Rules) : Parser Code := do
  let keyword ← word "if"
  let condition ← rules.expression false
  return keyword ++ condition.code ++ (← block rules)

/-- Branches, and the block that is run if no condition holds. -/
def conditional (rules : Rules) : Parser Code := do
  let first ← branch rules
  let others ← repeated (fun here => here.hasWord "else" && here.next.hasWord "if") do
    let keyword ← word "else"
    return keyword ++ (← branch rules)
  let last ←
    if ← sees (·.hasWord "else") then
      let keyword ← word "else"
      pure (keyword ++ (← if ← sees (·.hasGroup .curly) then block rules else refuseAll []))
    else pure []
  return first ++ others.flatten ++ last

/-- A case of a distinction. A comma has to follow unless a block or nothing does. -/
def arm (rules : Rules) : Parser Code := do
  let attributes ← outerAttributes
  let pattern ← alternatives rules
  let guard ←
    if ← sees (·.hasWord "if") then
      let keyword ← word "if"
      pure (keyword ++ (← code rules))
    else pure []
  let arrow ← mark "=>"
  let value ← rules.clause
  let comma ← if value.needsEnd && !(← get).atEnd then mark "," else markIf ","
  return attributes ++ pattern.code ++ guard ++ arrow ++ value.code ++ comma

/-- A distinction of cases. -/
def distinction (rules : Rules) : Parser Code := do
  let keyword ← word "match"
  let value ← rules.expression false
  let cases ← group .curly do
    let attributes ← innerAttributes
    return attributes ++ (← each (arm rules)).flatten
  return keyword ++ value.code ++ cases

/-- A loop, from its keyword on. -/
def repetition (rules : Rules) : Parser Code := do
  let here ← get
  if here.hasWord "while" then
    let keyword ← word "while"
    let condition ← rules.expression false
    return keyword ++ condition.code ++ (← body rules)
  else if here.hasWord "for" then
    let keyword ← word "for"
    let pattern ← alternatives rules
    let preposition ← word "in"
    let values ← rules.expression false
    return keyword ++ pattern.code ++ preposition ++ values.code ++ (← body rules)
  else
    let keyword ← word "loop"
    return keyword ++ (← body rules)

/-- Whether a loop starts here. -/
def startsLoop (here : Cursor) : Bool := here.hasWordOf ["while", "for", "loop"]

/-- A loop or a block with a name. -/
def labelled (rules : Rules) : Parser Code := do
  let label ← lifetime
  let colon ← mark ":"
  let here ← get
  if startsLoop here then return label ++ colon ++ (← repetition rules)
  else if here.hasGroup .curly then return label ++ colon ++ (← body rules)
  else refuse "expected loop or block expression"

/-- A condition that a value matches a pattern. -/
def binding (rules : Rules) : Parser Code := do
  let keyword ← word "let"
  let pattern ← alternatives rules
  let sign ← mark "="
  let value ← operations rules false (← rules.operand false) .comparison
  return keyword ++ pattern.code ++ sign ++ value.code

/-- A way out of a loop, with or without a value. -/
def exit (rules : Rules) (structures : Bool) : Parser Code := do
  let keyword ← word "break"
  let label ← lifetimeIf
  let here ← get
  if lacksValue here || (!structures && here.hasGroup .curly) then return keyword ++ label
  else return keyword ++ label ++ (← rules.expression structures).code

/-- A keyword and a value, unless the value is missing. -/
def withValue (keyword : String) (value : Parser Expression) : Parser Code := do
  let start ← word keyword
  if ← sees lacksValue then return start else return start ++ (← value).code

/-- A range without a first end. -/
def openRange (rules : Rules) (structures : Bool) : Parser Code := do
  let (dots, _) ← rangeDots
  if ← sees (endsRange structures) then return dots
  else return dots ++ (← rules.expression structures).code

/-- An expression that nothing is applied to yet. -/
def atom (rules : Rules) (structures : Bool) : Parser Expression := do
  let here ← get
  if here.hasLiteral then return ⟨← literal, .plain⟩
  else if startsAsync here then
    let keyword ← word "async"
    let capture ← wordIf "move"
    return ⟨keyword ++ capture ++ (← block rules), .block⟩
  else if startsTry here then
    let keyword ← word "try"
    return ⟨keyword ++ (← block rules), .block⟩
  else if startsClosure here then return ⟨← closure rules structures, .plain⟩
  else if startsQuantified here then
    let code ← copied do
      let _ ← boundLifetimes
      closure rules structures
    return ⟨code, .copied⟩
  else if Path.startsAt here || here.hasMark "::" || here.hasMark "<" then named rules structures
  else if here.hasGroup .round then return ⟨← roundExpressions rules, .plain⟩
  else if here.hasWord "break" then return ⟨← exit rules structures, .plain⟩
  else if here.hasWord "continue" then
    let keyword ← word "continue"
    return ⟨keyword ++ (← lifetimeIf), .plain⟩
  else if here.hasWord "return" then
    return ⟨← withValue "return" (rules.expression structures), .plain⟩
  else if here.hasGroup .square then return ⟨← elements rules, .plain⟩
  else if here.hasWord "let" then return ⟨← binding rules, .plain⟩
  else if here.hasWord "if" then return ⟨← conditional rules, .block⟩
  else if startsLoop here then return ⟨← repetition rules, .block⟩
  else if here.hasWord "match" then return ⟨← distinction rules, .block⟩
  else if here.hasWord "yield" then
    return ⟨← withValue "yield" (rules.expression true), .plain⟩
  else if here.hasWord "unsafe" then
    let keyword ← word "unsafe"
    return ⟨keyword ++ (← body rules), .block⟩
  else if here.hasWord "const" then return ⟨← constantBlock rules, .copied⟩
  else if here.hasGroup .curly then return ⟨← body rules, .block⟩
  else if here.hasMark ".." then return ⟨← openRange rules structures, .range⟩
  else if here.hasWord "_" then return ⟨← word "_", .copied⟩
  else if here.hasLifetime then return ⟨← labelled rules, .block⟩
  else refuse "expected expression"

/-- Whether an expression that ends by itself starts here. -/
def startsClause (here : Cursor) : Bool :=
  here.hasWordOf ["if", "while", "loop", "match", "unsafe", "const"] || startsTry here
    || (here.hasWord "for" && !startsQuantified here) || here.hasGroup .curly

/-- An expression that ends with the block that it starts with, unless a selection or
    a question mark follows. -/
def clause (rules : Rules) : Parser Expression := do
  let attributes ← outerAttributes
  if ← sees startsClause then
    let first ← atom rules true
    let here ← get
    if here.hasMarkNot "." ".." || here.hasMark "?" then
      let found ← applications rules first
      operations rules true (found.withAttributes attributes) .any
    else return first.withAttributes attributes
  else
    let first ← rules.operand true
    operations rules true (first.withAttributes attributes) .any

end Wireform.Derive.Grammar
