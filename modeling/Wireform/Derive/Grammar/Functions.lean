import Wireform.Derive.Grammar.Parameters
import Wireform.Derive.Grammar.Patterns
import Wireform.Derive.Grammar.Types

/-!
# Functions

The head of a function. Its own object can only be the first parameter. A parameter
that is a type with arguments in angle brackets, and nothing before it, gets a blank
for a name.
-/

namespace Wireform.Derive.Grammar

open Wireform.Derive.Parser

/-- The object of a function, as a parameter without a type. -/
def object : Parser Code := do
  let reference ←
    if ← sees (·.hasMark "&") then
      let sign ← mark "&"
      pure (sign ++ (← lifetimeIf))
    else pure []
  let mutability ← wordIf "mut"
  return reference ++ mutability ++ (← word "self")

/-- A parameter with a type. -/
def typedParameter (rules : Rules) : Parser Code := do
  let here ← get
  if here.hasName && here.next.hasMark "<" then
    return "_" :: ":" :: (← rules.type true).code
  else
    let pattern ← alternativesAfter rules []
    let colon ← mark ":"
    if ← sees (·.hasMark "...") then return pattern.code ++ colon ++ (← mark "...")
    else return pattern.code ++ colon ++ (← rules.type true).code

/-- Parameters of a function. `isFirst` tells that none has been read, and `hasObject`
    that the object is among those that have. -/
def parametersFrom (rules : Rules) : (fuel : Nat) → (isFirst hasObject : Bool) → Parser Code
  | 0, _, _ => return []
  | fuel + 1, isFirst, hasObject => do
      if ← sees Cursor.atEnd then return []
      let attributes ← outerAttributes
      let (first, isObject) ←
        if ← sees (·.hasMark "...") then pure (← mark "...", false)
        else
          match (← ahead object).filter fun found => !found.2.hasMark ":" with
          | some (code, after) =>
              if hasObject then throw (.unreadable "unexpected second method receiver")
              if !isFirst then throw (.unreadable "unexpected method receiver")
              advance after
              pure (code, true)
          | none => pure (← typedParameter rules, false)
      if ← sees Cursor.atEnd then return attributes ++ first
      let comma ← mark ","
      let others ← parametersFrom rules fuel false (hasObject || isObject)
      return attributes ++ first ++ comma ++ others

/-- Whether the head of a function starts here. -/
def startsSignature (here : Cursor) : Bool :=
  let skip (keyword : String) (here : Cursor) := if here.hasWord keyword then here.next else here
  let here := skip "unsafe" (skip "async" (skip "const" here))
  let here :=
    if here.hasWord "extern" then if here.next.hasText then here.next.next else here.next else here
  here.hasWord "fn"

/-- The head of a function. -/
def signature (rules : Rules) : Parser Code := do
  let constancy ← wordIf "const"
  let asynchrony ← wordIf "async"
  let safety ← wordIf "unsafe"
  let convention ← conventionIf
  let keyword ← word "fn"
  let label ← name
  let generics ← generics rules
  let parameters ← group .round do parametersFrom rules (← steps) true false
  let (_, output) ← result rules true
  let conditions ← conditionsIf rules
  return constancy ++ asynchrony ++ safety ++ convention ++ keyword ++ label ::
    declared generics ++ parameters ++ output ++
    { generics with conditions := conditions }.restriction

end Wireform.Derive.Grammar
