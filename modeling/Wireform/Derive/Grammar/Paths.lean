import Wireform.Derive.Grammar.Rules

/-!
# Paths with arguments

A name of a path can have arguments in angle brackets. In expressions they need `::`
in front of them, because a comparison looks the same without. A path can be taken
from a type, which then stands in angle brackets before it.

Arguments in round brackets are only read where a path is a type or a bound. They
take the place of empty angle brackets.
-/

namespace Wireform.Derive.Grammar

open Wireform.Derive.Parser

/-- Which arguments a name of a path has. -/
inductive ArgumentForm
  | absent
  | angled (isEmpty : Bool)
  | round
deriving DecidableEq, Repr

/-- A name of a path with its arguments. -/
structure Segment where
  name : String
  arguments : Code := []
  form : ArgumentForm := .absent

namespace Segment

/-- The name and its arguments as code. -/
def code (segment : Segment) : Code := segment.name :: segment.arguments

/-- Whether arguments in round brackets can still be added. -/
def isOpen (segment : Segment) : Bool :=
  segment.form = .absent || segment.form = .angled true

end Segment

/-- A path with arguments. -/
structure PathCode where
  /-- What comes before the first name. -/
  lead : Code := []
  /-- Whether the path is taken from a type. -/
  isQualified : Bool := false
  segments : List Segment

namespace PathCode

/-- A path as code. -/
def code (path : PathCode) : Code :=
  path.lead ++ List.flatten ((path.segments.map Segment.code).intersperse [":", ":"])

/-- Whether no name has arguments. -/
def isPlain (path : PathCode) : Bool := path.segments.all fun segment => segment.form = .absent

/-- Whether arguments in round brackets can be added to the last name. -/
def isOpen (path : PathCode) : Bool := path.segments.getLast?.any Segment.isOpen

/-- A path with other arguments of its last name. -/
def withRound (arguments : Code) (path : PathCode) : PathCode :=
  { path with segments := path.segments.modify (path.segments.length - 1) fun segment =>
      { segment with arguments := arguments, form := .round } }

/-- The shape of a path as a type. -/
def shape (path : PathCode) : TypeShape :=
  if path.isQualified then .other
  else
    match path.lead, path.segments with
    | [], [⟨_, _, .angled _⟩] => .path true
    | _, _ => .path false

end PathCode

/-- A result type, if an arrow announces one. -/
def result (rules : Rules) (sums : Bool) : Parser (Option TypeCode × Code) := do
  if ← sees (·.hasMark "->") then
    let arrow ← mark "->"
    let type ← rules.type sums
    return (some type, arrow ++ type.code)
  else return (none, [])

/-- Arguments in round brackets, and whether further names can follow them. -/
def roundArguments (rules : Rules) : Parser (Code × Bool) := do
  let inputs ← group .round (commas do return (← rules.type true).code)
  let (type, code) ← result rules false
  return (inputs ++ code, type.all fun type => type.shape = .bracketed)

/-- What follows a name and a colon in angle brackets. -/
def constraintBounds (rules : Rules) : Parser Code := do
  return joined "+" (← chained (fun here => here.hasMark "," || here.hasMark ">") "+"
    do return (← rules.bound).code)

/-- An argument in angle brackets, and whether it is a lifetime. -/
def argument (rules : Rules) : Parser (Bool × Code) := do
  let here ← get
  if here.hasLifetime && !here.next.hasMark "+" then return (true, ← lifetime)
  if here.hasName && here.next.hasMark "=" then
    let start ← name
    let equals ← mark "="
    let value ←
      if ← sees Cursor.hasLiteral then literal
      else if ← sees (·.hasGroup .curly) then copied (body rules)
      else pure (← rules.type true).code
    return (false, start :: equals ++ value)
  if here.hasName && here.next.hasMarkNot ":" "::" then
    let start ← name
    let colon ← mark ":"
    return (false, start :: colon ++ (← constraintBounds rules))
  if here.hasLiteral then return (false, ← literal)
  if here.hasGroup .curly then return (false, ← body rules)
  let type ← rules.type true
  if type.shape = .path true then
    if ← sees (·.hasMark "=") then
      let _ ← mark "="
      let _ ← rules.type true
      return (false, between here (← get))
    if ← sees (·.hasMark ":") then
      let _ ← mark ":"
      let _ ← constraintBounds rules
      return (false, between here (← get))
  return (false, type.code)

/-- Arguments in angle brackets. -/
def angleArguments (rules : Rules) : Parser (Code × Bool) := do
  let colons ← markIf "::"
  let opening ← mark "<"
  let arguments ← listed (·.hasMark ">") "," (argument rules)
  let closing ← mark ">"
  return (colons ++ opening ++ lifetimesFirst arguments ++ closing, arguments.isEmpty)

/-- A name of a path and its arguments. -/
def segment (rules : Rules) (inExpression : Bool) : Parser Segment := do
  let here ← get
  if here.hasWordOf ["super", "self", "crate", "try"] then return { name := ← anyWord }
  let word ← if here.hasWord "Self" then anyWord else name
  let here ← get
  if (!inExpression && here.hasMarkNot "<" "<=") ||
      (here.hasMark "::" && here.next.next.hasMark "<") then
    let (arguments, isEmpty) ← angleArguments rules
    return ⟨word, arguments, .angled isEmpty⟩
  else return { name := word }

/-- Further names of a path, for as long as a test holds. -/
def furtherSegments (rules : Rules) (inExpression : Bool) (goesOn : Cursor → Bool) :
    Parser (List Segment) :=
  repeated goesOn do
    let _ ← mark "::"
    segment rules inExpression

/-- Whether a path goes on, and not with arguments in round brackets. -/
def pathGoesOn (here : Cursor) : Bool := here.hasMark "::" && !here.next.next.hasGroup .round

/-- A path that is not taken from a type. -/
def simplePath (rules : Rules) (inExpression : Bool) : Parser PathCode := do
  let root ← markIf "::"
  let first ← segment rules inExpression
  let others ← furtherSegments rules inExpression pathGoesOn
  return { lead := root, segments := first :: others }

/-- A path that may be taken from a type. -/
def path (rules : Rules) (inExpression : Bool) : Parser PathCode := do
  if ← sees (·.hasMark "<") then
    let opening ← mark "<"
    let type ← rules.type true
    let source ←
      if ← sees (·.hasWord "as") then
        let keyword ← word "as"
        pure (keyword ++ (← simplePath rules false).code)
      else pure []
    let closing ← mark ">"
    let colons ← mark "::"
    let first ← segment rules inExpression
    let others ← furtherSegments rules inExpression (·.hasMark "::")
    return {
      lead := opening ++ type.code ++ source ++ closing ++ colons
      isQualified := true
      segments := first :: others }
  else simplePath rules inExpression

/-- Whether arguments in round brackets stand here, perhaps after colons. -/
def startsRound (here : Cursor) : Bool :=
  here.hasGroup .round || (here.hasMark "::" && here.next.next.hasGroup .round)

/-- A call of a generator of code, after its path. -/
def generated : Parser Code := do
  let bang ← mark "!"
  return bang ++ (← anyGroup)

/-- Whether a path can be that of a generator of code, and one is called. -/
def callsGenerator (path : PathCode) (here : Cursor) : Bool :=
  !path.isQualified && path.isPlain && here.hasMarkNot "!" "!="

end Wireform.Derive.Grammar
