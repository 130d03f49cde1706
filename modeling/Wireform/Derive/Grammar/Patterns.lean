import Wireform.Derive.Grammar.Paths

/-!
# Patterns

A pattern that starts with a name is a path if something follows that only a path can
have, and introduces the name otherwise. A range that is open at one end is copied,
and so is what belongs to a path that is taken from a type.
-/

namespace Wireform.Derive.Grammar

open Wireform.Derive.Parser

/-- What a pattern can start with. -/
def patternStarts : List String :=
  ["`::`", "`<`", "`_`", "literal", "`const`", "`ref`", "`mut`", "`&`", "parentheses",
    "square brackets", "`..`"]

/-- What can stand at an end of a range. -/
def rangeEnds : List String :=
  ["literal", "identifier", "`::`", "`<`", "`self`", "`Self`", "`super`", "`crate`", "`const`"]

/-- The dots of a range, and whether its end belongs to it. Three dots are settled as
    two and an equals sign. -/
def rangeDots : Parser (Code × Bool) := do
  let here ← get
  if here.hasMark "..=" then return (← mark "..=", true)
  else if here.hasMark "..." then
    let _ ← mark "..."
    return ([".", ".", "="], true)
  else return (← mark "..", false)

/-- A block of which the value is constant. -/
def constantBlock (rules : Rules) : Parser Code :=
  copied do
    let _ ← word "const"
    body rules

/-- Whether a pattern stops here, so that a range is open. -/
def stopsRange (here : Cursor) : Bool :=
  here.atEnd || here.hasMark "|" || here.hasMark "=" || here.hasMarkNot ":" "::"
    || here.hasMark "," || here.hasMark ";" || here.hasWord "if"

/-- An end of a range, if there is one. -/
def rangeEnd (rules : Rules) : Parser (Option Piece) := do
  if ← sees stopsRange then return none
  let sign ← markIf "-"
  let here ← get
  if here.hasLiteral then return some ⟨sign ++ (← literal), false⟩
  else if Path.startsAt here || here.hasMark "::" || here.hasMark "<" then
    return some ⟨sign ++ (← path rules true).code, false⟩
  else if here.hasWord "const" then
    return some ⟨sign ++ (← constantBlock rules), sign.isEmpty⟩
  else refuseAll rangeEnds

/-- The rest of a range, after its first end. -/
def rangePattern (rules : Rules) (start : Cursor) (first : Code) : Parser Piece := do
  let (dots, _) ← rangeDots
  match ← rangeEnd rules with
  | some last => return ⟨first ++ dots ++ last.code, false⟩
  | none => return ⟨between start (← get), true⟩

/-- Dots alone, or a range without its first end. -/
def openPattern (rules : Rules) : Parser Piece := do
  let start ← get
  let (dots, isClosed) ← rangeDots
  match ← rangeEnd rules with
  | some _ => return ⟨between start (← get), true⟩
  | none => if isClosed then refuse "expected range upper bound" else return ⟨dots, false⟩

/-- A literal or a constant block, or a range that starts with it. -/
def literalPattern (rules : Rules) : Parser Piece := do
  let start ← get
  let first := (← rangeEnd rules).getD ⟨[], false⟩
  if ← sees (·.hasMark "..") then rangePattern rules start first.code else return first

/-- Whether a bar stands here that separates patterns. -/
def separatesPatterns (here : Cursor) : Bool :=
  here.hasMark "|" && !here.hasMark "||" && !here.hasMark "|="

/-- Patterns with bars between them, after a first bar. -/
def alternativesAfter (rules : Rules) (bar : Code) : Parser Piece := do
  let first ← rules.pattern
  let others ← repeated separatesPatterns do
    let bar ← mark "|"
    return bar ++ (← rules.pattern).code
  if bar.isEmpty && others.isEmpty then return first
  else return ⟨bar ++ first.code ++ others.flatten, false⟩

/-- Patterns with bars between them, and perhaps one before them. -/
def alternatives (rules : Rules) : Parser Piece := do
  alternativesAfter rules (← markIf "|")

/-- Patterns with commas between them in a group. -/
def patternGroup (rules : Rules) (delimiter : Delimiter) : Parser Code :=
  group delimiter (commas do return (← alternatives rules).code)

/-- A name that is introduced, and what its value has to look like. -/
def namePattern (rules : Rules) : Parser Piece := do
  let reference ← wordIf "ref"
  let mutability ← wordIf "mut"
  let introduced ← anyWord
  let inner ←
    if ← sees (·.hasMark "@") then
      let sign ← mark "@"
      pure (sign ++ (← rules.pattern).code)
    else pure []
  return ⟨reference ++ mutability ++ introduced :: inner, false⟩

/-- The pattern of a field. The name of a field alone introduces that name. -/
def fieldPattern (rules : Rules) : Parser Code := do
  let box ← wordIf "box"
  let reference ← wordIf "ref"
  let mutability ← wordIf "mut"
  let isPlain := box.isEmpty && reference.isEmpty && mutability.isEmpty
  let field ← if isPlain then member else pure ⟨← name, true⟩
  if (isPlain && (← get).hasMark ":") || !field.isNamed then
    let colon ← markIf ":"
    let label := if colon.isEmpty then [] else field.code :: colon
    return label ++ (← alternatives rules).code
  else return box ++ reference ++ mutability ++ [field.code]

/-- The patterns of fields. Dots for the others come last, and attributes of theirs
    have the whole pattern copied. -/
def fieldPatterns (rules : Rules) : (fuel : Nat) → Parser Piece
  | 0 => return ⟨[], false⟩
  | fuel + 1 => do
      if ← sees Cursor.atEnd then return ⟨[], false⟩
      let attributes ← outerAttributes
      if ← sees (·.hasMark "..") then return ⟨← mark "..", !attributes.isEmpty⟩
      let first ← fieldPattern rules
      if ← sees Cursor.atEnd then return ⟨attributes ++ first, false⟩
      let comma ← mark ","
      let others ← fieldPatterns rules fuel
      return { others with code := attributes ++ first ++ comma ++ others.code }

/-- A pattern that starts with a path. -/
def pathPattern (rules : Rules) : Parser Piece := do
  let start ← get
  let path ← path rules true
  let here ← get
  if here.hasMark ".." then rangePattern rules start path.code
  else if callsGenerator path here then return ⟨path.code ++ (← generated), false⟩
  else if here.hasGroup .curly then
    let fields ← within .curly do fieldPatterns rules (← steps)
    let stop ← get
    return if fields.isCopied || path.isQualified then ⟨between start stop, true⟩
      else ⟨path.code ++ enclosed .curly fields.code, false⟩
  else if here.hasGroup .round then
    let parts ← patternGroup rules .round
    let stop ← get
    return if path.isQualified then ⟨between start stop, true⟩ else ⟨path.code ++ parts, false⟩
  else return ⟨path.code, false⟩

/-- Whether a pattern starts with a path here. -/
def startsPathPattern (here : Cursor) : Bool :=
  let after := if here.hasName then here.next else here
  (here.hasName && (after.hasMark "::" || after.hasMark "!" || after.hasGroup .curly
      || after.hasGroup .round || after.hasMark ".."))
    || (after.hasWord "self" && after.next.hasMark "::")
    || here.hasMark "::" || here.hasMark "<" || here.hasWordOf ["Self", "super", "crate"]

/-- A pattern. -/
def pattern (rules : Rules) : Parser Piece := do
  let here ← get
  if startsPathPattern here then pathPattern rules
  else if here.hasWord "_" then return ⟨← word "_", false⟩
  else if here.hasWord "box" then
    let keyword ← word "box"
    return ⟨keyword ++ (← rules.pattern).code, false⟩
  else if here.hasMark "-" || here.hasLiteral || here.hasWord "const" then literalPattern rules
  else if here.hasWordOf ["ref", "mut", "self"] || here.hasName then namePattern rules
  else if here.hasMark "&" then
    let sign ← mark "&"
    let mutability ← wordIf "mut"
    return ⟨sign ++ mutability ++ (← rules.pattern).code, false⟩
  else if here.hasGroup .round then return ⟨← patternGroup rules .round, false⟩
  else if here.hasGroup .square then return ⟨← patternGroup rules .square, false⟩
  else if here.hasMarkNot ".." "..." then openPattern rules
  else refuseAll patternStarts

end Wireform.Derive.Grammar
