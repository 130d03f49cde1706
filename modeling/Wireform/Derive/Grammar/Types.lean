import Wireform.Derive.Grammar.Bounds

/-!
# Types

A type is told by what it starts with. Names alone leave several cases open: they can
be a type, a call of a generator of code, or the first of several bounds. A bound in
round brackets is taken for a type in brackets until a plus sign follows it.
-/

namespace Wireform.Derive.Grammar

open Wireform.Derive.Parser

/-- What a type can start with. -/
def typeStarts : List String :=
  ["`for`", "parentheses", "`fn`", "`unsafe`", "`extern`", "identifier", "`::`", "`<`",
    "square brackets", "`*`", "`&`", "`!`", "`impl`", "`_`", "lifetime"]

/-- What a type can go on with after the lifetimes that it holds for. -/
def quantifiedStarts : List String :=
  ["identifier", "`fn`", "`unsafe`", "`extern`", "`super`", "`self`", "`Self`", "`crate`"]

/-- The account of an object type without a trait. -/
def noObjectTrait : String := "at least one trait is required for an object type"

/-- Whether a path starts here that is not taken from a type. -/
def startsNamed (here : Cursor) : Bool :=
  here.hasName || here.hasWordOf ["super", "self", "Self", "crate"]

/-- Whether the type of a function pointer starts here. -/
def startsFunction (here : Cursor) : Bool := here.hasWordOf ["fn", "unsafe", "extern"]

/-- Bounds that follow a first one, each after a plus sign. -/
def furtherBounds (rules : Rules) : Parser Code := do
  let bounds ← repeated (·.hasMark "+") do
    let plus ← mark "+"
    return plus ++ (← rules.bound).code
  return bounds.flatten

/-- The type in round brackets, a type of several parts, or bounds of which the first
    is in brackets. -/
def roundType (rules : Rules) (sums : Bool) : Parser TypeCode := do
  let (first, isWhole, isBound) ← within .round do
    let here ← get
    if here.atEnd then return (⟨[], .other⟩, true, false)
    if here.hasLifetime then
      return (⟨← traitBounds rules true noObjectTrait, .bracketed⟩, true, false)
    if here.hasMark "?" then
      let code ← traitBound rules
      return (⟨code, .bound code⟩, false, true)
    let first ← rules.type true
    if !(← sees (·.hasMark ",")) then return (first, false, false)
    let comma ← mark ","
    let others ← commas do return (← rules.type true).code
    return (⟨first.code ++ comma ++ others, .other⟩, true, false)
  if isWhole then return { first with code := enclosed .round first.code }
  if isBound then
    let others ← furtherBounds rules
    let code := enclosed .round first.code
    return ⟨code ++ others, if others.isEmpty then .bound first.code else .other⟩
  let bracketed : TypeCode := ⟨enclosed .round first.code, .bracketed⟩
  if sums && (← get).hasMark "+" then
    match first.shape with
    | .path _ => return ⟨bracketed.code ++ (← furtherBounds rules), .other⟩
    | .bound inside => return ⟨enclosed .round inside ++ (← furtherBounds rules), .other⟩
    | _ => return bracketed
  else return bracketed

/-- The calling convention of a function, if it is given. -/
def conventionIf : Parser Code := do
  if ← sees (·.hasWord "extern") then
    let keyword ← word "extern"
    return keyword ++ (← if ← sees Cursor.hasText then literal else pure [])
  else return []

/-- A parameter of a function pointer, and whether it is the function's own object
    that can be changed, which no function pointer has. -/
def pointerParameter (rules : Rules) : Parser Piece := do
  let here ← get
  let isNamed := (here.hasName || here.hasWordOf ["_", "self"]) && here.next.hasMarkNot ":" "::"
  let isObject := here.hasWord "mut" && here.next.hasWord "self"
    && here.next.next.hasMarkNot ":" "::"
  let label ←
    if isNamed then
      let label ← anyWord
      pure (label :: (← mark ":"))
    else if isObject then
      let change ← word "mut"
      let object ← word "self"
      pure (change ++ object ++ (← mark ":"))
    else pure []
  if !isObject && (← get).hasMark "..." then return ⟨label ++ (← mark "..."), false⟩
  else return ⟨label ++ (← rules.type true).code, isObject⟩

/-- The parameters of a function pointer. Dots for further ones come last. -/
def pointerParameters (rules : Rules) : (fuel : Nat) → Parser Piece
  | 0 => return ⟨[], false⟩
  | fuel + 1 => do
      if ← sees Cursor.atEnd then return ⟨[], false⟩
      let attributes ← outerAttributes
      if ← sees (·.hasMark "...") then return ⟨attributes ++ (← mark "..."), false⟩
      let first ← pointerParameter rules
      if ← sees Cursor.atEnd then return { first with code := attributes ++ first.code }
      let comma ← mark ","
      let others ← pointerParameters rules fuel
      return ⟨attributes ++ first.code ++ comma ++ others.code, first.isCopied || others.isCopied⟩

/-- The type of a function pointer. -/
def functionType (rules : Rules) : Parser Piece := do
  let safety ← wordIf "unsafe"
  let convention ← conventionIf
  let keyword ← word "fn"
  let parameters ← within .round do pointerParameters rules (← steps)
  let (_, output) ← result rules false
  return ⟨safety ++ convention ++ keyword ++ enclosed .round parameters.code ++ output,
    parameters.isCopied⟩

/-- The path of a type, to which arguments in round brackets can be added as often as
    further names allow. -/
def typePathFrom (rules : Rules) : (fuel : Nat) → PathCode → Parser PathCode
  | 0, path => return path
  | fuel + 1, path => do
      if !(path.isOpen && startsRound (← get)) then return path
      let _ ← markIf "::"
      let (arguments, goesOn) ← roundArguments rules
      let path := path.withRound arguments
      if !goesOn then return path
      let others ← furtherSegments rules false pathGoesOn
      typePathFrom rules fuel { path with segments := path.segments ++ others }

/-- The path of a type. -/
def typePath (rules : Rules) : Parser PathCode := do
  typePathFrom rules (← steps) (← path rules false)

/-- Bounds after a first one that is a path, of which a plus sign can be the last. -/
def boundsAfterPath (rules : Rules) (sums : Bool) : Parser Code := do
  if sums && (← get).hasMark "+" then
    let plus ← mark "+"
    if ← sees startsBound then
      return plus ++ sumOf (← boundsFrom rules true (← steps))
    else return plus
  else return []

/-- A type that starts with a path. `lifetimes` come before it. -/
def namedType (rules : Rules) (sums : Bool) (lifetimes : Code) : Parser TypeCode := do
  let path ← typePath rules
  if path.isQualified then return ⟨path.code, .other⟩
  if callsGenerator path (← get) then return ⟨path.code ++ (← generated), .other⟩
  let first := lifetimes ++ path.code
  let others ← boundsAfterPath rules sums
  if !others.isEmpty then return ⟨first ++ others, .other⟩
  if lifetimes.isEmpty then return ⟨first, path.shape⟩
  return ⟨first, .bound first⟩

/-- An object type. With a star it is copied. -/
def objectType (rules : Rules) (sums : Bool) : Parser TypeCode := do
  let start ← get
  let keyword ← word "dyn"
  let star ← markIf "*"
  let bounds ← traitBounds rules sums noObjectTrait
  if star.isEmpty then return ⟨keyword ++ bounds, .other⟩
  else return ⟨between start (← get), .other⟩

/-- A type in square brackets, with or without a length. -/
def squareType (rules : Rules) : Parser TypeCode := do
  let code ← group .square do
    let element ← rules.type true
    if ← sees (·.hasMark ";") then
      let semicolon ← mark ";"
      return element.code ++ semicolon ++ (← rules.expression true).code
    else return element.code
  return ⟨code, .other⟩

/-- A type. -/
def type (rules : Rules) (sums : Bool) : Parser TypeCode := do
  let start ← get
  let lifetimes ← boundLifetimesIf
  let here ← get
  if !lifetimes.isEmpty then
    if here.hasWord "dyn" then refuseAll []
    if !(startsNamed here || startsFunction here) then refuseAll quantifiedStarts
  if here.hasGroup .round then roundType rules sums
  else if startsFunction here then
    let function ← functionType rules
    let stop ← get
    return ⟨if function.isCopied then between start stop else lifetimes ++ function.code, .other⟩
  else if here.hasWord "dyn" then objectType rules sums
  else if startsNamed here || here.hasMark "::" || here.hasMark "<" then
    namedType rules sums lifetimes
  else if here.hasGroup .square then squareType rules
  else if here.hasMark "*" then
    let star ← mark "*"
    let here ← get
    if here.hasWord "const" || here.hasWord "mut" then
      let kind ← anyWord
      return ⟨star ++ kind :: (← rules.type false).code, .other⟩
    else refuseAll ["`const`", "`mut`"]
  else if here.hasMark "&" then
    let sign ← mark "&"
    let lifetime ← lifetimeIf
    let mutability ← wordIf "mut"
    return ⟨sign ++ lifetime ++ mutability ++ (← rules.type false).code, .other⟩
  else if here.hasMark "!" then return ⟨← mark "!", .other⟩
  else if here.hasWord "impl" then
    let keyword ← word "impl"
    return ⟨keyword ++ (← traitBounds rules sums "at least one trait must be specified"), .other⟩
  else if here.hasWord "_" then return ⟨← word "_", .other⟩
  else if here.hasLifetime then return ⟨← traitBounds rules true noObjectTrait, .other⟩
  else refuseAll typeStarts

end Wireform.Derive.Grammar
