import Wireform.Derive.Grammar.Data
import Wireform.Derive.Grammar.Members

/-!
# Items

What is declared in a module or in a block, each told by its keyword, which qualifiers
can come before. What is declared without the value or the body that it should have is
copied, and so are some forms that are not settled yet.
-/

namespace Wireform.Derive.Grammar

open Wireform.Derive.Parser

/-- What an item can start with. -/
def itemKeywords : List String :=
  ["fn", "extern", "use", "static", "const", "unsafe", "mod", "type", "struct", "enum", "union",
    "trait", "auto", "impl", "default", "macro"]

/-- What a module takes over from another one. A path goes on to a name, to all names
    or to a group of further paths. -/
def useTreeFrom : (fuel : Nat) → Parser Code
  | 0 => refuseAll []
  | fuel + 1 => do
      let here ← get
      if here.hasName || here.hasWordOf ["self", "super", "crate"] then
        let first ← anyWord
        let here ← get
        if here.hasMark "::" then
          let colons ← mark "::"
          return first :: colons ++ (← useTreeFrom fuel)
        else if here.hasWord "as" then
          let keyword ← word "as"
          let here ← get
          if here.hasName || here.hasWord "_" then return first :: keyword ++ [← anyWord]
          else refuse "expected identifier or underscore"
        else return [first]
      else if here.hasMark "*" then mark "*"
      else if here.hasGroup .curly then group .curly (commas (useTreeFrom fuel))
      else refuseAll ["identifier", "`self`", "`super`", "`crate`", "`try`", "`*`", "curly braces"]

/-- What a module takes over from others. -/
def useItem : Parser Code := do
  let keyword ← word "use"
  let root ← markIf "::"
  let tree ← useTreeFrom ((Tree.codes (← get).rest).length + 1)
  return keyword ++ root ++ tree ++ (← mark ";")

/-- A variable of a module. Without a type or a value it is copied. -/
def staticItem (rules : Rules) : Parser Piece := do
  let start ← get
  let keyword ← word "static"
  let mutability ← wordIf "mut"
  let label ← name
  if ← sees (·.hasMark "=") then
    let _ ← assigned rules
    let _ ← mark ";"
    return ⟨between start (← get), true⟩
  let colon ← mark ":"
  let type ← rules.type true
  if ← sees (·.hasMark ";") then
    let _ ← mark ";"
    return ⟨between start (← get), true⟩
  let value ← assigned rules
  return ⟨keyword ++ mutability ++ label :: colon ++ type.code ++ value ++ (← mark ";"), false⟩

/-- A constant of a module. Without a value it is copied. -/
def constantItem (rules : Rules) : Parser Piece := do
  let start ← get
  let head ← constantHead rules
  if ← sees (·.hasMark ";") then
    let _ ← mark ";"
    return ⟨between start (← get), true⟩
  let value ← assigned rules
  return ⟨head ++ value ++ (← mark ";"), false⟩

/-- A module in a module. -/
def moduleItem (rules : Rules) : Parser Code := do
  let keyword ← word "mod"
  let label ← name
  let here ← get
  if here.hasMark ";" then return keyword ++ label :: (← mark ";")
  else if here.hasGroup .curly then
    let content ← group .curly do
      let attributes ← innerAttributes
      let items ← each do
        let attributes ← outerAttributes
        return attributes ++ (← rules.item).code
      return attributes ++ items.flatten
    return keyword ++ label :: content
  else refuseAll ["`;`", "curly braces"]

/-- Members in curly brackets, after the attributes that concern all of them. -/
def members (member : Parser Code) : Parser Code :=
  group .curly do
    let attributes ← innerAttributes
    return attributes ++ (← each member).flatten

/-- A block of what is defined elsewhere. -/
def foreignItem (rules : Rules) : Parser Code := do
  let convention ← conventionIf
  return convention ++ (← members (foreignMember rules))

/-- A package that is made known. -/
def packageItem : Parser Code := do
  let keyword ← word "extern"
  let kind ← word "crate"
  let label ← if ← sees (·.hasWord "self") then anyWord else name
  let other ←
    if ← sees (·.hasWord "as") then
      let preposition ← word "as"
      pure (preposition ++ [← if ← sees (·.hasWord "_") then anyWord else name])
    else pure []
  return keyword ++ kind ++ label :: other ++ (← mark ";")

/-- A trait, or another name for bounds, from the keyword on. -/
def traitItem (rules : Rules) (hasAlias : Bool) : Parser Code := do
  let keyword ← word "trait"
  let label ← name
  let generics ← generics rules
  let bound : Parser Code := return (← rules.bound).code
  let here ← get
  if hasAlias && here.hasMark "=" then
    let sign ← mark "="
    let stop (here : Cursor) := here.hasWord "where" || here.hasMark ";"
    let bounds ← listed stop "+" bound
    let conditions ← conditionsIf rules
    return keyword ++ label :: declared generics ++ sign ++ joined "+" bounds ++
      { generics with conditions := conditions }.restriction ++ (← mark ";")
  if hasAlias && !(here.hasGroup .curly || here.hasMark ":" || here.hasWord "where") then
    refuseAll ["curly braces", "`:`", "`where`", "`=`"]
  let colon ← markIf ":"
  let stop (here : Cursor) := here.hasWord "where" || here.hasGroup .curly
  let bounds ← if colon.isEmpty then pure [] else listed stop "+" bound
  let conditions ← conditionsIf rules
  return keyword ++ label :: declared generics ++
    (if bounds.isEmpty then [] else colon ++ joined "+" bounds) ++
    { generics with conditions := conditions }.restriction ++ (← members (traitMember rules))

/-- Whether generic parameters, rather than a type, stand here after the keyword of an
    implementation. -/
def startsParameters (here : Cursor) : Bool :=
  let first := here.next
  let second := first.next
  here.hasMark "<" && (first.hasMark ">" || first.hasMark "#" || first.hasWord "const"
    || ((first.hasName || first.hasLifetime)
      && (second.hasMark ":" || second.hasMark "," || second.hasMark ">" || second.hasMark "=")))

/-- An implementation, from its qualifiers on. One that is constant, and one of what is
    not the path of a trait, is copied. -/
def implementationItem (rules : Rules) : Parser Piece := do
  let start ← get
  let preset ← wordIf "default"
  let safety ← wordIf "unsafe"
  let keyword ← word "impl"
  let generics ← if ← sees startsParameters then generics rules else pure {}
  let here ← get
  let isConstant := here.hasWord "const" || (here.hasMark "?" && here.next.hasWord "const")
  if isConstant then
    let _ ← markIf "?"
    let _ ← word "const"
  let place ← get
  let polarity ← if place.hasMark "!" && !place.next.hasGroup .curly then mark "!" else pure []
  let first ← rules.type true
  let isTrait ← sees (·.hasWord "for")
  let (subject, isPath) ←
    if isTrait then
      let preposition ← word "for"
      let type ← rules.type true
      let isPath := match first.shape with
        | .path _ => true
        | _ => false
      pure (polarity ++ first.code ++ preposition ++ type.code, isPath)
    else
      let here ← get
      pure (if polarity.isEmpty then first.code else between place here, true)
  let conditions ← conditionsIf rules
  let content ← members (implementationMember rules)
  let stop ← get
  let generics := { generics with conditions := conditions }
  return if isConstant || !isPath then ⟨between start stop, true⟩
    else ⟨preset ++ safety ++ keyword ++ declared generics ++ subject ++ generics.restriction ++
      content, false⟩

/-- A generator of code that is declared by its cases. -/
def generatorItem : Parser Code := do
  let keyword ← word "macro"
  let label ← name
  let hasInput ← sees (·.hasGroup .round)
  let input ← if hasInput then anyGroup else pure []
  if ← sees (·.hasGroup .curly) then return keyword ++ label :: input ++ (← anyGroup)
  else refuseAll (if hasInput then ["curly braces"] else ["parentheses", "curly braces"])

/-- A call of a generator of code as an item. It can be given a name. -/
def generatedItem : Parser Code := do
  let path ← Path.parse
  let bang ← mark "!"
  let label ← if ← sees Cursor.hasName then pure [← name] else pure []
  let isCurly ← sees (·.hasGroup .curly)
  let content ← anyGroup
  return path.code ++ bang ++ label ++ content ++ (← if isCurly then pure [] else mark ";")

/-- Code that is copied, after what has been read from a place. -/
def copiedFrom (start : Cursor) (item : Parser Code) : Parser Piece := do
  let _ ← item
  return ⟨between start (← get), true⟩

/-- An item that starts with `unsafe`. -/
def uncheckedItem (rules : Rules) (start : Cursor) : Parser Piece := do
  let after := (← get).next
  if after.hasWord "trait" || (after.hasWord "auto" && after.next.hasWord "trait") then
    let safety ← word "unsafe"
    let kind ← wordIf "auto"
    return ⟨safety ++ kind ++ (← traitItem rules false), false⟩
  else if after.hasWord "impl" then implementationItem rules
  else
    let _ ← word "unsafe"
    if after.hasWord "extern" then copiedFrom start (foreignItem rules)
    else if after.hasWord "mod" then copiedFrom start (moduleItem rules)
    else
      refuseAll ((["trait", "auto", "impl", "extern", "mod"].filter fun keyword =>
        !after.hasWord keyword).map cited)

/-- An item that starts with `extern`. Foreign blocks cannot be given a visibility. -/
def outsideItem (rules : Rules) (isVisible : Bool) : Parser Code := do
  let after := (← get).next
  if after.hasWord "crate" then packageItem
  else if after.hasGroup .curly || (after.hasText && after.next.hasGroup .curly) then
    if isVisible then throw (.unreadable "expected `extern`")
    foreignItem rules
  else
    let _ ← word "extern"
    if after.hasText then
      let _ ← literal
      refuseAll ["curly braces"]
    else refuseAll ["`crate`", "curly braces", "string literal"]

/-- An item without its attributes. -/
def item (rules : Rules) : Parser Piece := do
  let start ← get
  let seen ← visibility
  let here ← get
  let visible (code : Code) : Piece := ⟨seen ++ code, false⟩
  let lead (piece : Piece) : Piece := { piece with code := seen ++ piece.code }
  if startsSignature here then
    let head ← signature rules
    if ← sees (·.hasMark ";") then copiedFrom start (mark ";")
    else return visible (head ++ (← body rules))
  else if here.hasWord "extern" then return visible (← outsideItem rules (!seen.isEmpty))
  else if here.hasWord "use" then return visible (← useItem)
  else if here.hasWord "static" then return lead (← staticItem rules)
  else if here.hasWord "const" then return lead (← constantItem rules)
  else if here.hasWord "unsafe" then
    let isImplementation := here.next.hasWord "impl"
    let piece ← uncheckedItem rules start
    let stop ← get
    return if piece.isCopied || (isImplementation && !seen.isEmpty) then ⟨between start stop, true⟩
      else lead piece
  else if here.hasWord "mod" then return visible (← moduleItem rules)
  else if here.hasWord "type" then
    let member ← typeMember rules false
    let stop ← get
    return if member.hasColon || member.value.isEmpty then ⟨between start stop, true⟩
      else visible member.code
  else if here.hasWord "struct" || here.hasWord "enum"
      || (here.hasWord "union" && here.next.hasName) then
    let keyword := if here.hasWord "struct" then "struct" else
      if here.hasWord "enum" then "enum" else "union"
    let (label, generics, content) ← data rules
    return visible (keyword :: label :: content.code generics)
  else if here.hasWord "trait" then return visible (← traitItem rules true)
  else if here.hasWord "auto" && here.next.hasWord "trait" then
    let kind ← word "auto"
    return visible (kind ++ (← traitItem rules false))
  else if here.hasWord "impl" || (here.hasWord "default" && !here.next.hasMark "!") then
    let piece ← implementationItem rules
    let stop ← get
    return if piece.isCopied || !seen.isEmpty then ⟨between start stop, true⟩ else piece
  else if here.hasWord "macro" then return visible (← generatorItem)
  else if seen.isEmpty && startsGenerator here then return ⟨← generatedItem, false⟩
  else
    refuseAll ((itemKeywords.filter fun keyword => !here.hasWord keyword).map cited ++
      if seen.isEmpty then generatorStarts else [])

end Wireform.Derive.Grammar
