import Wireform.Derive.Parser

/-!
# Plain paths

Paths of names alone, as they lead to modules, attributes and the generators of
code. Some keywords are names in them; in the list of an attribute every word is.
-/

namespace Wireform.Derive

open Wireform.Derive.Parser

/-- A path of names. -/
structure Path where
  rooted : Bool
  segments : List String
deriving DecidableEq, Repr

namespace Path

/-- Whether a path is nothing but one name. -/
def is (path : Path) (name : String) : Bool :=
  !path.rooted && path.segments = [name]

/-- A path as code. -/
def code (path : Path) : Code :=
  (if path.rooted then [":", ":"] else []) ++
    List.flatten ((path.segments.map fun name => [name]).intersperse [":", ":"])

/-- Whether a name of a path stands at a place. -/
def startsAt (here : Cursor) : Bool :=
  here.hasName || here.hasWordOf ["super", "self", "Self", "crate"]

/-- Reads the names of a path, each told by a test. -/
def parseFrom (test : Cursor → Bool) : (fuel : Nat) → Parser (List (Listed String))
  | 0 => return []
  | fuel + 1 => do
      if !(← sees test) then return []
      let first ← anyWord
      if !(← sees (·.hasMark "::")) then return [(first, false)]
      let _ ← mark "::"
      return (first, true) :: (← parseFrom test fuel)

/-- Reads a path with names that are told by a test. -/
def parseWith (test : Cursor → Bool) : Parser Path := do
  let root ← markIf "::"
  let names ← parseFrom test (← steps)
  match names.getLast? with
  | none => refuse "expected path"
  | some (_, true) => refuse "expected path segment"
  | some (_, false) => return ⟨!root.isEmpty, names.map Prod.fst⟩

/-- Reads a path. -/
def parse : Parser Path := parseWith startsAt

end Path

/-- An attribute as it is written. -/
structure AttributeCode where
  path : Path
  /-- What follows the path. -/
  rest : List Tree
  code : Code

namespace AttributeCode

/-- Reads an attribute, from the number sign on. An inner one has an exclamation mark
    there. -/
def parse (isInner : Bool) : Parser AttributeCode := do
  let start ← get
  let _ ← mark "#"
  let _ ← if isInner then mark "!" else pure []
  let (path, rest) ← within .square do
    let path ← Path.parse
    return (path, ← remainder)
  return ⟨path, rest, between start (← get)⟩

/-- Reads the attributes of what follows them. -/
def parseOuter : Parser (List AttributeCode) := repeated (·.hasMark "#") (parse false)

/-- Reads the attributes of what they stand in. -/
def parseInner : Parser (List AttributeCode) :=
  repeated (fun here => here.hasMark "#" && here.next.hasMark "!") (parse true)

end AttributeCode

/-- Reads attributes in front of something as code. -/
def outerAttributes : Parser Code := return (← AttributeCode.parseOuter).flatMap (·.code)

/-- Reads attributes at the start of a block as code. -/
def innerAttributes : Parser Code := return (← AttributeCode.parseInner).flatMap (·.code)

/-- Reads how far a declaration can be seen. Brackets restrict that, unless they hold
    what could be a type. -/
def visibility : Parser Code := do
  let here ← get
  if here.hasWord "pub" then
    let keyword ← word "pub"
    match (← get).rest with
    | .group .round content :: _ =>
        let inside : Cursor := ⟨content, false⟩
        if inside.hasWordOf ["crate", "self", "super"] && inside.next.atEnd then
          return keyword ++ (← anyGroup)
        else if inside.hasWord "in" then
          return keyword ++ (← group .round do
            let restriction ← word "in"
            return restriction ++ (← Path.parse).code)
        else return keyword
    | _ => return keyword
  else if here.hasWord "crate" && !here.next.hasMark "::" then word "crate"
  else return []

/-- Reads a name or a bare underscore. -/
def nameOrBlank : Parser String := do
  let here ← get
  if here.hasName || here.hasWord "_" then anyWord else refuseAll ["identifier", cited "_"]

end Wireform.Derive
