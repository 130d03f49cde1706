import Wireform.Derive.Grammar.Paths

/-!
# Bounds

A bound is a lifetime or the path of a trait, perhaps for any choice of lifetimes and
perhaps in round brackets. Lifetimes that are introduced keep their colon only if
bounds follow it.
-/

namespace Wireform.Derive.Grammar

open Wireform.Derive.Parser

/-- A lifetime that is introduced, without its attributes. -/
def lifetimeParameter : Parser Code := do
  let start ← lifetime
  if ← sees (·.hasMark ":") then
    let colon ← mark ":"
    let bounds ← chained (fun here => here.hasMark "," || here.hasMark ">") "+" lifetime
    return start ++ if bounds.isEmpty then [] else colon ++ joined "+" bounds
  else return start

/-- The lifetimes that something holds for. -/
def boundLifetimes : Parser Code := do
  let keyword ← word "for"
  let opening ← mark "<"
  let lifetimes ← listed (·.hasMark ">") "," do
    let attributes ← outerAttributes
    return attributes ++ (← lifetimeParameter)
  return keyword ++ opening ++ joined "," lifetimes ++ (← mark ">")

/-- The lifetimes that something holds for, if they are given. -/
def boundLifetimesIf : Parser Code := do
  if ← sees (·.hasWord "for") then boundLifetimes else return []

/-- Whether a bound on constant evaluation stands here. -/
def startsTilde (here : Cursor) : Bool := here.hasMark "~" && here.next.hasWord "const"

/-- A trait as a bound. -/
def traitBound (rules : Rules) : Parser Code := do
  let tilde ←
    if ← sees startsTilde then
      let sign ← mark "~"
      pure (sign ++ (← word "const"))
    else pure []
  let question ← markIf "?"
  let lifetimes ← boundLifetimesIf
  let path ← simplePath rules false
  let path ←
    if path.isOpen && startsRound (← get) then
      let _ ← markIf "::"
      pure (path.withRound (← roundArguments rules).1)
    else pure path
  return tilde ++ question ++ lifetimes ++ path.code

/-- A bound. -/
def bound (rules : Rules) : Parser Bound := do
  let here ← get
  if here.hasLifetime then
    let code ← lifetime
    return { code := code, isLifetime := true, inside := code }
  else if here.hasGroup .round then
    let inside ← within .round (traitBound rules)
    return { code := enclosed .round inside, inside := inside }
  else
    let code ← traitBound rules
    return { code := code, inside := code }

/-- Whether a bound can start here. -/
def startsBound (here : Cursor) : Bool :=
  here.hasAnyWord || here.hasMark "::" || here.hasMark "?" || here.hasLifetime
    || here.hasGroup .round || here.hasMark "~"

/-- Bounds with plus signs between them, only one if sums are not allowed. -/
def boundsFrom (rules : Rules) (sums : Bool) : (fuel : Nat) → Parser (List (Listed Bound))
  | 0 => return []
  | fuel + 1 => do
      let first ← rules.bound
      if !(sums && (← get).hasMark "+") then return [(first, false)]
      let _ ← mark "+"
      if !(← sees startsBound) then return [(first, true)]
      return (first, true) :: (← boundsFrom rules sums fuel)

/-- Code of bounds with plus signs between them. -/
def sumOf (bounds : List (Listed Bound)) : Code :=
  joined "+" (bounds.map fun entry => (entry.1.code, entry.2))

/-- Bounds of which one at least must be a trait. -/
def traitBounds (rules : Rules) (sums : Bool) (account : String) : Parser Code := do
  let bounds ← boundsFrom rules sums (← steps)
  if bounds.all fun entry => entry.1.isLifetime then throw (.unreadable account)
  return sumOf bounds

/-- Bounds up to a place that stops them. -/
def boundsUntil (rules : Rules) (stop : Cursor → Bool) : Parser Code := do
  return joined "+" (← chained stop "+" do return (← rules.bound).code)

end Wireform.Derive.Grammar
