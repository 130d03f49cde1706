import Wireform.Derive.Cursor

/-!
# Reading trees

A parser reads from a place and goes on to another, or fails with an account of what
it expected. Most accounts say first when a list has come to its end; those of marks
do not. What is left unread in a group does no harm at once, so that a more telling
fault can still arise; `Parser.complete` reports it at the end.
-/

namespace Wireform.Derive

/-- Reads something from a place in a list of trees. -/
abbrev Parser := StateT Cursor (Except Fault)

namespace Parser

/-- Fails with an account, which says so if the list has come to its end. -/
def refuse {α : Type} (account : String) : Parser α := do
  throw (.unreadable (if (← get).atEnd then "unexpected end of input, " ++ account else account))

/-- A spelling as accounts give it. -/
def cited (spelling : String) : String := "`" ++ spelling ++ "`"

/-- Fails because something other than one of several things stands here. -/
def refuseAll {α : Type} (names : List String) : Parser α := do
  match names with
  | [] =>
      throw (.unreadable (if (← get).atEnd then "unexpected end of input" else "unexpected token"))
  | [name] => refuse ("expected " ++ name)
  | [name, other] => refuse ("expected " ++ name ++ " or " ++ other)
  | names => refuse ("expected one of: " ++ ", ".intercalate names)

/-- Whether something stands here. -/
def sees (test : Cursor → Bool) : Parser Bool := return test (← get)

/-- Reads marks, which must be joined. -/
def mark (text : String) : Parser Code := do
  let here ← get
  match Cursor.dropMarks? text.toList here.rest with
  | some rest =>
      set { here with rest := rest }
      return text.toList.map fun char => String.ofList [char]
  | none => throw (.unreadable ("expected " ++ cited text))

/-- Reads marks if they stand here. -/
def markIf (text : String) : Parser Code := do
  if ← sees (·.hasMark text) then mark text else return []

/-- Reads any word. -/
def anyWord : Parser String := do
  let here ← get
  match here.rest with
  | .atom (.word word) :: rest =>
      set { here with rest := rest }
      return word
  | _ => refuse "expected ident"

/-- Reads a certain word. -/
def word (expected : String) : Parser Code := do
  if ← sees (·.hasWord expected) then return [← anyWord]
  else refuse ("expected " ++ cited expected)

/-- Reads a certain word if it stands here. -/
def wordIf (expected : String) : Parser Code := do
  if ← sees (·.hasWord expected) then word expected else return []

/-- Reads a name. -/
def name : Parser String := do
  if ← sees Cursor.hasName then anyWord else refuse "expected identifier"

/-- Reads a lifetime. -/
def lifetime : Parser Code := do
  let here ← get
  match here.rest with
  | .atom (.mark '\'' _) :: .atom (.word word) :: rest =>
      set { here with rest := rest }
      return ["'", word]
  | _ => refuse "expected lifetime"

/-- Reads a lifetime if one stands here. -/
def lifetimeIf : Parser Code := do
  if ← sees Cursor.hasLifetime then lifetime else return []

/-- Reads a literal. -/
def literal : Parser Code := do
  let here ← get
  match Cursor.dropLiteral? here.rest with
  | some (code, rest) =>
      set { here with rest := rest }
      return code
  | none => refuse "expected literal"

/-- Reads a position, and settles how it is written. -/
def position : Parser String := do
  match (← get).rest with
  | .atom (.literal spelling) :: _ =>
      let number ← Numeral.position spelling
      let _ ← literal
      return toString number
  | .atom (.mark '-' _) :: .atom (.literal spelling) :: _ =>
      let _ ← Numeral.position spelling
      throw (.unreadable "invalid digit found in string")
  | _ => refuse "expected integer literal"

/-- The name or the position of a field. -/
structure Member where
  code : String
  isNamed : Bool

/-- Reads a name or a position. -/
def member : Parser Member := do
  let here ← get
  if here.hasName then return ⟨← name, true⟩
  else if here.hasWhole then return ⟨← position, false⟩
  else refuse "expected identifier or integer"

/-- What a group that is not there is called. -/
def groupName : Delimiter → String
  | .round => "parentheses"
  | .square => "square brackets"
  | .curly => "curly braces"

/-- Reads what a group holds. Trees that are left in it are left over. -/
def within {α : Type} (delimiter : Delimiter) (inside : Parser α) : Parser α := do
  let here ← get
  match here.rest with
  | .group actual content :: rest =>
      if actual = delimiter then
        let (found, last) ← inside ⟨content, here.leftOver⟩
        set (⟨rest, last.leftOver || !last.atEnd⟩ : Cursor)
        return found
      else refuse ("expected " ++ groupName delimiter)
  | _ => refuse ("expected " ++ groupName delimiter)

/-- Code in the brackets of a group. -/
def enclosed (delimiter : Delimiter) (code : Code) : Code :=
  String.ofList [delimiter.opening] :: code ++ [String.ofList [delimiter.closing]]

/-- Reads a group with its brackets. -/
def group (delimiter : Delimiter) (inside : Parser Code) : Parser Code := do
  return enclosed delimiter (← within delimiter inside)

/-- Reads all that is left. -/
def remainder : Parser (List Tree) := do
  let here ← get
  set { here with rest := [] }
  return here.rest

/-- Reads any group as it stands. -/
def anyGroup : Parser Code := do
  let here ← get
  match here.rest with
  | .group delimiter content :: rest =>
      set { here with rest := rest }
      return (Tree.group delimiter content).code
  | _ => refuse "expected delimiter"

/-- The trees between two places of one list, as they stand. -/
def between (start stop : Cursor) : Code :=
  Tree.codes (start.rest.take (start.rest.length - stop.rest.length))

/-- Reads something of which only the trees matter. -/
def copied {α : Type} (inside : Parser α) : Parser Code := do
  let start ← get
  let _ ← inside
  return between start (← get)

/-- Where something would end that could be read here. -/
def ahead {α : Type} (inside : Parser α) : Parser (Option (α × Cursor)) := do
  match inside { (← get) with leftOver := false } with
  | .ok found => return some found
  | .error _ => return none

/-- Goes on to a place that `ahead` has found. -/
def advance (target : Cursor) : Parser Unit :=
  modify fun here => ⟨target.rest, here.leftOver || target.leftOver⟩

/-- Something in a list, and whether a separator follows it. -/
abbrev Listed (α : Type) := α × Bool

/-- The steps that a list can take from here: one for each tree, and one to end it. -/
def steps : Parser Nat := return (← get).rest.length + 1

/-- Reads things with separators between them up to a place that stops them; a
    separator can come last. -/
def listedFrom {α : Type} (stop : Cursor → Bool) (separator : String) (item : Parser α) :
    (fuel : Nat) → Parser (List (Listed α))
  | 0 => return []
  | fuel + 1 => do
      if ← sees stop then return []
      let first ← item
      if ← sees stop then return [(first, false)]
      let _ ← mark separator
      return (first, true) :: (← listedFrom stop separator item fuel)

/-- Reads things with separators between them up to a place that stops them. -/
def listed {α : Type} (stop : Cursor → Bool) (separator : String) (item : Parser α) :
    Parser (List (Listed α)) := do
  listedFrom stop separator item (← steps)

/-- Reads things for as long as separators go on, unless a place stops them. -/
def chainedFrom {α : Type} (stop : Cursor → Bool) (separator : String) (item : Parser α) :
    (fuel : Nat) → Parser (List (Listed α))
  | 0 => return []
  | fuel + 1 => do
      if ← sees stop then return []
      let first ← item
      if !(← sees (·.hasMark separator)) then return [(first, false)]
      let _ ← mark separator
      return (first, true) :: (← chainedFrom stop separator item fuel)

/-- Reads things for as long as separators go on, unless a place stops them. -/
def chained {α : Type} (stop : Cursor → Bool) (separator : String) (item : Parser α) :
    Parser (List (Listed α)) := do
  chainedFrom stop separator item (← steps)

/-- Reads things for as long as a test holds. -/
def repeatedFrom {α : Type} (test : Cursor → Bool) (item : Parser α) :
    (fuel : Nat) → Parser (List α)
  | 0 => return []
  | fuel + 1 => do
      if !(← sees test) then return []
      let first ← item
      return first :: (← repeatedFrom test item fuel)

/-- Reads things for as long as a test holds. -/
def repeated {α : Type} (test : Cursor → Bool) (item : Parser α) : Parser (List α) := do
  repeatedFrom test item (← steps)

/-- Reads things up to the end of the list. -/
def each {α : Type} (item : Parser α) : Parser (List α) := repeated (!·.atEnd) item

/-- Code of things with their separators. -/
def joined (separator : String) (items : List (Listed Code)) : Code :=
  items.flatMap fun entry => entry.1 ++ if entry.2 then [separator] else []

/-- Reads code with commas between its parts, up to the end of the list. -/
def commas (item : Parser Code) : Parser Code := do
  return joined "," (← listed Cursor.atEnd "," item)

/-- What a parser finds in a whole list of trees. -/
def complete {α : Type} (whole : Parser α) (trees : List Tree) : Reading α :=
  match whole ⟨trees, false⟩ with
  | .error fault => .error fault
  | .ok (found, last) =>
      if last.leftOver || !last.atEnd then .error (.unreadable "unexpected token") else .ok found

/-- What a parser finds in a text. -/
def completeText {α : Type} (whole : List Tree → Reading α) (text : String) : Reading α :=
  match Tree.scan text with
  | some trees => whole trees
  | none => .error (.unreadable "lex error")

end Parser

end Wireform.Derive
