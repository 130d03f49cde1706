import Wireform.Derive.Numeral
import Wireform.Derive.Tree

/-!
# Places in a declaration

A cursor is a place in a list of trees, told by what is left of the list. What
stands at a place is asked by its spelling: marks of several characters have to be
joined, and a lifetime is one thing although it is two trees.
-/

namespace Wireform.Derive

/-- Words that cannot be names. -/
def keywords : List String :=
  ["_", "abstract", "as", "become", "box", "break", "const", "continue", "crate", "do", "else",
    "enum", "extern", "false", "final", "fn", "for", "if", "impl", "in", "let", "loop", "macro",
    "match", "mod", "move", "mut", "override", "priv", "pub", "ref", "return", "Self", "self",
    "static", "struct", "super", "trait", "true", "type", "typeof", "unsafe", "unsized", "use",
    "virtual", "where", "while", "yield"]

/-- Whether a word is a name. -/
def isName (word : String) : Bool := !keywords.contains word

/-- A place in a list of trees. -/
structure Cursor where
  rest : List Tree
  /-- Whether something was left unread in a group before this place. -/
  leftOver : Bool := false

namespace Cursor

/-- What follows joined marks at the front of a list. -/
def dropMarks? : List Char → List Tree → Option (List Tree)
  | [], rest => some rest
  | [char], .atom (.mark actual _) :: rest =>
      if actual = char && char ≠ '\'' then some rest else none
  | char :: more, .atom (.mark actual true) :: rest =>
      if actual = char then dropMarks? more rest else none
  | _, _ => none

/-- Whether nothing is left of the list. -/
def atEnd (cursor : Cursor) : Bool := cursor.rest.isEmpty

/-- Whether a mark stands here. -/
def hasMark (text : String) (cursor : Cursor) : Bool :=
  (dropMarks? text.toList cursor.rest).isSome

/-- Whether a certain word stands here. -/
def hasWord (word : String) (cursor : Cursor) : Bool :=
  match cursor.rest with
  | .atom (.word actual) :: _ => actual = word
  | _ => false

/-- Whether one of several words stands here. -/
def hasWordOf (words : List String) (cursor : Cursor) : Bool :=
  words.any fun word => cursor.hasWord word

/-- Whether any word stands here. -/
def hasAnyWord (cursor : Cursor) : Bool :=
  match cursor.rest with
  | .atom (.word _) :: _ => true
  | _ => false

/-- Whether a name stands here. -/
def hasName (cursor : Cursor) : Bool :=
  match cursor.rest with
  | .atom (.word actual) :: _ => isName actual
  | _ => false

/-- Whether a lifetime stands here. -/
def hasLifetime (cursor : Cursor) : Bool :=
  match cursor.rest with
  | .atom (.mark '\'' _) :: .atom (.word _) :: _ => true
  | _ => false

/-- Whether a group stands here. -/
def hasGroup (delimiter : Delimiter) (cursor : Cursor) : Bool :=
  match cursor.rest with
  | .group actual _ :: _ => actual = delimiter
  | _ => false

/-- What follows a literal at the front of a list, and its code. A number can be
    negative. -/
def dropLiteral? : List Tree → Option (Code × List Tree)
  | .atom (.literal spelling) :: rest => some ([spelling], rest)
  | .atom (.word word) :: rest =>
      if word = "true" || word = "false" then some ([word], rest) else none
  | .atom (.mark '-' _) :: .atom (.literal spelling) :: rest =>
      if Numeral.isNumber spelling then some (["-", spelling], rest) else none
  | _ => none

/-- Whether a literal stands here. -/
def hasLiteral (cursor : Cursor) : Bool := (dropLiteral? cursor.rest).isSome

/-- The spelling of the literal that stands here, without a sign. -/
def spelling? (cursor : Cursor) : Option String :=
  (dropLiteral? cursor.rest).bind fun found => found.1.getLast?

/-- Whether a text stands here. -/
def hasText (cursor : Cursor) : Bool :=
  match cursor.rest with
  | .atom (.literal spelling) :: _ => spelling.startsWith "\x22" || spelling.startsWith "r"
  | _ => false

/-- Whether a whole number stands here. -/
def hasWhole (cursor : Cursor) : Bool := cursor.spelling?.any Numeral.isWhole

/-- Whether a fraction stands here. -/
def hasFraction (cursor : Cursor) : Bool := cursor.spelling?.any Numeral.isFraction

/-- The place after the next thing, be it a tree or a lifetime. -/
def next (cursor : Cursor) : Cursor :=
  match cursor.rest with
  | .atom (.mark '\'' _) :: .atom (.word _) :: rest => { cursor with rest := rest }
  | .atom (.mark '\'' _) :: _ => { cursor with rest := [] }
  | _ :: rest => { cursor with rest := rest }
  | [] => cursor

/-- Whether a mark stands here that the start of a longer one could be taken for. -/
def hasMarkNot (text longer : String) (cursor : Cursor) : Bool :=
  cursor.hasMark text && !cursor.hasMark longer

end Cursor

end Wireform.Derive
