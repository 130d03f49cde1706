import Wireform.Derive.Token.Scan

/-!
# Bracketed tokens

Tokens are gathered into trees: round, square and curly brackets enclose a list of
trees each, and everything else is an atom. Angle brackets are ordinary marks,
because only the grammar tells them from comparisons.
-/

namespace Wireform.Derive

/-- The brackets that always come in pairs. -/
inductive Delimiter
  | round
  | square
  | curly
deriving DecidableEq, Repr

namespace Delimiter

/-- The bracket that opens a group. -/
def opening : Delimiter → Char
  | .round => '('
  | .square => '['
  | .curly => '\x7b'

/-- The bracket that closes a group. -/
def closing : Delimiter → Char
  | .round => ')'
  | .square => ']'
  | .curly => '\x7d'

/-- The group that a character opens. -/
def opened? (char : Char) : Option Delimiter :=
  [.round, .square, .curly].find? fun delimiter => delimiter.opening = char

/-- The group that a character closes. -/
def closed? (char : Char) : Option Delimiter :=
  [.round, .square, .curly].find? fun delimiter => delimiter.closing = char

end Delimiter

/-- A token, or a bracketed list of trees. -/
inductive Tree
  | atom (token : Token)
  | group (delimiter : Delimiter) (content : List Tree)

/-- Text of generated or quoted declarations, token by token. -/
abbrev Code := List String

mutual

/-- The tokens of a tree as text. -/
def Tree.code : Tree → Code
  | .atom token => [token.text]
  | .group delimiter content =>
      String.ofList [delimiter.opening] :: Tree.codes content ++ [String.ofList [delimiter.closing]]

/-- The tokens of a list of trees as text. -/
def Tree.codes : List Tree → Code
  | [] => []
  | tree :: rest => tree.code ++ Tree.codes rest

end

namespace Tree

/-- Gathers tokens into trees. The open groups are kept innermost first, each with
    the trees before it in reverse; `current` holds the trees of the innermost one.
    Nothing if brackets do not match. -/
def gather : List Token → (enclosing : List (Delimiter × List Tree)) → (current : List Tree) →
    Option (List Tree)
  | [], [], current => some current.reverse
  | [], _ :: _, _ => none
  | .mark char joined :: rest, enclosing, current =>
      match Delimiter.opened? char, Delimiter.closed? char, enclosing with
      | some delimiter, _, _ => gather rest ((delimiter, current) :: enclosing) []
      | none, some delimiter, (innermost, before) :: outer =>
          if innermost = delimiter then
            gather rest outer (.group delimiter current.reverse :: before)
          else none
      | none, some _, [] => none
      | none, none, _ => gather rest enclosing (.atom (.mark char joined) :: current)
  | token :: rest, enclosing, current => gather rest enclosing (.atom token :: current)

/-- The trees of a text, unless something in it is not closed. -/
def scan (text : String) : Option (List Tree) := do
  gather (← Token.scan text) [] []

end Tree

end Wireform.Derive
