import Wireform.Derive.Token.Spelling

/-!
# Literals of attributes

Of the literals only texts matter: their spelling is copied and their value is
compared. All others are kept apart merely to be refused.
-/

namespace Wireform.Derive

/-- A text, as it is spelled and what it says. -/
structure TextLiteral where
  spelling : String
  value : String
deriving DecidableEq, Repr

/-- What an attribute can be given as a value. -/
inductive Literal
  | text (text : TextLiteral)
  | other
deriving DecidableEq, Repr

namespace TextLiteral

/-- A text as it is spelled without need. -/
def ofText (text : String) : TextLiteral := ⟨Text.Quoted.literal text, text⟩

/-- The character with a number. -/
def coded (number : Option Nat) : Char := Char.ofNat (number.getD 0)

/-- The number that hexadecimal digits stand for. Underscores between them are
    passed over. -/
def codeOf (digits : List Char) : Option Nat :=
  digits.foldlM
    (fun number digit =>
      if digit = '_' then some number else (Text.Hex.value? digit).map (16 * number + ·))
    0

/-- Blanks that a backslash at the end of a line takes away. -/
def isJoined (char : Char) : Bool := " \t\n\r".toList.contains char

/-- What the inside of a text says up to the quotation mark that ends it. A
    backslash at the end of a line joins the lines and drops the blanks between
    them. -/
def unescape : (fuel : Nat) → (joining : Bool) → List Char → List Char
  | 0, _, _ => []
  | _, _, [] => []
  | fuel + 1, joining, char :: rest =>
      if joining && isJoined char then unescape fuel true rest
      else if char = '\x22' then []
      else
        match char, rest with
        | '\\', 'x' :: high :: low :: rest => coded (codeOf [high, low]) :: unescape fuel false rest
        | '\\', 'u' :: rest =>
            let (digits, rest) := rest.span (· != '\x7d')
            coded (codeOf (digits.drop 1)) :: unescape fuel false (rest.drop 1)
        | '\\', '\n' :: rest => unescape fuel true rest
        | '\\', '\r' :: rest => unescape fuel true rest
        | '\\', 'n' :: rest => '\n' :: unescape fuel false rest
        | '\\', 'r' :: rest => '\r' :: unescape fuel false rest
        | '\\', 't' :: rest => '\t' :: unescape fuel false rest
        | '\\', '0' :: rest => '\x00' :: unescape fuel false rest
        | '\\', escaped :: rest => escaped :: unescape fuel false rest
        | '\r', '\n' :: rest => '\n' :: unescape fuel false rest
        | char, rest => char :: unescape fuel false rest

/-- What a text without escapes says: all between its first and its last quotation
    mark. -/
def rawValue (text : List Char) : List Char :=
  let inside := (text.dropWhile (· ≠ '\x22')).drop 1
  ((inside.reverse.dropWhile (· ≠ '\x22')).drop 1).reverse

/-- What a literal says if it is a text. -/
def value? (spelling : String) : Option String :=
  match spelling.toList with
  | '\x22' :: body => some (String.ofList (unescape body.length false body))
  | 'r' :: rest => some (String.ofList (rawValue rest))
  | _ => none

end TextLiteral

/-- The literal with a spelling. -/
def Literal.ofSpelling (spelling : String) : Literal :=
  match TextLiteral.value? spelling with
  | some value => .text ⟨spelling, value⟩
  | none => .other

end Wireform.Derive
