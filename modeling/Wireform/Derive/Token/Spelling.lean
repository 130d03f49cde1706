import Wireform.Derive.Token
import Wireform.Text.Hex

/-!
# How literals are spelled

Each function takes a text and yields what follows the literal, or the part of one,
at its front; nothing if there is none. Texts, texts of octets and texts that end in
a zero octet differ in the characters and escapes that they admit. A number is a
fraction if it can be read as one and a whole number otherwise, and after any
literal a word can follow at once and belongs to it.
-/

namespace Wireform.Derive.Spelling

/-- What a literal in quotes holds. -/
inductive Content
  | text
  | octets
  | terminated
deriving DecidableEq, Repr

namespace Content

/-- Characters that stand for themselves. -/
def admits (content : Content) (char : Char) : Bool :=
  match content with
  | .text => true
  | .octets => char.toNat < 128
  | .terminated => char ≠ '\x00'

/-- Escapes of a single character. -/
def escapes (content : Content) (char : Char) : Bool :=
  "nrt\\'\x22".toList.contains char || (char = '0' && content ≠ .terminated)

/-- Escapes by two digits. A text has only the numbers of ASCII. -/
def admitsPair (content : Content) (high low : Char) : Bool :=
  (Text.Hex.value? low).isSome &&
    match content with
    | .text => '0' ≤ high && high ≤ '7'
    | .octets => (Text.Hex.value? high).isSome
    | .terminated => (Text.Hex.value? high).isSome && !(high = '0' && low = '0')

/-- Escapes by the number of a character. -/
def admitsNumber (content : Content) (number : Nat) : Bool :=
  number.isValidChar &&
    match content with
    | .text => true
    | .octets => false
    | .terminated => number ≠ 0

end Content

/-- What follows a word, if the text starts with one. -/
def word? : List Char → Option (List Char)
  | char :: rest =>
      if Text.Identifier.starts char then some (rest.dropWhile Text.Identifier.continues) else none
  | [] => none

/-- What follows the word that ends a literal. -/
def dropSuffix (text : List Char) : List Char := (word? text).getD text

/-- What follows the digits of a number in curly brackets, and the number. There are
    at most six of them, and underscores between. -/
def number? : (digits number : Nat) → List Char → Option (Nat × List Char)
  | _, _, [] => none
  | digits, number, char :: rest =>
      match Text.Hex.value? char with
      | some digit => if digits = 6 then none else number? (digits + 1) (16 * number + digit) rest
      | none =>
          if digits = 0 then none
          else if char = '_' then number? digits number rest
          else if char = '\x7d' then some (number, rest)
          else none

/-- What follows an escape, from the character after the backslash on. -/
def escape? (content : Content) : List Char → Option (List Char)
  | 'x' :: high :: low :: rest => if content.admitsPair high low then some rest else none
  | 'u' :: '\x7b' :: rest => do
      let (number, rest) ← number? 0 0 rest
      if content.admitsNumber number then some rest else none
  | char :: rest => if content.escapes char then some rest else none
  | [] => none

/-- What follows the blanks after a line break that a backslash has taken away.
    `returned` tells that a line feed has to come next. -/
def joinLines? : (returned : Bool) → List Char → Option (List Char)
  | true, '\n' :: rest => joinLines? false rest
  | true, _ => none
  | false, [] => none
  | false, char :: rest =>
      if char = '\r' then joinLines? true rest
      else if char = ' ' || char = '\t' || char = '\n' then joinLines? false rest
      else some (char :: rest)

/-- What follows the quotation mark that ends a literal with escapes. -/
def cooked? (content : Content) : (fuel : Nat) → List Char → Option (List Char)
  | 0, _ => none
  | fuel + 1, text =>
      match text with
      | '\x22' :: rest => some rest
      | '\r' :: '\n' :: rest => cooked? content fuel rest
      | '\r' :: _ => none
      | '\\' :: '\n' :: rest => do cooked? content fuel (← joinLines? false rest)
      | '\\' :: '\r' :: rest => do cooked? content fuel (← joinLines? true rest)
      | '\\' :: rest => do cooked? content fuel (← escape? content rest)
      | char :: rest => if content.admits char then cooked? content fuel rest else none
      | [] => none

/-- What follows the quotation mark and the number signs that end a literal without
    escapes. -/
def plain? (content : Content) (signs : List Char) : List Char → Option (List Char)
  | [] => none
  | '\r' :: '\n' :: rest => plain? content signs rest
  | char :: rest =>
      if char = '\x22' && signs.isPrefixOf rest then some (rest.drop signs.length)
      else if content.admits char && char ≠ '\r' then plain? content signs rest
      else none

/-- What follows a literal without escapes, from its number signs on. There are at
    most 255 of them. -/
def raw? (content : Content) (text : List Char) : Option (List Char) :=
  match text.span (· = '#') with
  | (signs, '\x22' :: rest) => if signs.length ≤ 255 then plain? content signs rest else none
  | _ => none

/-- What follows a single character and its apostrophe. -/
def single? (content : Content) : List Char → Option (List Char)
  | '\\' :: rest => do
      match ← escape? content rest with
      | '\'' :: rest => some rest
      | _ => none
  | char :: '\'' :: rest => if content.admits char then some rest else none
  | _ => none

/-- What follows a literal in quotes or apostrophes. -/
def quoted? : List Char → Option (List Char)
  | '\x22' :: rest => cooked? .text (rest.length + 1) rest
  | 'r' :: rest => raw? .text rest
  | 'b' :: '\x22' :: rest => cooked? .octets (rest.length + 1) rest
  | 'b' :: 'r' :: rest => raw? .octets rest
  | 'c' :: '\x22' :: rest => cooked? .terminated (rest.length + 1) rest
  | 'c' :: 'r' :: rest => raw? .terminated rest
  | 'b' :: '\'' :: rest => single? .octets rest
  | '\'' :: rest => single? .text rest
  | _ => none

/-- Digits, and the underscores between them. -/
def isDigit (char : Char) : Bool := char.isDigit || char = '_'

/-- What follows the power of a number, after its letter. The sign comes first, and
    there is at least one digit. -/
def power? : (signed valued : Bool) → List Char → Option (List Char)
  | signed, valued, char :: rest =>
      if char = '+' || char = '-' then
        if valued then some (char :: rest) else if signed then none else power? true false rest
      else if char.isDigit then power? signed true rest
      else if char = '_' then power? signed valued rest
      else if valued then some (char :: rest)
      else none
  | _, valued, [] => if valued then some [] else none

/-- What follows a fraction, which has a point or a power. A point in front of a name
    or of another point is none, and after a point a power can be missing. -/
def fraction? (text : List Char) : Option (List Char) :=
  if text.head?.any Char.isDigit then
    match text.dropWhile isDigit with
    | '.' :: rest =>
        if rest.head?.any fun char => char = '.' || Text.Identifier.starts char then none
        else
          match rest.dropWhile isDigit with
          | 'e' :: power => some ((power? false false power).getD ('e' :: power))
          | 'E' :: power => some ((power? false false power).getD ('E' :: power))
          | rest => some rest
    | 'e' :: power => power? false false power
    | 'E' :: power => power? false false power
    | _ => none
  else none

/-- What follows the digits of a whole number. A digit that is too large spoils it. -/
def digits? (base : Nat) : (seen : Bool) → List Char → Option (List Char)
  | seen, [] => if seen then some [] else none
  | seen, char :: rest =>
      if char.isDigit then if char.toNat - 48 < base then digits? base true rest else none
      else if base = 16 && (Text.Hex.value? char).isSome then digits? base true rest
      else if char = '_' then if base = 10 && !seen then none else digits? base seen rest
      else if seen then some (char :: rest)
      else none

/-- What follows a whole number. -/
def whole? : List Char → Option (List Char)
  | '0' :: 'x' :: rest => digits? 16 false rest
  | '0' :: 'o' :: rest => digits? 8 false rest
  | '0' :: 'b' :: rest => digits? 2 false rest
  | text => digits? 10 false text

/-- What follows a number and its suffix, unless more of a word follows. -/
def endNumber? (text : List Char) : Option (List Char) :=
  let rest := dropSuffix text
  if rest.head?.any Text.Identifier.continues then none else some rest

/-- What follows a literal. -/
def literal? (text : List Char) : Option (List Char) :=
  (quoted? text).map dropSuffix <|> (fraction? text).bind endNumber?
    <|> (whole? text).bind endNumber?

end Wireform.Derive.Spelling
