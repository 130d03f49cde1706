import Wireform.Text.Identifier

/-!
# Tokens of declarations

A declaration is text made of words, literals and single punctuation marks. A mark
knows whether another one follows it at once, because only such marks together can
mean one thing. A lifetime is an apostrophe and a word.
-/

namespace Wireform.Derive

/-- The smallest piece of a declaration. -/
inductive Token
  /-- An identifier or a keyword, with its raw mark if it has one. -/
  | word (text : String)
  /-- A literal as it is spelled. -/
  | literal (spelling : String)
  /-- A mark, and whether the next one is joined to it. -/
  | mark (char : Char) (joined : Bool)
deriving DecidableEq, Repr

namespace Token

/-- The token as text. -/
def text : Token → String
  | .word text => text
  | .literal spelling => spelling
  | .mark char _ => String.ofList [char]

/-- Characters that separate tokens. -/
def isBlank (char : Char) : Bool :=
  Text.Quoted.within
    [(0x9, 0xD), (0x20, 0x20), (0x85, 0x85), (0xA0, 0xA0), (0x1680, 0x1680), (0x2000, 0x200A),
      (0x200E, 0x200F), (0x2028, 0x2029), (0x202F, 0x202F), (0x205F, 0x205F), (0x3000, 0x3000)]
    char.toNat

/-- Characters that are marks. Brackets are not among them. -/
def isMark (char : Char) : Bool := "~!@#$%^&*-=+|;:,<.>/?\x27".toList.contains char

/-- Whether a text starts with a comment. -/
def startsComment : List Char → Bool
  | '/' :: '/' :: _ => true
  | '/' :: '*' :: _ => true
  | _ => false

/-- Whether a text starts with a mark. -/
def startsMark (text : List Char) : Bool := text.head?.any isMark && !startsComment text

end Token

end Wireform.Derive
