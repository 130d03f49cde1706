import Wireform.Derive.Token.Spelling

/-!
# Tokens of a text

Blanks and comments separate tokens and leave no trace, but a documentation comment
stands for an attribute and yields the tokens of that attribute. At each place a
literal is looked for first, then a mark, and a word last.

Every step of the scan takes at least one character, so the number of characters
bounds the number of steps.
-/

namespace Wireform.Derive.Token

/-- A comment up to the end of its line, and the line break with what follows. -/
def line : List Char → List Char × List Char
  | [] => ([], [])
  | '\n' :: rest => ([], '\n' :: rest)
  | '\r' :: '\n' :: rest => ([], '\n' :: rest)
  | char :: rest =>
      let (comment, rest) := line rest
      (char :: comment, rest)

/-- A comment in which comments are nested `depth` deep, without its end, and what
    follows that. -/
def block : (depth : Nat) → List Char → Option (List Char × List Char)
  | _, [] => none
  | depth, '/' :: '*' :: rest => do
      let (comment, rest) ← block (depth + 1) rest
      return ('/' :: '*' :: comment, rest)
  | 0, '*' :: '/' :: rest => some ([], rest)
  | depth + 1, '*' :: '/' :: rest => do
      let (comment, rest) ← block depth rest
      return ('*' :: '/' :: comment, rest)
  | depth, char :: rest => do
      let (comment, rest) ← block depth rest
      return (char :: comment, rest)

/-- Whether every carriage return belongs to a line break. -/
def breaksLines : List Char → Bool
  | [] => true
  | '\r' :: '\n' :: rest => breaksLines rest
  | char :: rest => char ≠ '\r' && breaksLines rest

/-- The attribute that a documentation comment stands for. An inner one concerns what
    it stands in. -/
def documentation (isInner : Bool) (comment : List Char) : Option (List Token) :=
  if breaksLines comment then
    some (.mark '#' false :: (if isInner then [.mark '!' false] else []) ++
      [.mark '[' false, .word "doc", .mark '=' false,
        .literal (Text.Quoted.literal (String.ofList comment)), .mark ']' false])
  else none

/-- The tokens of a line comment, after the two strokes that start it. -/
def ofLine : List Char → Option (List Token)
  | '/' :: '/' :: _ => some []
  | '/' :: comment => documentation false comment
  | '!' :: comment => documentation true comment
  | _ => some []

/-- The tokens of a block comment, after the stroke and the star that start it. -/
def ofBlock : List Char → Option (List Token)
  | ['*'] => some []
  | '*' :: '*' :: _ => some []
  | '*' :: comment => documentation false comment
  | '!' :: comment => documentation true comment
  | _ => some []

/-- What follows a word, which may be marked as raw. Words with a meaning in paths
    cannot be. -/
def identifier? : List Char → Option (List Char)
  | 'r' :: '#' :: text => do
      let rest ← Spelling.word? text
      let name := String.ofList (text.take (text.length - rest.length))
      if ["_", "super", "self", "Self", "crate"].contains name then none else some rest
  | text => Spelling.word? text

/-- Whether a text starts like a literal in quotes. -/
def startsQuoted (text : List Char) : Bool :=
  ["r\x22", "r#\x22", "r##", "b\x22", "b'", "br\x22", "br#", "c\x22", "cr\x22", "cr#"].any
    fun start => start.toList.isPrefixOf text

/-- What follows the apostrophe of a lifetime: its name, which nothing that would
    make it a literal comes after. -/
def startsLifetime (text : List Char) : Bool :=
  match identifier? text with
  | some ('\'' :: _) => false
  | some ('#' :: _) => ['r', '#'].isPrefixOf text
  | some _ => true
  | none => false

/-- The mark at the front of a text. -/
def mark? : List Char → Option Token
  | '\'' :: rest => if startsLifetime rest then some (.mark '\'' true) else none
  | char :: rest => if startsMark (char :: rest) then some (.mark char (startsMark rest)) else none
  | [] => none

/-- The tokens at the front of a text, none for blanks and plain comments, and what
    follows them. Nothing if no token starts there. -/
def next : List Char → Option (List Token × List Char)
  | [] => none
  | '/' :: '/' :: rest => do
      let (comment, rest) := line rest
      return (← ofLine comment, rest)
  | '/' :: '*' :: rest => do
      let (comment, rest) ← block 0 rest
      return (← ofBlock comment, rest)
  | char :: rest =>
      let text := char :: rest
      let spelled (rest : List Char) := String.ofList (text.take (text.length - rest.length))
      if isBlank char then some ([], rest)
      else if "()[]\x7b\x7d".toList.contains char then some ([.mark char false], rest)
      else
        match Spelling.literal? text, mark? text with
        | some rest, _ => some ([.literal (spelled rest)], rest)
        | none, some found => some ([found], rest)
        | none, none =>
            if startsQuoted text then none
            else (identifier? text).map fun rest => ([.word (spelled rest)], rest)

/-- The tokens of a text, after those found so far in reverse. -/
def scanFrom : (fuel : Nat) → List Char → (found : List Token) → Option (List Token)
  | _, [], found => some found.reverse
  | 0, _ :: _, _ => none
  | fuel + 1, text, found => do
      let (tokens, rest) ← next text
      scanFrom fuel rest (tokens.reverse ++ found)

/-- The tokens of a text, unless something in it is no token. A byte order mark in
    front of them is passed over. -/
def scan (text : String) : Option (List Token) :=
  match text.toList with
  | '\uFEFF' :: chars => scanFrom chars.length chars []
  | chars => scanFrom chars.length chars []

end Wireform.Derive.Token
