import Wireform.Text.LetterCase

/-!
# Packet names

A packet is identified by a text. Unless a type says otherwise this is its own
name, without the path before it and the arguments after it, in lowercase with an
underscore before every capital but a leading one.
-/

namespace Wireform.Packet

/-- Whether a double colon occurs. -/
def hasPath : List Char → Bool
  | ':' :: ':' :: _ => true
  | _ :: rest => hasPath rest
  | [] => false

/-- What follows the last double colon, or everything if there is none. -/
def afterPath : List Char → List Char
  | [] => []
  | first :: rest =>
      if hasPath rest then afterPath rest
      else match first, rest with
        | ':', ':' :: after => after
        | first, rest => first :: rest

/-- A type's name without arguments and without the path. -/
def shortName (name : List Char) : List Char :=
  afterPath (name.takeWhile (· != '<'))

/-- A character in lowercase, after an underscore if it is a capital. -/
def lowered (char : Char) : List Char :=
  match Text.LetterCase.lowercase? char with
  | some lower => '_' :: lower
  | none => [char]

/-- A name in lowercase with an underscore before every capital but the first
    character. -/
def snakeCase : List Char → List Char
  | [] => []
  | first :: rest =>
      (Text.LetterCase.lowercase? first).getD [first] ++ rest.flatMap lowered

/-- The identifier that a type has by default. -/
def defaultId (name : String) : String :=
  String.ofList (snakeCase (shortName name.toList))

end Wireform.Packet
