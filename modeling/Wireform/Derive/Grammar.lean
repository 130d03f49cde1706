import Wireform.Derive.Grammar.Statements

/-!
# The grammar of declarations

The rules refer to each other, so they are built in levels: the rules of a level call
those of the level below. Between one token and the next only a few levels are gone
down, so a multiple of the number of tokens is deep enough for any text.
-/

namespace Wireform.Derive.Grammar

open Wireform.Derive.Parser

/-- The rules that call given ones. -/
def above (rules : Rules) : Rules where
  type := type rules
  bound := bound rules
  expression := expression rules
  operand structures := operand rules (atom rules structures) structures
  clause := clause rules
  pattern := pattern rules
  statements := statements rules
  item := item rules

/-- Rules that go down a number of levels. -/
def rulesOfDepth : (levels : Nat) → Rules
  | 0 => .none
  | levels + 1 => above (rulesOfDepth levels)

/-- Rules that go down far enough for a list of trees. -/
def rulesFor (trees : List Tree) : Rules := rulesOfDepth (8 * (Tree.codes trees).length + 8)

/-- The type that a text holds, as code. -/
def readType (text : String) : Reading Code :=
  completeText
    (fun trees => complete (do return (← (rulesFor trees).type true).code) trees) text

end Wireform.Derive.Grammar
