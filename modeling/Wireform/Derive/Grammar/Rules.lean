import Wireform.Derive.Path

/-!
# Rules of the grammar

Types, expressions, patterns, statements and items hold each other. `Rules` has a
parser for each of them, and every module of the grammar writes its own parsers over
rules that it is given, so that the knot is tied in one place.

What is read is given back as code in its settled form: lifetimes come before other
arguments, positions are plain numbers, and what is empty is left out. Some
constructions are copied instead, tree by tree. Besides the code only what the
surroundings ask for is kept.
-/

namespace Wireform.Derive.Grammar

open Wireform.Derive.Parser

/-- What a type is, as far as its surroundings depend on it. -/
inductive TypeShape
  /-- A path that is not taken from a type. It is applied if it is a single name with
      arguments in angle brackets. -/
  | path (isApplied : Bool)
  /-- A single bound. `inside` is its code without brackets around it. -/
  | bound (inside : Code)
  /-- A type in round brackets. -/
  | bracketed
  | other
deriving DecidableEq, Repr

/-- A type that has been read. -/
structure TypeCode where
  code : Code
  shape : TypeShape := .other
deriving DecidableEq, Repr

/-- A bound that has been read. -/
structure Bound where
  code : Code
  isLifetime : Bool := false
  /-- The code without brackets around it. -/
  inside : Code
deriving DecidableEq, Repr

/-- What an expression is, as far as its surroundings depend on it. -/
inductive ExpressionShape
  /-- It ends a statement by itself. -/
  | block
  /-- A range, which no field can be taken of. -/
  | range
  /-- It is copied, and attributes in front of it are dropped. -/
  | copied
  /-- An operation on two operands. Attributes belong to the first one. -/
  | operation (firstIsCopied : Bool)
  | plain
deriving DecidableEq, Repr

/-- An expression that has been read. -/
structure Expression where
  code : Code
  shape : ExpressionShape := .plain
deriving DecidableEq, Repr

namespace Expression

/-- Whether the operand that comes first is copied. -/
def startsCopied (expression : Expression) : Bool :=
  match expression.shape with
  | .copied => true
  | .operation firstIsCopied => firstIsCopied
  | _ => false

/-- An expression with attributes of its own. -/
def withAttributes (attributes : Code) (expression : Expression) : Expression :=
  if expression.shape = .copied then expression
  else { expression with code := attributes ++ expression.code }

/-- Whether something has to separate the expression from what follows it. -/
def needsEnd (expression : Expression) : Bool := expression.shape ≠ .block

end Expression

/-- A pattern or an item that has been read. -/
structure Piece where
  code : Code
  /-- Whether it is copied, and attributes in front of it are dropped. -/
  isCopied : Bool := false
deriving DecidableEq, Repr

/-- A piece with attributes of its own. -/
def Piece.withAttributes (attributes : Code) (piece : Piece) : Code :=
  if piece.isCopied then piece.code else attributes ++ piece.code

/-- The parsers that refer to each other. -/
structure Rules where
  /-- A type, which can be a sum of bounds where that is allowed. -/
  type : (sums : Bool) → Parser TypeCode
  bound : Parser Bound
  /-- An expression. Where structures are not allowed, curly brackets after a path
      belong to what follows. -/
  expression : (structures : Bool) → Parser Expression
  /-- An expression that is no operation on two operands. -/
  operand : (structures : Bool) → Parser Expression
  /-- An expression that ends with the block that it starts with. -/
  clause : Parser Expression
  pattern : Parser Piece
  /-- All statements of a block. -/
  statements : Parser Code
  /-- An item without its attributes. -/
  item : Parser Piece

/-- Rules that read nothing. -/
def Rules.none : Rules where
  type _ := refuseAll []
  bound := refuseAll []
  expression _ := refuseAll []
  operand _ := refuseAll []
  clause := refuseAll []
  pattern := refuseAll []
  statements := refuseAll []
  item := refuseAll []

/-- A block. -/
def block (rules : Rules) : Parser Code := group .curly rules.statements

/-- A block that can have attributes inside. -/
def body (rules : Rules) : Parser Code := group .curly do
  let attributes ← innerAttributes
  return attributes ++ (← rules.statements)

/-- Parts with lifetimes in front of the others. A comma separates them even where
    none was written. -/
def lifetimesFirst (parts : List (Listed (Bool × Code))) : Code :=
  let (lifetimes, others) := parts.partition fun part => part.1.1
  let code (parts : List (Listed (Bool × Code))) : Code :=
    joined "," (parts.map fun part => (part.1.2, part.2))
  let comma := !others.isEmpty && lifetimes.getLast?.any fun part => !part.2
  code lifetimes ++ (if comma then [","] else []) ++ code others

end Wireform.Derive.Grammar
