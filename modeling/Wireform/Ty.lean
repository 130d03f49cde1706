/-!
# Types of values

A type is a finite expression over leaves, references to described types, and the
containers that the library knows. A reference is only a name: what it stands for
is looked up in a schema, so recursive types need no recursion here. Two types
are the same exactly when their expressions are equal, and `Ty.name` is the
qualified name under which messages mention them.
-/

namespace Wireform

/-- Types without parts. -/
inductive Leaf
  | i8 | u8 | i16 | u16 | i32 | i64 | u64
  | f32 | f64
  | bool | char | string | uuid | bytes
deriving DecidableEq, Repr

/-- The qualified name of a leaf. -/
def Leaf.name : Leaf → String
  | .i8 => "i8" | .u8 => "u8" | .i16 => "i16" | .u16 => "u16"
  | .i32 => "i32" | .i64 => "i64" | .u64 => "u64"
  | .f32 => "f32" | .f64 => "f64"
  | .bool => "bool" | .char => "char"
  | .string => "alloc::string::String"
  | .uuid => "uuid::Uuid"
  | .bytes => "bytes::bytes::Bytes"

/-- Containers of elements of one type. -/
inductive SequenceKind
  | vector
  | deque
  | orderedSet
  | hashedSet
  | array (length : Nat)
deriving DecidableEq, Repr

/-- Containers of keyed entries. -/
inductive MapKind
  | ordered
  | hashed
deriving DecidableEq, Repr

/-- A type expression. -/
inductive Ty
  | leaf (leaf : Leaf)
  /-- A described type. -/
  | named (name : String)
  /-- A described type with one parameter. -/
  | applied (name : String) (argument : Ty)
  | option (inner : Ty)
  | boxed (inner : Ty)
  | sequence (kind : SequenceKind) (element : Ty)
  | map (kind : MapKind) (key value : Ty)
deriving DecidableEq, Repr

namespace Ty

/-- The qualified name of a type, as messages give it. -/
def name : Ty → String
  | .leaf shape => shape.name
  | .named qualified => qualified
  | .applied generic argument => generic ++ "<" ++ argument.name ++ ">"
  | .option inner => "core::option::Option<" ++ inner.name ++ ">"
  | .boxed inner => "alloc::boxed::Box<" ++ inner.name ++ ">"
  | .sequence .vector element => "alloc::vec::Vec<" ++ element.name ++ ">"
  | .sequence .deque element => "alloc::collections::vec_deque::VecDeque<" ++ element.name ++ ">"
  | .sequence .orderedSet element =>
      "alloc::collections::btree::set::BTreeSet<" ++ element.name ++ ">"
  | .sequence .hashedSet element => "std::collections::hash::set::HashSet<" ++ element.name ++ ">"
  | .sequence (.array length) element => "[" ++ element.name ++ "; " ++ toString length ++ "]"
  | .map .ordered key value =>
      "alloc::collections::btree::map::BTreeMap<" ++ key.name ++ ", " ++ value.name ++ ">"
  | .map .hashed key value =>
      "std::collections::hash::map::HashMap<" ++ key.name ++ ", " ++ value.name ++ ">"

/-- How many constructors the expression is built from. -/
def size : Ty → Nat
  | .leaf _ => 1
  | .named _ => 1
  | .applied _ argument => argument.size + 1
  | .option inner => inner.size + 1
  | .boxed inner => inner.size + 1
  | .sequence _ element => element.size + 1
  | .map _ key value => key.size + value.size + 1

/-- Abbreviations for the leaves that descriptions mention most. -/
def i8 : Ty := .leaf .i8
def u8 : Ty := .leaf .u8
def i16 : Ty := .leaf .i16
def i32 : Ty := .leaf .i32
def i64 : Ty := .leaf .i64
def bool : Ty := .leaf .bool
def string : Ty := .leaf .string

/-- A growable sequence. -/
def vector (element : Ty) : Ty := .sequence .vector element

end Ty

end Wireform
