import Wireform.Value

/-!
# The order of values

Ordered sets and maps iterate in this order, and all sets and maps take two
elements or keys for the same when it finds them equal. Numbers go by value, text
and byte strings octet by octet, an absent option comes before any present one,
enumerations follow their declaration, and sequences and aggregates compare
lexicographically. Values of different shapes never meet in one collection; the
order among them is by shape, only so that it is total.
-/

namespace Wireform

/-- Lexicographic order of byte strings. -/
def Bytes.order : Bytes → Bytes → Ordering
  | [], [] => .eq
  | [], _ :: _ => .lt
  | _ :: _, [] => .gt
  | a :: as, b :: bs => (compare a.toNat b.toNat).then (order as bs)

namespace Scalar

/-- The place of a scalar's type among the leaves. -/
def rank : Scalar → Nat
  | .i8 _ => 0 | .u8 _ => 1 | .i16 _ => 2 | .u16 _ => 3
  | .i32 _ => 4 | .i64 _ => 5 | .u64 _ => 6
  | .f32 _ => 7 | .f64 _ => 8
  | .bool _ => 9 | .char _ => 10 | .string _ => 11
  | .uuid _ => 12 | .bytes _ => 13

/-- The order of scalars. Floating-point numbers have no order of their own; their
    bits serve to tell them apart. -/
def order : Scalar → Scalar → Ordering
  | .i8 a, .i8 b => compare a.toInt b.toInt
  | .u8 a, .u8 b => compare a.toNat b.toNat
  | .i16 a, .i16 b => compare a.toInt b.toInt
  | .u16 a, .u16 b => compare a.toNat b.toNat
  | .i32 a, .i32 b => compare a.toInt b.toInt
  | .i64 a, .i64 b => compare a.toInt b.toInt
  | .u64 a, .u64 b => compare a.toNat b.toNat
  | .f32 a, .f32 b => compare a.toNat b.toNat
  | .f64 a, .f64 b => compare a.toNat b.toNat
  | .bool a, .bool b => compare a.toNat b.toNat
  | .char a, .char b => compare a.toNat b.toNat
  | .string a, .string b => compare a b
  | .uuid a, .uuid b => compare a.toNat b.toNat
  | .bytes a, .bytes b => Bytes.order a b
  | a, b => compare a.rank b.rank

end Scalar

namespace Value

/-- The place of a value's shape among the shapes. -/
def rank : Value → Nat
  | .scalar _ => 0
  | .member _ _ => 1
  | .absent _ => 2
  | .present _ => 3
  | .boxed _ => 4
  | .sequence _ _ => 5
  | .map _ _ => 6
  | .record _ _ => 7

mutual

/-- The order of values. -/
def order : Value → Value → Ordering
  | .scalar a, .scalar b => a.order b
  | .member _ a, .member _ b => compare a b
  | .present a, .present b => order a b
  | .boxed a, .boxed b => order a b
  | .sequence _ as, .sequence _ bs => orderItems as bs
  | .map _ as, .map _ bs => orderEntries as bs
  | .record _ as, .record _ bs => orderItems as bs
  | a, b => compare a.rank b.rank

/-- Lexicographic order of elements or members. -/
def orderItems : List Value → List Value → Ordering
  | [], [] => .eq
  | [], _ :: _ => .lt
  | _ :: _, [] => .gt
  | a :: as, b :: bs => (order a b).then (orderItems as bs)

/-- Lexicographic order of entries, the key before the value. -/
def orderEntries : List (Value × Value) → List (Value × Value) → Ordering
  | [], [] => .eq
  | [], _ :: _ => .lt
  | _ :: _, [] => .gt
  | (key, value) :: rest, (otherKey, otherValue) :: otherRest =>
      (order key otherKey).then ((order value otherValue).then (orderEntries rest otherRest))

end

/-- Whether a collection takes two values for the same element or key. -/
def same (left right : Value) : Bool :=
  left.order right == .eq

end Value

end Wireform
