import Wireform.Error
import Wireform.Ty

/-!
# Values

A value knows its own type, so that code which receives a value of any type can
ask for the type it needs and fail otherwise. Collections carry their elements in
iteration order; for the hashed ones that order is whatever it happens to be, and
two hashed sets are the same set when they hold the same elements. Numbers are of
their fixed width and floating-point numbers are their bits.
-/

namespace Wireform

/-- A value without parts. -/
inductive Scalar
  | i8 (number : Int8)
  | u8 (number : UInt8)
  | i16 (number : Int16)
  | u16 (number : UInt16)
  | i32 (number : Int32)
  | i64 (number : Int64)
  | u64 (number : UInt64)
  | f32 (bits : UInt32)
  | f64 (bits : UInt64)
  | bool (truth : Bool)
  | char (char : Char)
  | string (text : String)
  | uuid (bits : BitVec 128)
  | bytes (octets : Bytes)
deriving DecidableEq

/-- The type of a scalar. -/
def Scalar.leaf : Scalar → Leaf
  | .i8 _ => .i8 | .u8 _ => .u8 | .i16 _ => .i16 | .u16 _ => .u16
  | .i32 _ => .i32 | .i64 _ => .i64 | .u64 _ => .u64
  | .f32 _ => .f32 | .f64 _ => .f64
  | .bool _ => .bool | .char _ => .char | .string _ => .string
  | .uuid _ => .uuid | .bytes _ => .bytes

/-- A value of any type. -/
inductive Value
  | scalar (scalar : Scalar)
  /-- The member of an enumeration at a position of its declaration. -/
  | member (type : Ty) (index : Nat)
  /-- The absent value of the option of `inner`. -/
  | absent (inner : Ty)
  | present (value : Value)
  | boxed (value : Value)
  | sequence (type : Ty) (items : List Value)
  | map (type : Ty) (entries : List (Value × Value))
  /-- An aggregate with all its members, the skipped ones included. -/
  | record (type : Ty) (members : List Value)

namespace Value

/-- The type of a value. -/
def type : Value → Ty
  | .scalar plain => .leaf plain.leaf
  | .member type _ => type
  | .absent inner => .option inner
  | .present value => .option value.type
  | .boxed value => .boxed value.type
  | .sequence type _ => type
  | .map type _ => type
  | .record type _ => type

/-- Shorthands for scalars. -/
def i8 (number : Int8) : Value := .scalar (.i8 number)
def u8 (number : UInt8) : Value := .scalar (.u8 number)
def i32 (number : Int32) : Value := .scalar (.i32 number)
def i64 (number : Int64) : Value := .scalar (.i64 number)
def u64 (number : UInt64) : Value := .scalar (.u64 number)
def bool (truth : Bool) : Value := .scalar (.bool truth)
def string (text : String) : Value := .scalar (.string text)

/-- The value itself if it is of the type asked for. -/
def expect (type : Ty) (value : Value) : Except Error Value :=
  if value.type = type then .ok value else .error (.typeMismatch type.name)

/-- The elements of a sequence of the given type, in iteration order. -/
def items (type : Ty) : Value → Except Error (List Value)
  | .sequence actual items =>
      if actual = type then .ok items else .error (.typeMismatch type.name)
  | _ => .error (.typeMismatch type.name)

/-- The entries of a map of the given type, in iteration order. -/
def entries (type : Ty) : Value → Except Error (List (Value × Value))
  | .map actual entries =>
      if actual = type then .ok entries else .error (.typeMismatch type.name)
  | _ => .error (.typeMismatch type.name)

/-- What an option of `inner` holds. -/
def project (inner : Ty) : Value → Except Error (Option Value)
  | .absent actual =>
      if actual = inner then .ok none else .error (.typeMismatch (Ty.option inner).name)
  | .present value =>
      if value.type = inner then .ok (some value)
      else .error (.typeMismatch (Ty.option inner).name)
  | _ => .error (.typeMismatch (Ty.option inner).name)

/-- The option of `inner` that holds what is given. -/
def wrap (inner : Ty) : Option Value → Except Error Value
  | none => .ok (.absent inner)
  | some value => .present <$> value.expect inner

/-- What a box of `inner` holds. -/
def deref (inner : Ty) : Value → Except Error Value
  | .boxed value =>
      if value.type = inner then .ok value else .error (.typeMismatch (Ty.boxed inner).name)
  | _ => .error (.typeMismatch (Ty.boxed inner).name)

/-- The box of `inner` around a value. -/
def rebox (inner : Ty) (value : Value) : Except Error Value :=
  .boxed <$> value.expect inner

/-- Only a value of the type is what was expected. -/
theorem expect_eq_ok (type : Ty) (value result : Value) :
    value.expect type = .ok result ↔ value.type = type ∧ result = value := by
  unfold expect
  split
  · next same => simp [same, eq_comm]
  · next different => simp [different]

/-- Only a sequence of the type has elements. -/
theorem items_eq_ok (type : Ty) (value : Value) (items : List Value) :
    value.items type = .ok items ↔ value = .sequence type items := by
  cases value with
  | sequence actual elements =>
      by_cases same : actual = type
      · simp [Value.items, same]
      · simp [Value.items, same]
  | _ => simp [Value.items]

/-- Only a map of the type has entries. -/
theorem entries_eq_ok (type : Ty) (value : Value) (entries : List (Value × Value)) :
    value.entries type = .ok entries ↔ value = .map type entries := by
  cases value with
  | map actual pairs =>
      by_cases same : actual = type
      · simp [Value.entries, same]
      · simp [Value.entries, same]
  | _ => simp [Value.entries]

/-- Only the absent option of a type holds nothing. -/
theorem project_eq_none (inner : Ty) (value : Value) :
    value.project inner = .ok none ↔ value = .absent inner := by
  cases value with
  | absent actual => by_cases same : actual = inner <;> simp [Value.project, same]
  | present held => by_cases same : held.type = inner <;> simp [Value.project, same]
  | _ => simp [Value.project]

/-- Only a present option of a type holds a value of it. -/
theorem project_eq_some (inner : Ty) (value held : Value) :
    value.project inner = .ok (some held) ↔ value = .present held ∧ held.type = inner := by
  cases value with
  | absent actual => by_cases same : actual = inner <;> simp [Value.project, same]
  | present other =>
      by_cases same : other.type = inner
      · simp only [Value.project, if_pos same, Except.ok.injEq, Option.some.injEq,
          Value.present.injEq]
        exact ⟨fun held => ⟨held, held ▸ same⟩, fun both => both.1⟩
      · constructor
        · intro impossible
          simp [Value.project, same] at impossible
        · rintro ⟨held, equal⟩
          cases held
          exact absurd equal same
  | _ => simp [Value.project]

/-- Only a box of a type holds a value of it. -/
theorem deref_eq_ok (inner : Ty) (value held : Value) :
    value.deref inner = .ok held ↔ value = .boxed held ∧ held.type = inner := by
  cases value with
  | boxed other =>
      by_cases same : other.type = inner
      · simp only [Value.deref, if_pos same, Except.ok.injEq, Value.boxed.injEq]
        exact ⟨fun held => ⟨held, held ▸ same⟩, fun both => both.1⟩
      · constructor
        · intro impossible
          simp [Value.deref, same] at impossible
        · rintro ⟨held, equal⟩
          cases held
          exact absurd equal same
  | _ => simp [Value.deref]

end Value

end Wireform
