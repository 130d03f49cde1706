import Wireform.Value.Order

/-!
# Collecting elements and entries

Each kind of collection is built from the elements in the order they were read.
Sequences keep them, sets keep one of each, and maps keep the value that was
given last for a key. Ordered collections hold their elements in ascending order;
the iteration order of hashed ones is that of the first occurrence.
-/

namespace Wireform

namespace Value

/-- An ascending list with one more element, which replaces an equal one. -/
def insertAscending (item : Value) : List Value → List Value
  | [] => [item]
  | head :: rest =>
      match item.order head with
      | .lt => item :: head :: rest
      | .eq => item :: rest
      | .gt => head :: insertAscending item rest

/-- The distinct elements in ascending order. -/
def ascending (items : List Value) : List Value :=
  items.foldl (fun kept item => insertAscending item kept) []

/-- The distinct elements in the order of their first occurrence. -/
def distinct (items : List Value) : List Value :=
  items.foldl (fun kept item => if kept.any (same item) then kept else kept ++ [item]) []

/-- An ascending list of entries with the value of one key set. -/
def putAscending (key value : Value) : List (Value × Value) → List (Value × Value)
  | [] => [(key, value)]
  | head :: rest =>
      match key.order head.1 with
      | .lt => (key, value) :: head :: rest
      | .eq => (key, value) :: rest
      | .gt => head :: putAscending key value rest

/-- A list of entries with the value of one key set, at the end if the key is new. -/
def put (key value : Value) : List (Value × Value) → List (Value × Value)
  | [] => [(key, value)]
  | head :: rest =>
      if same key head.1 then (key, value) :: rest else head :: put key value rest

end Value

/-- The elements that a collection of a kind keeps of those it is built from. Only
    an array insists on their number. -/
def SequenceKind.collect (kind : SequenceKind) (items : List Value) : Except Error (List Value) :=
  match kind with
  | .vector => .ok items
  | .deque => .ok items
  | .orderedSet => .ok (Value.ascending items)
  | .hashedSet => .ok (Value.distinct items)
  | .array length =>
      if items.length = length then .ok items
      else .error (.lengthMismatch length items.length)

/-- The entries that a map of a kind keeps of those it is built from. -/
def MapKind.collect (kind : MapKind) (entries : List (Value × Value)) : List (Value × Value) :=
  match kind with
  | .ordered => entries.foldl (fun kept entry => Value.putAscending entry.1 entry.2 kept) []
  | .hashed => entries.foldl (fun kept entry => Value.put entry.1 entry.2 kept) []

end Wireform
