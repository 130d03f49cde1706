import Wireform.Derive.Declaration.Reader

/-!
# Options in attributes

The items of all `reflect` attributes at one place are put together in order
before any of them is looked at, so it does not matter how they are grouped.
Flags are set, markers are appended, and of several names the last one counts.
-/

namespace Wireform.Derive

/-- The item that an entry is. -/
def Entry.item? : Entry → Reading Item
  | .literal => .error .unexpectedLiteral
  | .item found => .ok found

/-- The items of an attribute's list. -/
def Form.items : Form → Reading (List Item)
  | .list entries => entries.mapM Entry.item?
  | .noList => .error .listExpected
  | .unreadable fault => .error fault

/-- The items of all `reflect` attributes, in order. -/
def Attribute.items : List Attribute → Reading (List Item)
  | [] => .ok []
  | .other :: rest => items rest
  | .reflect form :: rest => do
      let first ← form.items
      let others ← items rest
      return first ++ others

/-- What is asked for a whole type. -/
structure TypeOptions where
  hasDefault : Bool := false
  skipsConstructor : Bool := false
  isCustom : Bool := false
deriving DecidableEq, Repr

/-- The options with one more item. -/
def TypeOptions.add (options : TypeOptions) : Item → Reading TypeOptions
  | .flag path =>
      if path.is "default" then .ok { options with hasDefault := true }
      else if path.is "skip_constructor" then .ok { options with skipsConstructor := true }
      else if path.is "custom" then .ok { options with isCustom := true }
      else .error .unknownItem
  | .value _ _ => .error .unknownItem
  | .list _ => .error .unknownItem

/-- What the attributes of a type ask for. -/
def TypeOptions.of (attributes : List Attribute) : Reading TypeOptions := do
  (← Attribute.items attributes).foldlM TypeOptions.add {}

/-- A marker of a generated field. -/
inductive FieldMarker
  | nullable
  | tag (label : TextLiteral)
  | streamable (type : Code)
deriving DecidableEq, Repr

/-- What is asked for a field. -/
structure FieldOptions where
  skipped : Bool := false
  markers : List FieldMarker := []
deriving DecidableEq, Repr

/-- The text that an item has for a value. -/
def Literal.text? : Literal → Reading TextLiteral
  | .text given => .ok given
  | .other => .error .textExpected

/-- The options with one more item. -/
def FieldOptions.add (options : FieldOptions) : Item → Reading FieldOptions
  | .flag path =>
      if path.is "skip" then .ok { options with skipped := true }
      else if path.is "nullable" then .ok { options with markers := options.markers ++ [.nullable] }
      else .error .unknownItem
  | .value path given =>
      if path.is "tag" then do
        let label ← given.text?
        return { options with markers := options.markers ++ [.tag label] }
      else if path.is "streamable" then do
        let element ← Grammar.readType (← given.text?).value
        return { options with markers := options.markers ++ [.streamable element] }
      else .error .unknownItem
  | .list _ => .error .unknownItem

/-- What the attributes of a field ask for. -/
def FieldOptions.of (attributes : List Attribute) : Reading FieldOptions := do
  (← Attribute.items attributes).foldlM FieldOptions.add {}

/-- What is asked for a member of an enumeration. -/
structure MemberOptions where
  rename : Option TextLiteral := none
deriving DecidableEq, Repr

/-- The options with one more item. -/
def MemberOptions.add (_ : MemberOptions) : Item → Reading MemberOptions
  | .value path given =>
      if path.is "rename" then do
        let name ← given.text?
        return { rename := some name }
      else .error .unknownItem
  | .flag _ => .error .unknownItem
  | .list _ => .error .unknownItem

/-- What the attributes of a member ask for. -/
def MemberOptions.of (attributes : List Attribute) : Reading MemberOptions := do
  (← Attribute.items attributes).foldlM MemberOptions.add {}

end Wireform.Derive
