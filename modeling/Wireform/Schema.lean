import Wireform.Custom
import Wireform.Enumeration
import Wireform.Value.Collection

/-!
# Descriptions of types

A schema says what the named types are. An entry describes one type: as a leaf
without visible structure, as an enumeration, as a sequence that does not declare
its element type, as an aggregate, or as a custom format. Containers, options and
boxes describe themselves. `Schema.kind` is the one place where a type is looked
up; a name that the schema does not mention is a leaf.

An aggregate lists the fields that travel. It is rebuilt by the first constructor
that takes as many arguments as there are fields, else by assigning the fields of
an initial value, else not at all.
-/

namespace Wireform

/-- An annotation of a field, a parameter or a site. -/
inductive Marker
  /-- The value may be absent. -/
  | nullable
  /-- The elements of the sequence at this place are of the given type. -/
  | streamable (element : Ty)
  /-- A label that resolvers and transforms may look for. -/
  | tag (label : String)
deriving DecidableEq, Repr

/-- A travelling field of an aggregate and the member it is kept in. -/
structure Field where
  name : String
  type : Ty
  markers : List Marker := []
  slot : Nat
deriving DecidableEq, Repr

/-- A parameter of a constructor. -/
structure Parameter where
  name : String
  type : Ty
  markers : List Marker := []
deriving DecidableEq, Repr

/-- A way to build an aggregate from arguments. -/
structure Constructor where
  parameters : List Parameter
  build : List Value → Except Error Value

/-- How an aggregate is taken apart and rebuilt. -/
structure Aggregate where
  fields : List Field := []
  constructors : List Constructor := []
  /-- The value that default construction yields, if there is default construction. -/
  initial : Option Value := none

/-- How decoding rebuilds an aggregate. -/
inductive Strategy
  | construct (index : Nat) (constructor : Constructor)
  | assign (initial : Value)
  | unavailable

namespace Field

/-- The field's value in an aggregate of the type `owner`. -/
def get (owner : Ty) (field : Field) : Value → Except Error Value
  | .record type members =>
      match members[field.slot]? with
      | some member => if type = owner then .ok member else .error (.typeMismatch owner.name)
      | none => .error (.typeMismatch owner.name)
  | _ => .error (.typeMismatch owner.name)

/-- Only a member of an aggregate of the type is the value of a field. -/
theorem get_eq_ok (owner : Ty) (field : Field) (value member : Value) :
    field.get owner value = .ok member
      ↔ ∃ members, value = .record owner members ∧ members[field.slot]? = some member := by
  cases value with
  | record type members =>
      cases found : members[field.slot]? with
      | none =>
          simp only [get, found]
          constructor
          · intro impossible
            cases impossible
          · rintro ⟨others, same, listed⟩
            cases same
            rw [found] at listed
            cases listed
      | some child =>
          by_cases same : type = owner
          · simp [get, found, same]
          · simp [get, found, same]
  | _ => simp [get]

/-- The aggregate with the field's value replaced. The owner is checked first. -/
def set (owner : Ty) (field : Field) (value : Value) : Value → Except Error Value
  | .record type members =>
      if type = owner then do
        let value ← value.expect field.type
        return .record type (members.set field.slot value)
      else .error (.typeMismatch owner.name)
  | _ => .error (.typeMismatch owner.name)

/-- The parameter through which a mirroring constructor receives the field. -/
def parameter (field : Field) : Parameter :=
  ⟨field.name, field.type, field.markers⟩

end Field

/-- A computation that takes its arguments off a list, one at a time. -/
abbrev Arguments (α : Type) := StateT (List Value) (Except Error) α

/-- The next argument, which must be of the type asked for. -/
def Arguments.take (type : Ty) : Arguments Value := fun arguments =>
  match arguments with
  | [] => .error (.typeMismatch type.name)
  | argument :: rest => do
      let argument ← argument.expect type
      return (argument, rest)

/-- Runs a computation on its arguments; what it does not take is ignored. -/
def Arguments.apply {α : Type} (computation : Arguments α) (arguments : List Value) :
    Except Error α := do
  let (result, _) ← computation.run arguments
  return result

namespace Aggregate

/-- The first constructor with as many parameters as there are fields, with its
    position counted from `index`. -/
def matching (count : Nat) : (index : Nat) → List Constructor → Option (Nat × Constructor)
  | _, [] => none
  | index, constructor :: rest =>
      if constructor.parameters.length = count then some (index, constructor)
      else matching count (index + 1) rest

/-- How the aggregate is rebuilt. Only its shape matters, never the input. -/
def strategy (aggregate : Aggregate) : Strategy :=
  match matching aggregate.fields.length 0 aggregate.constructors, aggregate.initial with
  | some (index, constructor), _ => .construct index constructor
  | none, some initial => .assign initial
  | none, none => .unavailable

/-- The parameters of a constructor that mirrors the fields. -/
def mirrored (aggregate : Aggregate) : List Parameter :=
  aggregate.fields.map Field.parameter

end Aggregate

/-- A member of an aggregate as it is declared. A member with a `blank` does not
    travel: a rebuilt aggregate has the blank in its place. -/
structure Member where
  name : String
  type : Ty
  markers : List Marker := []
  blank : Option Value := none

namespace Member

/-- The members that travel, as fields with the positions of their members. -/
def fieldsFrom : (slot : Nat) → List Member → List Field
  | _, [] => []
  | slot, member :: rest =>
      match member.blank with
      | some _ => fieldsFrom (slot + 1) rest
      | none => ⟨member.name, member.type, member.markers, slot⟩ :: fieldsFrom (slot + 1) rest

/-- Takes one argument for each travelling member and fills in the others. -/
def assemble : List Member → Arguments (List Value)
  | [] => return []
  | member :: rest => do
      let value ← match member.blank with
        | some blank => pure blank
        | none => Arguments.take member.type
      return value :: (← assemble rest)

end Member

/-- How the members of an aggregate are told apart when it is shown. -/
inductive Style
  | named
  | positional
  | unit
deriving DecidableEq, Repr

/-- What a named type is. -/
inductive Definition
  | leaf
  | enumeration (names : List String)
  /-- A sequence of `item`s that does not say so. -/
  | sequence (item : Ty)
  | aggregate (aggregate : Aggregate)
  | custom (custom : Custom)

/-- The description of one named type. The members are those of its values. -/
structure Entry where
  type : Ty
  members : List Member := []
  style : Style := .unit
  definition : Definition

/-- The descriptions of the named types. -/
structure Schema where
  entries : List Entry

/-- What can be done with the values of a type. -/
inductive Kind
  | leaf
  | enumeration (names : List String)
  | sequence (element : Option Ty)
  | map (key value : Ty)
  | nullable (inner : Ty)
  | pointer (inner : Ty)
  | aggregate (aggregate : Aggregate)
  | custom (custom : Custom)

/-- The definition of the named types of this kind, as far as the kind tells it. -/
def Kind.definition? : Kind → Option Definition
  | .enumeration names => some (.enumeration names)
  | .aggregate description => some (.aggregate description)
  | .custom format => some (.custom format)
  | _ => none

/-- The kind as it is named to users. -/
def Kind.label : Kind → String
  | .leaf => "leaf"
  | .enumeration _ => "enum"
  | .sequence _ => "sequence"
  | .map _ _ => "map"
  | .nullable _ => "nullable"
  | .pointer _ => "pointer"
  | .aggregate _ => "aggregate"
  | .custom _ => "custom"

namespace Schema

/-- The entry that describes a type. The first one counts. -/
def find? (schema : Schema) (type : Ty) : Option Entry :=
  schema.entries.find? fun entry => entry.type = type

/-- The kind of a named type. -/
def namedKind (schema : Schema) (type : Ty) : Kind :=
  match schema.find? type with
  | none => .leaf
  | some entry =>
      match entry.definition with
      | .leaf => .leaf
      | .enumeration names => .enumeration names
      | .sequence _ => .sequence none
      | .aggregate description => .aggregate description
      | .custom format => .custom format

/-- The kind of a type. -/
def kind (schema : Schema) : Ty → Kind
  | .leaf _ => .leaf
  | .named name => schema.namedKind (.named name)
  | .applied name argument => schema.namedKind (.applied name argument)
  | .option inner => .nullable inner
  | .boxed inner => .pointer inner
  | .sequence _ element => .sequence (some element)
  | .map _ key value => .map key value

/-- An entry is found under its own type. -/
theorem type_of_find? {schema : Schema} {type : Ty} {entry : Entry}
    (found : schema.find? type = some entry) : entry.type = type := by
  simpa using List.find?_some found

/-- A kind that tells a definition is that of the entry that is found for the type. -/
theorem entry_of_kind (schema : Schema) (type : Ty) (definition : Definition)
    (told : (schema.kind type).definition? = some definition) :
    ∃ entry, schema.find? type = some entry ∧ entry.definition = definition := by
  have named (type : Ty) (told : (schema.namedKind type).definition? = some definition) :
      ∃ entry, schema.find? type = some entry ∧ entry.definition = definition := by
    unfold namedKind at told
    split at told
    · cases told
    · next entry found =>
        refine ⟨entry, found, ?_⟩
        split at told
        all_goals cases told
        all_goals assumption
  cases type with
  | named name => exact named _ told
  | applied generic argument => exact named _ told
  | _ => cases told

/-- Rebuilds a sequence of the given type from elements. Every element is checked
    before the number of them is. -/
def collect (schema : Schema) (type : Ty) (items : List Value) : Except Error Value :=
  match type with
  | .sequence kind element => do
      let items ← items.mapM (Value.expect element)
      return .sequence type (← kind.collect items)
  | type =>
      match (schema.find? type).map Entry.definition with
      | some (.sequence item) => do
          let items ← items.mapM (Value.expect item)
          return .sequence type items
      | _ => .error (.typeMismatch type.name)

/-- Rebuilds a map of the given type from entries. -/
def collectEntries (type : Ty) (entries : List (Value × Value)) : Except Error Value :=
  match type with
  | .map kind key value => do
      let entries ← entries.mapM fun entry => do
        let key ← entry.1.expect key
        let value ← entry.2.expect value
        return (key, value)
      return .map type (kind.collect entries)
  | type => .error (.typeMismatch type.name)

end Schema

end Wireform
