import Wireform.Schema

/-!
# Contexts

A context is what a codec is chosen for: a declared type at some place, the
markers of that place, possibly a value and possibly a site that identifies the
place. Boxes are transparent and the outermost option is handled by the place
itself, so a context strips all boxes and exactly one option off the declared
type. What is left is the unwrapped type; a second option stays part of it.

`project` takes a value of the declared type through the stripped layers and
`rewrap` puts them back around a value of the unwrapped type.
-/

namespace Wireform

/-- A layer of a declared type, with the type below it. -/
inductive Layer
  | nullable (inner : Ty)
  | pointer (inner : Ty)
deriving DecidableEq, Repr

namespace Layer

/-- The value below the layer, or nothing if the layer is an absent option. -/
def project : Layer → Value → Except Error (Option Value)
  | .nullable inner, value => value.project inner
  | .pointer inner, value => some <$> value.deref inner

/-- The layer put around what is below it. An option can stand for an absent value;
    a box around nothing is still nothing. -/
def rewrap : Layer → Option Value → Except Error (Option Value)
  | .nullable inner, value => some <$> Value.wrap inner value
  | .pointer _, none => .ok none
  | .pointer inner, some value => some <$> value.rebox inner

end Layer

namespace Ty

/-- The layers that a context strips off a type and the type below them. Once an
    option has been stripped the next one is not. -/
def peel : (stripped : Bool) → Ty → List Layer × Ty
  | stripped, .boxed inner =>
      let (layers, core) := peel stripped inner
      (.pointer inner :: layers, core)
  | false, .option inner =>
      let (layers, core) := peel true inner
      (.nullable inner :: layers, core)
  | _, type => ([], type)

/-- The layers that a context strips off a type, outermost first. -/
def layers (type : Ty) : List Layer := (type.peel false).1

/-- The type below the stripped layers. -/
def unwrapped (type : Ty) : Ty := (type.peel false).2

/-- Whether an option is among the stripped layers. -/
def stripsOption (type : Ty) : Bool :=
  type.layers.any fun layer =>
    match layer with
    | .nullable _ => true
    | .pointer _ => false

end Ty

/-- A place that the engine assigns. A place is identified by the type it belongs
    to, never by data, so that one codec serves it throughout. -/
inductive Site
  | root (type : Ty)
  | field (owner : Ty) (index : Nat)
  | parameter (owner : Ty) (constructor position : Nat)
  | element (type : Ty)
  | key (type : Ty)
  | value (type : Ty)
  | inner (type : Ty)
deriving DecidableEq, Repr

/-- What a codec is chosen for. -/
structure Context where
  declared : Ty
  markers : List Marker
  value : Option Value := none
  site : Option Site := none

namespace Context

/-- The context of a declared type with the given markers. A stripped option adds
    the nullable marker unless it was given. -/
def make (declared : Ty) (markers : List Marker) : Context :=
  { declared
    markers :=
      if declared.stripsOption && !markers.contains .nullable then markers ++ [.nullable]
      else markers }

/-- The context of a type without markers. -/
def of (declared : Ty) : Context := make declared []

/-- The context with a value. -/
def withValue (context : Context) (value : Value) : Context :=
  { context with value := some value }

/-- The context at a site. -/
def placedAt (context : Context) (site : Site) : Context :=
  { context with site := some site }

/-- The declared type without the stripped layers. -/
def unwrapped (context : Context) : Ty := context.declared.unwrapped

/-- Whether the value may be absent. -/
def isNullable (context : Context) : Bool := context.markers.contains .nullable

/-- Whether a tag with this label is among the markers. -/
def hasTag (context : Context) (label : String) : Bool := context.markers.contains (.tag label)

/-- The element type that the first streamable marker gives. -/
def streamableElement (context : Context) : Option Ty :=
  context.markers.findSome? fun marker =>
    match marker with
    | .streamable element => some element
    | _ => none

/-- A value of the declared type taken through the given layers. -/
def projectThrough : List Layer → Value → Except Error (Option Value)
  | [], value => .ok (some value)
  | layer :: rest, value => do
      match ← layer.project value with
      | some inner => projectThrough rest inner
      | none => return none

/-- The value of the unwrapped type in a value of the declared type, or nothing if
    the stripped option is absent. -/
def project (context : Context) (value : Value) : Except Error (Option Value) :=
  projectThrough context.declared.layers value

/-- The given layers put around a value, the last one first. -/
def rewrapThrough : List Layer → Option Value → Except Error (Option Value)
  | [], value => .ok value
  | layer :: rest, value => do layer.rewrap (← rewrapThrough rest value)

/-- The value of the declared type around a value of the unwrapped type. Nothing
    can only be rewrapped if an option was stripped. -/
def rewrap (context : Context) (value : Option Value) : Except Error Value := do
  match ← rewrapThrough context.declared.layers value with
  | some whole => return whole
  | none => throw (.unexpectedNull context.declared.name)

/-- What the context's own value is below the stripped layers. -/
def unwrappedValue (context : Context) : Except Error (Option Value) :=
  match context.value with
  | some value => context.project value
  | none => .ok none

end Context

end Wireform
