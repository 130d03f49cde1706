import Mathlib.Logic.Relation
import Wireform.Context

/-!
# Parts of types

The values of a type contain values of its parts: what an option, a box or a
collection is made of, the types of the fields of an aggregate, and the element
types that markers of its fields name. A property holds throughout a type if it
holds of the type and of everything that can be reached from it through parts.
Recursive types reach themselves, so this is a condition on finitely many types of a
schema and not one by recursion.

A context strips layers off its declared type; the type below them is a part as
well, and which layers are stripped is known layer by layer.
-/

namespace Wireform

namespace Schema

/-- A type that values of a type can directly contain values of. -/
inductive Part (schema : Schema) : Ty → Ty → Prop
  | option (inner : Ty) : Part schema (.option inner) inner
  | boxed (inner : Ty) : Part schema (.boxed inner) inner
  | element (kind : SequenceKind) (element : Ty) : Part schema (.sequence kind element) element
  | key (kind : MapKind) (key value : Ty) : Part schema (.map kind key value) key
  | value (kind : MapKind) (key value : Ty) : Part schema (.map kind key value) value
  | field (type : Ty) (description : Aggregate)
      (described : schema.kind type = .aggregate description) (field : Field)
      (listed : field ∈ description.fields) : Part schema type field.type
  | marked (type : Ty) (description : Aggregate)
      (described : schema.kind type = .aggregate description) (field : Field)
      (listed : field ∈ description.fields) (element : Ty)
      (marked : .streamable element ∈ field.markers) : Part schema type element

/-- The property holds of the type and of all that can be reached from it. -/
def Throughout (schema : Schema) (holds : Ty → Prop) (type : Ty) : Prop :=
  ∀ part, Relation.ReflTransGen schema.Part type part → holds part

variable {schema : Schema} {holds : Ty → Prop} {type other : Ty}

/-- What holds throughout a type holds of it. -/
theorem Throughout.self (throughout : schema.Throughout holds type) : holds type :=
  throughout type .refl

/-- What holds throughout a type holds throughout its parts. -/
theorem Throughout.part (throughout : schema.Throughout holds type)
    (contained : schema.Part type other) : schema.Throughout holds other :=
  fun _ reached => throughout _ (.head contained reached)

/-- What holds throughout a type holds throughout the type below stripped layers. -/
theorem Throughout.peel (throughout : schema.Throughout holds type) (stripped : Bool) :
    schema.Throughout holds (type.peel stripped).2 := by
  induction type generalizing stripped with
  | option inner inductionHypothesis =>
      cases stripped with
      | false => exact inductionHypothesis (throughout.part (.option inner)) true
      | true => exact throughout
  | boxed inner inductionHypothesis =>
      cases stripped with
      | false => exact inductionHypothesis (throughout.part (.boxed inner)) false
      | true => exact inductionHypothesis (throughout.part (.boxed inner)) true
  | _ => cases stripped <;> exact throughout

/-- What holds throughout a type holds throughout the unwrapped type. -/
theorem Throughout.unwrapped (throughout : schema.Throughout holds type) :
    schema.Throughout holds type.unwrapped :=
  throughout.peel false

/-- The direct parts of a type, computed. -/
def parts (schema : Schema) : Ty → List Ty
  | .option inner => [inner]
  | .boxed inner => [inner]
  | .sequence _ element => [element]
  | .map _ key value => [key, value]
  | type =>
      match schema.kind type with
      | .aggregate description =>
          description.fields.flatMap fun field =>
            field.type :: field.markers.filterMap fun marker =>
              match marker with
              | .streamable element => some element
              | _ => none
      | _ => []

/-- Every direct part is among those computed. -/
theorem mem_parts (contained : schema.Part type other) : other ∈ schema.parts type := by
  have described (description : Aggregate) (described : schema.kind type = .aggregate description) :
      schema.parts type = description.fields.flatMap fun field =>
        field.type :: field.markers.filterMap fun marker =>
          match marker with
          | .streamable element => some element
          | _ => none := by
    unfold parts
    split
    all_goals first | cases described | rw [described]
  cases contained with
  | option => exact List.mem_cons_self
  | boxed => exact List.mem_cons_self
  | element => exact List.mem_cons_self
  | key => exact List.mem_cons_self
  | value => exact List.mem_cons_of_mem _ List.mem_cons_self
  | field _ description known field listed =>
      rw [described description known]
      exact List.mem_flatMap.mpr ⟨field, listed, List.mem_cons_self⟩
  | marked _ description known field listed _ marked =>
      rw [described description known]
      refine List.mem_flatMap.mpr ⟨field, listed, List.mem_cons_of_mem _ ?_⟩
      exact List.mem_filterMap.mpr ⟨.streamable other, marked, rfl⟩

/-- A property holds throughout a type if it holds of each of finitely many types that
    the type is among and that have no parts but themselves. -/
theorem throughout_of_closed (types : List Ty) (among : type ∈ types)
    (closed : ∀ type ∈ types, ∀ part ∈ schema.parts type, part ∈ types)
    (each : ∀ type ∈ types, holds type) : schema.Throughout holds type := by
  intro part reached
  apply each
  induction reached with
  | refl => exact among
  | tail _ contained inductionHypothesis => exact closed _ inductionHypothesis _ (mem_parts contained)

/-- What holds throughout a type implies what follows from it at every part. -/
theorem Throughout.mono {weaker : Ty → Prop} (implies : ∀ type, holds type → weaker type)
    (throughout : schema.Throughout holds type) : schema.Throughout weaker type :=
  fun part reached => implies part (throughout part reached)

end Schema

namespace Ty

/-- The type is an option. -/
def isOption : Ty → Bool
  | .option _ => true
  | _ => false

/-- Below an option that has been stripped the next one is kept. -/
theorem isOption_peel (type : Ty) : (type.peel true).2.isOption = type.stripsOption := by
  induction type with
  | boxed inner inductionHypothesis => exact inductionHypothesis
  | _ => rfl

/-- Boxes are stripped to the last. -/
theorem unwrapped_ne_boxed (type inner : Ty) : type.unwrapped ≠ .boxed inner := by
  have peeled (stripped : Bool) : (type.peel stripped).2 ≠ .boxed inner := by
    induction type generalizing stripped with
    | boxed below inductionHypothesis =>
        cases stripped with
        | true => exact inductionHypothesis true
        | false => exact inductionHypothesis false
    | option below inductionHypothesis =>
        cases stripped with
        | true => rintro ⟨⟩
        | false => exact inductionHypothesis true
    | _ => cases stripped <;> rintro ⟨⟩
  exact peeled false

end Ty

namespace Marker

/-- The element type that the first streamable marker names. -/
def element? (markers : List Marker) : Option Ty :=
  markers.findSome? fun marker =>
    match marker with
    | .streamable element => some element
    | _ => none

/-- The element type is named by one of the markers. -/
theorem streamable_of_element? (markers : List Marker) (element : Ty)
    (named : element? markers = some element) : .streamable element ∈ markers := by
  obtain ⟨marker, listed, names⟩ := List.exists_of_findSome?_eq_some named
  cases marker with
  | streamable other => cases names; exact listed
  | _ => cases names

end Marker

namespace Context

/-- A place is nullable if it strips an option or is marked so. -/
theorem isNullable_make (declared : Ty) (markers : List Marker) :
    (make declared markers).isNullable = (declared.stripsOption || markers.contains .nullable) := by
  unfold make isNullable
  cases declared.stripsOption <;> cases given : markers.contains .nullable <;> simp_all

/-- The marker for a stripped option names no element type. -/
theorem streamableElement_make (declared : Ty) (markers : List Marker) :
    (make declared markers).streamableElement = Marker.element? markers := by
  unfold make streamableElement Marker.element?
  split
  · rw [List.findSome?_append]
    exact Option.or_none
  · rfl

end Context

end Wireform
