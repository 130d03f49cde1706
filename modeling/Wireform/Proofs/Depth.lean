import Mathlib.Data.List.Count
import Wireform.Proofs.Shape

/-!
# How deep walks nest

A walk has a depth to spend, and every request that it nests costs one. Below a place
there are the parts of one type expression, which get smaller, and then the fields of an
aggregate, whose types can be any size that the schema has. But an aggregate type is
entered at most once on the way down, so every time this happens one entry fewer is left
to enter. `Suffices` is the condition that these two observations keep, and the depth
that a serializer takes at the root of a type meets it.
-/

namespace Wireform

namespace Ty

/-- A type expression has a constructor. -/
theorem size_pos (type : Ty) : 0 < type.size := by
  cases type <;> simp [size]

/-- What is below stripped layers is not larger. -/
theorem size_peel_le (type : Ty) (stripped : Bool) : (type.peel stripped).2.size ≤ type.size := by
  induction type generalizing stripped with
  | option inner inductionHypothesis =>
      cases stripped with
      | true => exact Nat.le_refl _
      | false => exact Nat.le_succ_of_le (inductionHypothesis true)
  | boxed inner inductionHypothesis =>
      cases stripped with
      | true => exact Nat.le_succ_of_le (inductionHypothesis true)
      | false => exact Nat.le_succ_of_le (inductionHypothesis false)
  | _ => cases stripped <;> exact Nat.le_refl _

/-- An option that is left below stripped layers has had another one around it. -/
theorem size_unwrapped_lt (type : Ty) (kept : type.unwrapped.isOption = true) :
    type.unwrapped.size < type.size := by
  induction type with
  | option inner => exact Nat.lt_succ_of_le (size_peel_le inner true)
  | boxed inner inductionHypothesis => exact Nat.lt_succ_of_lt (inductionHypothesis kept)
  | _ => cases kept

end Ty

namespace Marker

/-- The size of the type expression in a marker. -/
def size : Marker → Nat
  | .streamable element => element.size
  | _ => 0

/-- Markers weigh what each of them does. -/
theorem weight_eq_totalSize (markers : List Marker) :
    weight markers = totalSize (markers.map size) := by
  have folded (start : Nat) : markers.foldl (fun total marker =>
      match marker with
      | .streamable element => total + element.size
      | _ => total) start = start + totalSize (markers.map size) := by
    induction markers generalizing start with
    | nil => rfl
    | cons marker rest inductionHypothesis =>
        rw [List.foldl_cons, inductionHypothesis]
        cases marker with
        | streamable element => exact Nat.add_assoc _ _ _
        | _ => exact congrArg (start + ·) (Nat.zero_add _).symm
  exact (folded 0).trans (Nat.zero_add _)

/-- The marker of a stripped option weighs nothing. -/
theorem weight_make (declared : Ty) (markers : List Marker) :
    weight (Context.make declared markers).markers = weight markers := by
  unfold Context.make
  split
  · simp [weight]
  · rfl

/-- An element type that markers name is among what they weigh. -/
theorem size_le_weight (markers : List Marker) (element : Ty)
    (named : .streamable element ∈ markers) : element.size ≤ weight markers := by
  rw [weight_eq_totalSize]
  exact le_totalSize (List.mem_map.mpr ⟨.streamable element, named, rfl⟩)

end Marker

namespace Schema

variable (schema : Schema)

/-- What a described aggregate weighs is part of what the schema weighs. -/
theorem weight_aggregate_le (type : Ty) (description : Aggregate)
    (described : schema.kind type = .aggregate description) :
    (Definition.aggregate description).weight ≤ schema.weight := by
  have told : (schema.kind type).definition? = some (.aggregate description) := by
    rw [described]
    rfl
  obtain ⟨entry, found, defined⟩ := schema.entry_of_kind type _ told
  rw [← defined]
  exact le_totalSize (List.mem_map_of_mem (List.mem_of_find?_eq_some found))

/-- The type and the markers of a field are no larger than all type expressions of the schema
    together. -/
theorem weight_field_le (type : Ty) (description : Aggregate)
    (described : schema.kind type = .aggregate description) (field : Field)
    (listed : field ∈ description.fields) :
    field.type.size + Marker.weight field.markers ≤ schema.weight := by
  have ofField : field.type.size + Marker.weight field.markers
      ≤ totalSize (description.fields.map fun field =>
          field.type.size + Marker.weight field.markers) :=
    le_totalSize (List.mem_map_of_mem listed)
  have ofAggregate := schema.weight_aggregate_le type description described
  rw [Definition.weight] at ofAggregate
  omega

/-- So are the type and the markers of a parameter. -/
theorem weight_parameter_le (type : Ty) (description : Aggregate)
    (described : schema.kind type = .aggregate description) (constructor : Constructor)
    (known : constructor ∈ description.constructors) (parameter : Parameter)
    (listed : parameter ∈ constructor.parameters) :
    parameter.type.size + Marker.weight parameter.markers ≤ schema.weight := by
  have ofParameter : parameter.type.size + Marker.weight parameter.markers
      ≤ totalSize (constructor.parameters.map fun parameter =>
          parameter.type.size + Marker.weight parameter.markers) :=
    le_totalSize (List.mem_map_of_mem listed)
  have ofConstructor : totalSize (constructor.parameters.map fun parameter =>
          parameter.type.size + Marker.weight parameter.markers)
      ≤ totalSize (description.constructors.map fun constructor =>
          totalSize (constructor.parameters.map fun parameter =>
            parameter.type.size + Marker.weight parameter.markers)) :=
    le_totalSize (List.mem_map.mpr ⟨constructor, known, rfl⟩)
  have ofAggregate := schema.weight_aggregate_le type description described
  rw [Definition.weight] at ofAggregate
  omega

/-- The type of a field is no larger than all type expressions of the schema together. -/
theorem size_field_le (type : Ty) (description : Aggregate)
    (described : schema.kind type = .aggregate description) (field : Field)
    (listed : field ∈ description.fields) : field.type.size ≤ schema.weight :=
  Nat.le_trans (Nat.le_add_right _ _)
    (schema.weight_field_le type description described field listed)

/-- How many entries describe types that are not being walked. -/
def unvisited (visited : List Ty) : Nat :=
  schema.entries.countP fun entry => !visited.contains entry.type

/-- Entering a described type leaves one entry fewer. -/
theorem unvisited_cons_lt (visited : List Ty) (type : Ty) (entry : Entry)
    (found : schema.find? type = some entry) (new : visited.contains type = false) :
    schema.unvisited (type :: visited) < schema.unvisited visited := by
  have own : entry.type = type := type_of_find? found
  have among : entry ∈ schema.entries.filter fun entry => !visited.contains entry.type := by
    refine List.mem_filter.mpr ⟨List.mem_of_find?_eq_some found, ?_⟩
    rw [own, new]
    rfl
  have split : schema.unvisited (type :: visited)
      = (schema.entries.filter fun entry => !visited.contains entry.type).countP
          fun entry => entry.type != type := by
    unfold unvisited
    rw [List.countP_filter]
    refine List.countP_congr fun entry _ => ?_
    simp
  have whole : schema.unvisited visited
      = (schema.entries.filter fun entry => !visited.contains entry.type).length :=
    List.countP_eq_length_filter
  rw [split, whole]
  refine List.countP_lt_length_iff.mpr ⟨entry, among, ?_⟩
  simp [own]

/-- Entering a described type leaves less room by all the layers that there can be up to the
    next one. -/
theorem unvisited_cons_room (visited : List Ty) (type : Ty) (entry : Entry)
    (found : schema.find? type = some entry) (new : visited.contains type = false) :
    schema.unvisited (type :: visited) * (schema.weight + 3) + (schema.weight + 3)
      ≤ schema.unvisited visited * (schema.weight + 3) := by
  have fewer := schema.unvisited_cons_lt visited type entry found new
  have less : (schema.unvisited (type :: visited) + 1) * (schema.weight + 3)
      ≤ schema.unvisited visited * (schema.weight + 3) := Nat.mul_le_mul_right _ fewer
  rwa [Nat.succ_mul] at less

/-- How many requests can be inside each other in an aggregate that is not entered yet. -/
def roomInside (visited : List Ty) : Nat :=
  schema.unvisited visited * (schema.weight + 3) + 1

/-- How many requests can be inside each other at a place, the one for the place included. -/
def roomAt (visited : List Ty) (context : Context) : Nat :=
  schema.unvisited visited * (schema.weight + 3) + context.declared.size
    + Marker.weight context.markers + 1

/-- The depth that a serializer allows at a place is all the room that there can be. -/
theorem roomAt_le_depth (context : Context) :
    schema.roomAt [] context ≤ schema.depth context := by
  have all : schema.unvisited [] ≤ schema.entries.length := List.countP_le_length
  have some : schema.unvisited [] * (schema.weight + 3)
      ≤ schema.entries.length * (schema.weight + context.declared.size
        + Marker.weight context.markers + 3) := Nat.mul_le_mul all (by omega)
  unfold roomAt depth
  rw [Nat.succ_mul]
  omega

/-- The depth is enough for a walk that starts at a place of the type, inside aggregates
    that are being walked. -/
def Suffices (visited : List Ty) (type : Ty) (depth : Nat) : Prop :=
  schema.unvisited visited * (schema.weight + 3) + type.size + 1 ≤ depth

/-- The depth is enough for a walk that enters an aggregate, inside others. -/
def SufficesInside (visited : List Ty) (depth : Nat) : Prop :=
  schema.unvisited visited * (schema.weight + 3) + 1 ≤ depth

variable {schema}

/-- One request deeper the depth is enough for everything smaller. -/
theorem Suffices.smaller {visited : List Ty} {type part : Ty} {depth : Nat}
    (enough : schema.Suffices visited type (depth + 1)) (smaller : part.size < type.size) :
    schema.Suffices visited part depth := by
  unfold Suffices at *
  omega

/-- One request deeper the depth is enough for entering an aggregate. -/
theorem Suffices.inside {visited : List Ty} {type : Ty} {depth : Nat}
    (enough : schema.Suffices visited type (depth + 1)) :
    schema.SufficesInside visited depth := by
  have positive := type.size_pos
  unfold Suffices SufficesInside at *
  omega

/-- Inside an aggregate that has not been entered before, the depth is enough for each of
    its fields. -/
theorem SufficesInside.field {visited : List Ty} {type : Ty} {depth : Nat}
    (enough : schema.SufficesInside visited (depth + 1)) (entry : Entry)
    (found : schema.find? type = some entry) (new : visited.contains type = false) (part : Ty)
    (small : part.size ≤ schema.weight) : schema.Suffices (type :: visited) part depth := by
  have less := schema.unvisited_cons_room visited type entry found new
  unfold SufficesInside Suffices at *
  omega

/-- The depth that a serializer takes is enough at the root of a type. -/
theorem suffices_root (schema : Schema) (context : Context) :
    schema.Suffices [] context.declared (schema.depth context) := by
  have room := schema.roomAt_le_depth context
  unfold roomAt at room
  unfold Suffices
  omega

end Schema

end Wireform
