import Wireform.Proofs.Wire

/-!
# What a walk meets

An encoding that fails has stopped at something that it cannot get past: a character or a length
that has no wire form, an aggregate inside of one of its own type, or a place whose type has
no codec. `Value.course` is the reference for where these stand. It goes down type and value
together like `Value.layout`, in the order of the walk, and lists the stretches of the wire with
the offences between them. A type is asked for its codec before the value is looked at, so that
a place can offend though nothing is there.

An operation performs a course if it appends the stretches before the first offence and fails
for that one. Behind it a course goes on with what would be met if the offence were not there,
so that all of them can be told; no operation gets that far.
-/

namespace Wireform

variable {α : Type}

/-- Something that an encoding cannot get past. -/
inductive Offence
  /-- A character that takes more than one unit. -/
  | character (code : Nat)
  /-- A length, or a number of entries or elements, that does not fit its prefix. -/
  | overflow (length : Nat)
  /-- A value of an aggregate type inside of one of the same type. -/
  | circular (type : Ty)
  /-- A place where nothing says what the elements of a sequence are. -/
  | untyped (type : Ty)
  /-- A place for whose type there is no codec. -/
  | unclaimed (type : Ty)
deriving DecidableEq, Repr

namespace Offence

/-- What a serializer says of an offence. -/
def error : Offence → Error
  | character code => .invalidChar code
  | overflow length => .lengthOverflow length
  | circular type => .circularReference type.name
  | untyped type => .missingElementType type.name
  | unclaimed type => .noCodecFound type.name

/-- An offence has no cause but itself. -/
@[simp] theorem rootCause_error (offence : Offence) :
    offence.error.rootCause = offence.error := by
  cases offence <;> rfl

end Offence

/-- What a walk meets at a time. -/
inductive Stage
  | piece (piece : Piece)
  | offence (offence : Offence)

/-- What a walk meets from its beginning to its end. -/
abbrev Course := List Stage

namespace Course

/-- The stretches of the wire up to the first offence. -/
def front : Course → List Piece
  | [] => []
  | .piece piece :: rest => piece :: front rest
  | .offence _ :: _ => []

/-- The offences in the order in which they are met. -/
def offences : Course → List Offence
  | [] => []
  | .piece _ :: rest => offences rest
  | .offence offence :: rest => offence :: offences rest

/-- How a walk ends, whatever fields the failure is in. -/
def ending (course : Course) : Except Error Unit :=
  match course.offences with
  | [] => .ok ()
  | offence :: _ => .error offence.error

/-- The course of stretches without an offence. -/
def clear (pieces : List Piece) : Course := pieces.map .piece

/-- Stretches that are there if they fit, and otherwise an offence in their place. -/
def guarded (fits : Prop) [Decidable fits] (pieces : List Piece) (offence : Offence) : Course :=
  if fits then clear pieces else [.offence offence]

/-- Text, whose length must fit four octets of which the first bit is never set. -/
def text (text : String) : Course :=
  let length := (Text.Utf8.encode text).length
  guarded (length < 0x80000000) (Piece.text text) (.overflow length)

/-- Octets, whose number must fit like the length of text. -/
def counted (octets : Bytes) : Course :=
  guarded (octets.length < 0x80000000) (Piece.counted octets) (.overflow octets.length)

/-- Mere stretches are met to the last. -/
@[simp] theorem front_clear (pieces : List Piece) : front (clear pieces) = pieces := by
  induction pieces with
  | nil => rfl
  | cons piece rest inductionHypothesis => exact congrArg (piece :: ·) inductionHypothesis

/-- The offences of one course come before those of the next. -/
@[simp] theorem offences_append (first second : Course) :
    offences (first ++ second) = offences first ++ offences second := by
  induction first with
  | nil => rfl
  | cons stage rest inductionHypothesis =>
      cases stage with
      | piece piece => exact inductionHypothesis
      | offence offence => exact congrArg (offence :: ·) inductionHypothesis

/-- A course without an offence is gone through to its end. -/
theorem front_append_of_clear (first second : Course) (none : offences first = []) :
    front (first ++ second) = front first ++ front second := by
  induction first with
  | nil => rfl
  | cons stage rest inductionHypothesis =>
      cases stage with
      | piece piece => exact congrArg (piece :: ·) (inductionHypothesis none)
      | offence offence => cases none

/-- What follows an offence is not met. -/
theorem front_append_of_offence (first second : Course) (some : offences first ≠ []) :
    front (first ++ second) = front first := by
  induction first with
  | nil => exact absurd rfl some
  | cons stage rest inductionHypothesis =>
      cases stage with
      | piece piece => exact congrArg (piece :: ·) (inductionHypothesis some)
      | offence offence => rfl

/-- Only a course without an offence ends well. -/
theorem ending_eq_ok {course : Course} : course.ending = .ok () ↔ course.offences = [] := by
  unfold ending
  cases course.offences <;> simp

/-- A course without an offence leaves the ending to the next one. -/
theorem ending_append_of_clear (first second : Course) (none : offences first = []) :
    ending (first ++ second) = ending second := by
  simp only [ending, offences_append, none, List.nil_append]

/-- The first offence decides. -/
theorem ending_append_of_offence (first second : Course) (some : offences first ≠ []) :
    ending (first ++ second) = ending first := by
  unfold ending
  rw [offences_append]
  cases found : offences first with
  | nil => exact absurd found some
  | cons offence later => rfl

/-- A course with an offence is the stretches before the first one, that one, and the rest. -/
theorem eq_front_append (course : Course) (offence : Offence) (later : List Offence)
    (met : course.offences = offence :: later) :
    ∃ rest, course = clear course.front ++ .offence offence :: rest := by
  induction course with
  | nil => cases met
  | cons stage rest inductionHypothesis =>
      cases stage with
      | piece piece =>
          obtain ⟨others, same⟩ := inductionHypothesis met
          exact ⟨others, congrArg (Stage.piece piece :: ·) same⟩
      | offence first =>
          cases met
          exact ⟨rest, rfl⟩

/-! ## Courses and layouts -/

/-- The course goes along the layout: what is met before the first offence is the beginning of
    the layout, and all of it if there is none. -/
def Tracks (course : Course) (pieces : List Piece) : Prop :=
  front course <+: pieces ∧ (offences course = [] → front course = pieces)

/-- Mere stretches go along themselves. -/
theorem tracks_clear (pieces : List Piece) : Tracks (clear pieces) pieces := by
  rw [Tracks, front_clear]
  exact ⟨List.prefix_rfl, fun _ => rfl⟩

/-- Where an offence is met at once, nothing of the layout is. -/
theorem tracks_offence (offence : Offence) (rest : Course) (pieces : List Piece) :
    Tracks (.offence offence :: rest) pieces :=
  ⟨List.nil_prefix, nofun⟩

/-- Stretches that must fit go along themselves. -/
theorem tracks_guarded (fits : Prop) [Decidable fits] (pieces : List Piece) (offence : Offence) :
    Tracks (guarded fits pieces offence) pieces := by
  unfold guarded
  split
  · exact tracks_clear pieces
  · exact tracks_offence offence [] pieces

/-- Courses go along layouts one after another. -/
theorem tracks_append {first second : Course} {pieces others : List Piece}
    (tracksFirst : Tracks first pieces) (tracksSecond : Tracks second others) :
    Tracks (first ++ second) (pieces ++ others) := by
  by_cases none : offences first = []
  · rw [Tracks, front_append_of_clear first second none, tracksFirst.2 none, offences_append, none]
    exact ⟨(List.prefix_append_right_inj pieces).mpr tracksSecond.1,
      fun rest => congrArg (pieces ++ ·) (tracksSecond.2 rest)⟩
  · rw [Tracks, front_append_of_offence first second none, offences_append]
    exact ⟨tracksFirst.1.trans (List.prefix_append _ _),
      fun both => absurd (List.append_eq_nil_iff.mp both).1 none⟩

/-- Courses of many items go along their layouts. -/
theorem tracks_flatMap {course : α → Course} {pieces : α → List Piece} (items : List α)
    (each : ∀ item ∈ items, Tracks (course item) (pieces item)) :
    Tracks (items.flatMap course) (items.flatMap pieces) := by
  induction items with
  | nil => exact tracks_clear []
  | cons item rest inductionHypothesis =>
      exact tracks_append (each item List.mem_cons_self)
        (inductionHypothesis fun other later => each other (List.mem_cons_of_mem _ later))

end Course

/-! ## The course of a value -/

/-- A scalar on its way to the wire. -/
def Scalar.course : Scalar → Course
  | .char character =>
      let code := character.toNat
      Course.guarded (code < 0x10000) [.number 2 code] (.character code)
  | .string text => Course.text text
  | .bytes octets => Course.counted octets
  | plain => Course.clear plain.layout

namespace Schema

/-- A type other than a built-in leaf offends at its place by its kind. -/
def refusedByKind (schema : Schema) (type : Ty) (element : Option Ty) : Course :=
  match schema.kind type, element with
  | .leaf, _ => [.offence (.unclaimed type)]
  | .sequence none, none => [.offence (.untyped type)]
  | _, _ => []

/-- A place offends by its type, whatever is there, if the type is a leaf without a codec or a
    sequence of which neither its type nor a marker says what its elements are. -/
def refused (schema : Schema) (type : Ty) (element : Option Ty) : Course :=
  match type with
  | .leaf plain => if plain ∈ Leaf.supported then [] else [.offence (.unclaimed (.leaf plain))]
  | type => schema.refusedByKind type element

end Schema

/-- What a walk meets at the fields of an aggregate, given what it meets at each of the members
    inside of aggregate types, at a type and an element type that markers name. -/
def Field.courses (schema : Schema) (active : List Ty) (fields : List Field)
    (members : List (List Ty → Ty → Option Ty → Course)) : Course :=
  fields.flatMap fun field =>
    match members[field.slot]? with
    | some course =>
        let element := Marker.element? field.markers
        schema.refused field.type.unwrapped element
          ++ (Course.clear (Piece.presence field.type field.markers)
            ++ course active field.type element)
    | none => []

namespace Value

variable (schema : Schema)

mutual

/-- What a walk inside of aggregate types meets at a value of a type, where markers may name
    an element type. The place of the value itself has been passed; each element, each key
    and each value of an entry, each field and each option inside of an option is at a place of
    its own. -/
def course : Value → (active : List Ty) → (type : Ty) → (element : Option Ty) → Course
  | .scalar plain, _, type, _ =>
      match schema.kind type with
      | .leaf => plain.course
      | _ => []
  | .member _ index, _, type, _ =>
      match schema.kind type with
      | .enumeration names => Course.text (names[index]?.getD "")
      | _ => []
  | .absent _, _, type, _ =>
      match schema.kind type with
      | .nullable _ => Course.clear [.flag false]
      | _ => []
  | .present value, active, type, element =>
      match schema.kind type with
      | .nullable inner =>
          Course.clear [.flag true]
            ++ if inner.stripsOption then
                schema.refused inner.unwrapped none ++ course value active inner none
              else course value active inner element
      | _ => []
  | .boxed value, active, type, element =>
      match schema.kind type with
      | .pointer inner => course value active inner element
      | _ => []
  | .sequence _ items, active, type, element =>
      match schema.kind type with
      | .sequence declared =>
          if type = Ty.vector .u8 then Course.counted ((Codec.octets? items).getD [])
          else
            match element.or declared with
            | some part =>
                let count := items.length
                Course.guarded (count < 0x8000000000000000) [.elementCount count] (.overflow count)
                  ++ (itemCourses items).flatMap fun course =>
                      schema.refused part.unwrapped none ++ course active part none
            | none => []
      | _ => []
  | .map _ entries, active, type, _ =>
      match schema.kind type with
      | .map key part =>
          let count := entries.length
          Course.guarded (count < 0x80000000) [.entryCount count] (.overflow count)
            ++ (entryCourses entries).flatMap fun courses =>
                (schema.refused key.unwrapped none ++ courses.1 active key none)
                  ++ (schema.refused part.unwrapped none ++ courses.2 active part none)
      | _ => []
  | .record _ members, active, type, _ =>
      match schema.kind type with
      | .aggregate description =>
          if active.contains type then [.offence (.circular type)]
          else Field.courses schema (type :: active) description.fields (itemCourses members)
      | _ => []

/-- What a walk meets at each element or member. -/
def itemCourses : List Value → List (List Ty → Ty → Option Ty → Course)
  | [] => []
  | item :: rest => course item :: itemCourses rest

/-- What a walk meets at the key and at the value of each entry. -/
def entryCourses : List (Value × Value) →
    List ((List Ty → Ty → Option Ty → Course) × (List Ty → Ty → Option Ty → Course))
  | [] => []
  | (key, value) :: rest => (course key, course value) :: entryCourses rest

end

/-- What a walk inside of aggregate types meets at a place with markers. -/
def courseAt (active : List Ty) (declared : Ty) (markers : List Marker) (value : Value) : Course :=
  let element := Marker.element? markers
  schema.refused declared.unwrapped element
    ++ (Course.clear (Piece.presence declared markers)
      ++ value.course schema active declared element)

/-- What a walk meets that starts at the value. -/
def wholeCourse (value : Value) : Course := value.courseAt schema [] value.type []

/-- The offences of a value in the order of the walk. -/
def offences (value : Value) : List Offence := Course.offences (value.wholeCourse schema)

/-- Without markers there is nothing but the place and the value. -/
theorem courseAt_nil (active : List Ty) (declared : Ty) (value : Value) :
    value.courseAt schema active declared []
      = schema.refused declared.unwrapped none ++ value.course schema active declared none := by
  have unmarked : Piece.presence declared [] = [] := by simp [Piece.presence]
  simp only [courseAt, unmarked]
  rfl

/-- Each element is met as it would be alone. -/
theorem itemCourses_eq_map (items : List Value) :
    itemCourses schema items = items.map (course schema) := by
  induction items with
  | nil => rfl
  | cons item rest inductionHypothesis =>
      simp only [itemCourses, inductionHypothesis, List.map_cons]

/-- Each key and each value is met as it would be alone. -/
theorem entryCourses_eq_map (entries : List (Value × Value)) :
    entryCourses schema entries
      = entries.map fun entry => (course schema entry.1, course schema entry.2) := by
  induction entries with
  | nil => rfl
  | cons entry rest inductionHypothesis =>
      obtain ⟨key, value⟩ := entry
      simp only [entryCourses, inductionHypothesis, List.map_cons]

/-- A member of an enumeration is met as its name. -/
theorem course_member (active : List Ty) (type own : Ty) (names : List String)
    (described : schema.kind type = .enumeration names) (index : Nat) (element : Option Ty) :
    course schema (.member own index) active type element
      = Course.text (names[index]?.getD "") := by
  simp only [course, described]

/-- A vector of octets is met as counted octets. -/
theorem course_octets (active : List Ty) (own : Ty) (items : List Value) (octets : Bytes)
    (held : Codec.octets? items = some octets) (element : Option Ty) :
    course schema (.sequence own items) active (Ty.vector .u8) element = Course.counted octets := by
  simp only [course, Ty.vector, Schema.kind, if_true, held, Option.getD_some]

/-- Any other collection is met as its number of elements and each of them at its place. -/
theorem course_sequence (active : List Ty) (type own part : Ty) (declared element : Option Ty)
    (other : type ≠ Ty.vector .u8) (described : schema.kind type = .sequence declared)
    (chosen : element.or declared = some part) (items : List Value) :
    course schema (.sequence own items) active type element
      = Course.guarded (items.length < 0x8000000000000000) [.elementCount items.length]
          (.overflow items.length)
        ++ items.flatMap fun item => item.courseAt schema active part [] := by
  simp only [course, described, if_neg other, chosen, itemCourses_eq_map, List.flatMap_map,
    courseAt_nil]

/-- A map is met as its number of entries and each key before its value. -/
theorem course_map (active : List Ty) (kind : MapKind) (key part own : Ty)
    (entries : List (Value × Value)) (element : Option Ty) :
    course schema (.map own entries) active (.map kind key part) element
      = Course.guarded (entries.length < 0x80000000) [.entryCount entries.length]
          (.overflow entries.length)
        ++ entries.flatMap fun entry =>
          entry.1.courseAt schema active key [] ++ entry.2.courseAt schema active part [] := by
  simp only [course, Schema.kind, entryCourses_eq_map, List.flatMap_map, courseAt_nil]

/-- An aggregate is met as its fields, unless it is inside of one of its type. -/
theorem course_record (active : List Ty) (type own : Ty) (description : Aggregate)
    (described : schema.kind type = .aggregate description) (members : List Value)
    (element : Option Ty) :
    course schema (.record own members) active type element
      = if active.contains type then [.offence (.circular type)]
        else description.fields.flatMap fun field =>
          match members[field.slot]? with
          | some child => child.courseAt schema (type :: active) field.type field.markers
          | none => [] := by
  simp only [course, described, Field.courses, itemCourses_eq_map, List.getElem?_map]
  congr 2
  funext field
  cases members[field.slot]? <;> rfl

end Value

namespace Schema

/-- A type other than a built-in leaf offends at its place exactly if it has no shape. -/
theorem refusedByKind_of_shape (schema : Schema) (type : Ty) (element : Option Ty)
    (bare : ∀ inner, schema.kind type ≠ .pointer inner) :
    (∃ shape, schema.shapeOfKind type element = .ok shape ∧
        schema.refusedByKind type element = []) ∨
      ∃ offence, schema.shapeOfKind type element = .error offence.error ∧
        schema.refusedByKind type element = [.offence offence] := by
  unfold shapeOfKind refusedByKind
  cases kind : schema.kind type with
  | leaf => exact .inr ⟨.unclaimed type, rfl, rfl⟩
  | pointer inner => exact absurd kind (bare inner)
  | sequence declared =>
      cases element with
      | some part => exact .inl ⟨.sequence part, rfl, by cases declared <;> rfl⟩
      | none =>
          cases declared with
          | some part => exact .inl ⟨.sequence part, rfl, rfl⟩
          | none => exact .inr ⟨.untyped type, rfl, rfl⟩
  | _ => exact .inl ⟨_, rfl, rfl⟩

/-- A type offends at its place exactly if it has no shape there. The offence is what is said
    of it. -/
theorem refused_of_shape (schema : Schema) (type : Ty) (element : Option Ty)
    (bare : ∀ inner, type ≠ .boxed inner) :
    (∃ shape, schema.shape type element = .ok shape ∧ schema.refused type element = []) ∨
      ∃ offence, schema.shape type element = .error offence.error ∧
        schema.refused type element = [.offence offence] := by
  cases type with
  | leaf plain =>
      by_cases supported : plain ∈ Leaf.supported
      · exact .inl ⟨.leaf plain, if_pos supported, if_pos supported⟩
      · exact .inr ⟨.unclaimed (.leaf plain), if_neg supported, if_neg supported⟩
  | boxed inner => exact absurd rfl (bare inner)
  | sequence kind part =>
      by_cases octets : Ty.sequence kind part = Ty.vector .u8
      · refine .inl ⟨.octets, if_pos octets, ?_⟩
        cases element <;> rfl
      · have shaped : schema.shape (.sequence kind part) element
            = schema.shapeOfKind (.sequence kind part) element := if_neg octets
        rw [shaped]
        exact schema.refusedByKind_of_shape _ element nofun
  | named name => exact schema.refusedByKind_of_shape _ element (schema.namedKind_cases _).2.1
  | applied generic argument =>
      exact schema.refusedByKind_of_shape _ element (schema.namedKind_cases _).2.1
  | option inner => exact schema.refusedByKind_of_shape (.option inner) element nofun
  | map kind key part => exact schema.refusedByKind_of_shape (.map kind key part) element nofun

end Schema

end Wireform
