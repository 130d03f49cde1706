import Wireform.Proofs.Course
import Wireform.Proofs.Depth
import Wireform.Proofs.Stripping

/-!
# Proper values

A value is proper if it is what a program can hold of its type: whatever it is made of is of the
type that is declared for it, members of enumerations exist, and an aggregate has a member for
each of its fields. A sequence that does not declare the type of its elements has one all the
same, and nothing is known of a leaf without visible structure but its type. Sets and maps may
hold what they like in any order; encoding does not look.

A marker is truthful if it names the type that the elements at its place really have. Where all
markers are, a walk through a proper value never meets a value of another type than it
looks for, and what it meets at a place is the course of the value below the stripped layers.
-/

namespace Wireform

variable {schema : Schema}

/-- The type of the elements of a sequence, whether the type of the sequence declares it or
    only its description knows it. -/
def Schema.itemType? (schema : Schema) : Ty → Option Ty
  | .sequence _ element => some element
  | type =>
      match (schema.find? type).map Entry.definition with
      | some (.sequence item) => some item
      | _ => none

/-- What a sequence declares of its elements is so. -/
theorem Schema.itemType?_of_declared (schema : Schema) (type element : Ty)
    (described : schema.kind type = .sequence (some element)) :
    schema.itemType? type = some element := by
  obtain ⟨kind, rfl⟩ := schema.kind_sequence type element described
  rfl

/-- The markers name the type that the elements at their place have, if they name one at all. -/
def Marker.Truthful (schema : Schema) (declared : Ty) (markers : List Marker) : Prop :=
  ∀ item named, schema.itemType? declared.unwrapped = some item →
    element? markers = some named → named = item

/-- No markers tell no lies. -/
theorem Marker.truthful_nil (schema : Schema) (declared : Ty) :
    Marker.Truthful schema declared [] := by
  rintro item named _ ⟨⟩

/-- If the type is an aggregate, the markers of its fields are truthful. -/
def Schema.Truthful (schema : Schema) (type : Ty) : Prop :=
  ∀ description, schema.kind type = .aggregate description → ∀ field ∈ description.fields,
    Marker.Truthful schema field.type field.markers

/-- The value is one that a program can hold of the type. -/
inductive Value.Proper (schema : Schema) : Ty → Value → Prop
  | scalar (plain : Scalar) : Proper schema (.leaf plain.leaf) (.scalar plain)
  | leaf (type : Ty) (described : schema.kind type = .leaf)
      (other : ∀ plain, type ≠ .leaf plain) (value : Value) (own : value.type = type) :
      Proper schema type value
  | member (type : Ty) (names : List String) (described : schema.kind type = .enumeration names)
      (index : Nat) (known : index < names.length) : Proper schema type (.member type index)
  | absent (inner : Ty) : Proper schema (.option inner) (.absent inner)
  | present (inner : Ty) (value : Value) (held : Proper schema inner value) :
      Proper schema (.option inner) (.present value)
  | boxed (inner : Ty) (value : Value) (held : Proper schema inner value) :
      Proper schema (.boxed inner) (.boxed value)
  | sequence (type : Ty) (declared : Option Ty) (described : schema.kind type = .sequence declared)
      (part : Ty) (made : schema.itemType? type = some part) (items : List Value)
      (each : ∀ item ∈ items, Proper schema part item) :
      Proper schema type (.sequence type items)
  | map (kind : MapKind) (key part : Ty) (entries : List (Value × Value))
      (keys : ∀ entry ∈ entries, Proper schema key entry.1)
      (parts : ∀ entry ∈ entries, Proper schema part entry.2) :
      Proper schema (.map kind key part) (.map (.map kind key part) entries)
  | record (type : Ty) (description : Aggregate)
      (described : schema.kind type = .aggregate description) (members : List Value)
      (slots : ∀ field ∈ description.fields, field.slot < members.length)
      (fields : ∀ field ∈ description.fields, ∀ member, members[field.slot]? = some member →
        Proper schema field.type member) :
      Proper schema type (.record type members)

namespace Value.Proper

variable {type : Ty} {value : Value}

/-- A proper value carries its type. -/
theorem type_eq (proper : value.Proper schema type) : value.type = type := by
  induction proper with
  | present inner value _ inductionHypothesis => exact congrArg Ty.option inductionHypothesis
  | boxed inner value _ inductionHypothesis => exact congrArg Ty.boxed inductionHypothesis
  | leaf type _ _ value own => exact own
  | _ => rfl

/-- A proper value of a built-in leaf is a scalar of it. -/
theorem scalar_of_leaf (plain : Leaf) (proper : value.Proper schema (.leaf plain)) :
    ∃ held, value = .scalar held ∧ held.leaf = plain := by
  cases proper with
  | scalar held => exact ⟨held, rfl, rfl⟩
  | leaf _ _ other => exact absurd rfl (other plain)
  | member _ names described => cases described
  | sequence _ declared described => cases described
  | record _ description described => cases described

/-- A proper value of an enumeration is one of its members. -/
theorem member_of_kind (names : List String) (described : schema.kind type = .enumeration names)
    (proper : value.Proper schema type) :
    ∃ index, value = .member type index ∧ index < names.length := by
  cases proper with
  | member _ others otherwise index known =>
      rw [described] at otherwise
      cases otherwise
      exact ⟨index, rfl, known⟩
  | leaf _ otherwise => rw [described] at otherwise; cases otherwise
  | sequence _ _ otherwise => rw [described] at otherwise; cases otherwise
  | record _ _ otherwise => rw [described] at otherwise; cases otherwise
  | _ => cases described

/-- A proper value of a sequence has proper elements of the type that they have. -/
theorem items_of_kind (declared : Option Ty) (described : schema.kind type = .sequence declared)
    (proper : value.Proper schema type) :
    ∃ items part, value = .sequence type items ∧ schema.itemType? type = some part ∧
      ∀ item ∈ items, item.Proper schema part := by
  cases proper with
  | sequence _ _ _ part made items each => exact ⟨items, part, rfl, made, each⟩
  | leaf _ otherwise => rw [described] at otherwise; cases otherwise
  | member _ _ otherwise => rw [described] at otherwise; cases otherwise
  | record _ _ otherwise => rw [described] at otherwise; cases otherwise
  | _ => cases described

/-- A proper value of a map has proper keys and values. -/
theorem entries_of_map (kind : MapKind) (key part : Ty)
    (proper : value.Proper schema (.map kind key part)) :
    ∃ entries, value = .map (.map kind key part) entries ∧
      (∀ entry ∈ entries, entry.1.Proper schema key) ∧
      ∀ entry ∈ entries, entry.2.Proper schema part := by
  cases proper with
  | map _ _ _ entries keys parts => exact ⟨entries, rfl, keys, parts⟩
  | leaf _ described => cases described
  | member _ names described => cases described
  | sequence _ declared described => cases described
  | record _ description described => cases described

/-- A proper value of an aggregate has a proper member for each field. -/
theorem members_of_kind (description : Aggregate)
    (described : schema.kind type = .aggregate description) (proper : value.Proper schema type) :
    ∃ members, value = .record type members ∧ ∀ field ∈ description.fields,
      ∃ member, members[field.slot]? = some member ∧ member.Proper schema field.type := by
  cases proper with
  | record _ other otherwise members slots fields =>
      rw [described] at otherwise
      cases otherwise
      refine ⟨members, rfl, fun field listed => ?_⟩
      have found := List.getElem?_eq_getElem (slots field listed)
      exact ⟨_, found, fields field listed _ found⟩
  | leaf _ otherwise => rw [described] at otherwise; cases otherwise
  | member _ _ otherwise => rw [described] at otherwise; cases otherwise
  | sequence _ _ otherwise => rw [described] at otherwise; cases otherwise
  | _ => cases described

/-- A proper value of an option is absent, or holds a proper value. -/
theorem option_cases (inner : Ty) (proper : value.Proper schema (.option inner)) :
    value = .absent inner ∨ ∃ held, value = .present held ∧ held.Proper schema inner := by
  cases proper with
  | absent => exact .inl rfl
  | present _ held inside => exact .inr ⟨held, rfl, inside⟩
  | leaf _ described => cases described
  | member _ names described => cases described
  | sequence _ declared described => cases described
  | record _ description described => cases described

/-- A proper value of a box holds a proper value. -/
theorem held_of_boxed (inner : Ty) (proper : value.Proper schema (.boxed inner)) :
    ∃ held, value = .boxed held ∧ held.Proper schema inner := by
  cases proper with
  | boxed _ held inside => exact ⟨held, rfl, inside⟩
  | leaf _ described => cases described
  | member _ names described => cases described
  | sequence _ declared described => cases described
  | record _ description described => cases described

/-- Proper values are of their type in a way in which layers have no say. -/
theorem layered (schema : Schema) : Layered fun type value => value.Proper schema type where
  type_eq := type_eq
  absent := .absent
  present := ⟨fun proper => by simpa using proper.option_cases _, .present _ _⟩
  boxed := ⟨fun proper => by simpa using proper.held_of_boxed _, .boxed _ _⟩

/-- A proper value is of its type as far as options and boxes go. -/
theorem inhabits (proper : value.Proper schema type) : value.Inhabits type := by
  induction type generalizing value with
  | option inner inductionHypothesis =>
      obtain rfl | ⟨held, rfl, inside⟩ := proper.option_cases inner
      · exact .inl rfl
      · exact .inr ⟨held, rfl, inductionHypothesis inside⟩
  | boxed inner inductionHypothesis =>
      obtain ⟨held, rfl, inside⟩ := proper.held_of_boxed inner
      exact ⟨held, rfl, inductionHypothesis inside⟩
  | _ => exact proper.type_eq

/-- A proper value goes through the layers that a place strips, and what is below is proper. -/
theorem project (stripped : Bool) (proper : value.Proper schema type) :
    ∃ inner, Context.projectThrough (type.peel stripped).1 value = .ok inner ∧
      ∀ core, inner = some core → core.Proper schema (type.peel stripped).2 := by
  obtain ⟨inner, projected⟩ := proper.inhabits.exists_project stripped
  refine ⟨inner, projected, ?_⟩
  rintro core rfl
  exact (layered schema).project type stripped value core proper projected

end Value.Proper

/-! ## What is met at a place -/

/-- Under layers of which the option is gone the unwrapped type is the same. -/
theorem Ty.unwrapped_peel (type : Ty) : (type.peel true).2.unwrapped = type.unwrapped := by
  induction type with
  | boxed inner inductionHypothesis => exact inductionHypothesis
  | _ => rfl

namespace Value

variable (schema)

/-- What a walk meets at what is below the stripped layers of a place. An option that is left
    there is at a place of its own; otherwise an element type that markers name counts. -/
def courseBelow (active : List Ty) (type : Ty) (marked : Option Ty) (core : Value) : Course :=
  if type.isOption then core.courseAt schema active type []
  else core.course schema active type marked

/-- What is met at the layers that a place strips is the flag of the option, if there is one.
    If it is there, what is below it comes next. -/
theorem course_project (active : List Ty) (type : Ty) (element : Option Ty) (value : Value)
    (inner : Option Value)
    (projected : Context.projectThrough type.layers value = .ok inner) :
    (inner = none ∧ type.stripsOption = true ∧
        value.course schema active type element = Course.clear [.flag false]) ∨
      ∃ core, inner = some core ∧ value.course schema active type element
        = Course.clear (if type.stripsOption then [.flag true] else [])
          ++ core.courseBelow schema active type.unwrapped element := by
  induction type generalizing value with
  | boxed below inductionHypothesis =>
      obtain ⟨next, rfl, _, later⟩ :=
        (Context.projectThrough_pointer below _ value inner).mp projected
      exact inductionHypothesis next later
  | option below =>
      obtain ⟨rfl, rfl⟩ | ⟨next, rfl, _, later⟩ :=
        (Context.projectThrough_nullable below _ value inner).mp projected
      · exact .inl ⟨rfl, rfl, rfl⟩
      · -- Boxes are passed without a trace.
        obtain ⟨core, held, same⟩ := Context.view_pointers
          (fun value type => value.course schema active type) (fun _ _ => rfl) below next inner later
        have kept : (below.peel true).2.isOption = below.stripsOption := Ty.isOption_peel below
        have named : (Ty.option below).unwrapped = (below.peel true).2 := rfl
        refine .inr ⟨core, held, congrArg (Course.clear [.flag true] ++ ·) ?_⟩
        rw [courseBelow, named, kept, courseAt_nil, Ty.unwrapped_peel, same]
  | _ =>
      cases projected
      exact .inr ⟨value, rfl, rfl⟩

/-- A place that does not refuse its type has one flag if it strips an option or is marked
    nullable, and behind it, if the value is there, what is below the stripped layers. -/
theorem courseAt_project (active : List Ty) (declared : Ty) (markers : List Marker)
    (value : Value) (inner : Option Value)
    (accepted : schema.refused declared.unwrapped (Marker.element? markers) = [])
    (projected : Context.projectThrough declared.layers value = .ok inner) :
    (inner = none ∧ declared.stripsOption = true ∧
        value.courseAt schema active declared markers = Course.clear [.flag false]) ∨
      ∃ core, inner = some core ∧ value.courseAt schema active declared markers
        = Course.clear
            (if declared.stripsOption || markers.contains .nullable then [.flag true] else [])
          ++ core.courseBelow schema active declared.unwrapped (Marker.element? markers) := by
  obtain ⟨rfl, strips, met⟩ | ⟨core, rfl, met⟩ :=
    course_project schema active declared (Marker.element? markers) value inner projected
  · refine .inl ⟨rfl, strips, ?_⟩
    simp only [courseAt, accepted, met, Piece.presence, strips]
    rfl
  · refine .inr ⟨core, rfl, ?_⟩
    rw [courseAt, accepted, met, List.nil_append, ← List.append_assoc]
    congr 1
    unfold Piece.presence
    cases declared.stripsOption <;> cases markers.contains .nullable <;> rfl

end Value

/-! ## Courses go along layouts -/

/-- A refused type stands for nothing on the wire. -/
theorem Schema.tracks_refused (schema : Schema) (type : Ty) (element : Option Ty) :
    Course.Tracks (schema.refused type element) [] := by
  unfold refused
  split
  · split
    · exact Course.tracks_clear []
    · exact Course.tracks_offence _ [] []
  · unfold refusedByKind
    split
    · exact Course.tracks_offence _ [] []
    · exact Course.tracks_offence _ [] []
    · exact Course.tracks_clear []

/-- A scalar goes along its layout. -/
theorem Scalar.tracks_course (plain : Scalar) : Course.Tracks plain.course plain.layout := by
  cases plain with
  | char character => exact Course.tracks_guarded _ _ _
  | string text => exact Course.tracks_guarded _ _ _
  | bytes octets => exact Course.tracks_guarded _ _ _
  | _ => exact Course.tracks_clear _

namespace Value

/-- What goes along a value goes along it at a place. -/
theorem tracks_courseAt {value : Value} {type : Ty}
    (tracks : ∀ active element, Course.Tracks (value.course schema active type element)
      (value.layout schema type element))
    (active : List Ty) (markers : List Marker) :
    Course.Tracks (value.courseAt schema active type markers)
      (value.layoutAt schema type markers) := by
  have behind := Course.tracks_append (Course.tracks_clear (Piece.presence type markers))
    (tracks active (Marker.element? markers))
  have whole := Course.tracks_append
    (schema.tracks_refused type.unwrapped (Marker.element? markers)) behind
  exact whole

mutual

/-- What a walk meets before the first offence is the beginning of the wire form of the value,
    and all of it if there is no offence. -/
theorem tracks_course : (value : Value) → (active : List Ty) → (type : Ty) →
    (element : Option Ty) → Course.Tracks (value.course schema active type element)
      (value.layout schema type element)
  | .scalar plain, active, type, element => by
      cases described : schema.kind type with
      | leaf =>
          simp only [course, layout, described]
          exact plain.tracks_course
      | _ =>
          simp only [course, layout, described]
          exact Course.tracks_clear []
  | .member _ index, active, type, element => by
      cases described : schema.kind type with
      | enumeration names =>
          simp only [course, layout, described]
          exact Course.tracks_guarded _ _ _
      | _ =>
          simp only [course, layout, described]
          exact Course.tracks_clear []
  | .absent _, active, type, element => by
      cases described : schema.kind type with
      | nullable inner =>
          simp only [course, layout, described]
          exact Course.tracks_clear _
      | _ =>
          simp only [course, layout, described]
          exact Course.tracks_clear []
  | .present value, active, type, element => by
      cases described : schema.kind type with
      | nullable inner =>
          simp only [course, layout, described]
          refine Course.tracks_append (Course.tracks_clear [.flag true]) ?_
          split
          · exact Course.tracks_append (schema.tracks_refused _ _)
              (tracks_course value active inner none)
          · exact tracks_course value active inner element
      | _ =>
          simp only [course, layout, described]
          exact Course.tracks_clear []
  | .boxed value, active, type, element => by
      cases described : schema.kind type with
      | pointer inner =>
          simp only [course, layout, described]
          exact tracks_course value active inner element
      | _ =>
          simp only [course, layout, described]
          exact Course.tracks_clear []
  | .sequence own items, active, type, element => by
      cases described : schema.kind type with
      | sequence declared =>
          by_cases octets : type = Ty.vector .u8
          · simp only [course, layout, described, if_pos octets]
            exact Course.tracks_guarded _ _ _
          · cases chosen : element.or declared with
            | none =>
                simp only [course, layout, described, if_neg octets, chosen]
                exact Course.tracks_clear []
            | some part =>
                rw [course_sequence schema active type own part declared element octets described
                    chosen items,
                  layout_sequence schema type own part declared element octets described chosen
                    items]
                refine Course.tracks_append (Course.tracks_guarded _ [.elementCount items.length] _)
                  (Course.tracks_flatMap items fun item listed => ?_)
                rw [courseAt_nil]
                exact Course.tracks_append (schema.tracks_refused _ _)
                  (tracks_items items item listed active part none)
      | _ =>
          simp only [course, layout, described]
          exact Course.tracks_clear []
  | .map own entries, active, type, element => by
      cases described : schema.kind type with
      | map key part =>
          obtain ⟨kind, rfl⟩ := schema.kind_map type key part described
          rw [course_map, layout_map]
          refine Course.tracks_append (Course.tracks_guarded _ [.entryCount entries.length] _)
            (Course.tracks_flatMap entries fun entry listed => ?_)
          obtain ⟨tracksKey, tracksPart⟩ := tracks_entries entries entry listed
          rw [courseAt_nil, courseAt_nil]
          exact Course.tracks_append
            (Course.tracks_append (schema.tracks_refused _ _) (tracksKey active key none))
            (Course.tracks_append (schema.tracks_refused _ _) (tracksPart active part none))
      | _ =>
          simp only [course, layout, described]
          exact Course.tracks_clear []
  | .record own members, active, type, element => by
      cases described : schema.kind type with
      | aggregate description =>
          rw [course_record schema active type own description described members element]
          split
          · exact Course.tracks_offence _ [] _
          · simp only [layout, described, Field.layouts, itemLayouts_eq_map, List.getElem?_map]
            refine Course.tracks_flatMap description.fields fun field _ => ?_
            cases found : members[field.slot]? with
            | none => exact Course.tracks_clear []
            | some child =>
                have listed : child ∈ members := List.mem_of_getElem? found
                exact tracks_courseAt
                  (fun active => tracks_items members child listed active field.type) _
                  field.markers
      | _ =>
          simp only [course, layout, described]
          exact Course.tracks_clear []

/-- The same of each element or member. -/
theorem tracks_items : (items : List Value) → ∀ item ∈ items, ∀ active type element,
    Course.Tracks (item.course schema active type element) (item.layout schema type element)
  | [], item, listed => by cases listed
  | first :: rest, item, listed => by
      obtain same | later := List.mem_cons.mp listed
      · rw [same]
        exact tracks_course first
      · exact tracks_items rest item later

/-- The same of the key and the value of each entry. -/
theorem tracks_entries : (entries : List (Value × Value)) → ∀ entry ∈ entries,
    (∀ active type element, Course.Tracks (entry.1.course schema active type element)
      (entry.1.layout schema type element)) ∧
    ∀ active type element, Course.Tracks (entry.2.course schema active type element)
      (entry.2.layout schema type element)
  | [], entry, listed => by cases listed
  | (key, value) :: rest, entry, listed => by
      obtain same | later := List.mem_cons.mp listed
      · rw [same]
        exact ⟨tracks_course key, tracks_course value⟩
      · exact tracks_entries rest entry later

end

end Value

end Wireform
