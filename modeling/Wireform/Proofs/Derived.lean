import Wireform.Catalogue
import Wireform.Proofs.Shape
import Wireform.Proofs.Slots
import Wireform.Proofs.Typing

/-!
# Derived types

A type is derived if it is described the way a derivation describes it. Leaves have a
built-in codec and the members of an enumeration have names of their own. An aggregate
lists exactly its travelling members as fields, a marker that names an element type
names the one that the field's sequence declares, and the aggregate is rebuilt either
by a constructor that mirrors the fields and stores its arguments, or by assigning the
fields of an initial value.

What is rebuilt has blanks in place of the members that did not travel: those of the
declaration, or those of the initial value. `restored` puts them into a value. A type
is keyed if its sets and maps hold elements and keys that travel whole, so that none of
them can become equal when they are rebuilt.
-/

namespace Wireform

/-- The blanks of a rebuilt aggregate. A constructor fills in those of the declaration;
    assignment leaves those of the initial value. -/
def Entry.blanks (entry : Entry) (description : Aggregate) : List (Option Value) :=
  match description.strategy with
  | .assign (.record _ initial) =>
      (entry.members.zip initial).map fun pair => pair.1.blank.map fun _ => pair.2
  | _ => entry.members.map Member.blank

/-- Markers name the element type that the sequence at their place declares, if they
    name one at all. -/
def Marker.Honest (declared : Ty) (markers : List Marker) : Prop :=
  ∀ kind element named, declared.unwrapped = .sequence kind element →
    element? markers = some named → named = element

/-- No markers misname nothing. -/
theorem Marker.honest_nil (declared : Ty) : Marker.Honest declared [] := by
  rintro kind element named _ ⟨⟩

/-- The aggregate is rebuilt from its own fields: the constructor mirrors them and stores
    its arguments, or else there is an initial value to assign them to. -/
def Aggregate.Rebuilds (entry : Entry) (description : Aggregate) : Prop :=
  match description.strategy with
  | .construct _ constructor =>
      constructor.parameters = description.mirrored ∧
        ∀ arguments, arguments.map Value.type = description.fields.map Field.type →
          constructor.build arguments
            = .ok (.record entry.type (Member.filled entry.members arguments))
  | .assign initial =>
      ∃ members, initial = .record entry.type members ∧
        members.map Value.type = entry.members.map Member.type
  | .unavailable => False

namespace Schema

/-- The blanks of a rebuilt value of the type. -/
def blanks (schema : Schema) (type : Ty) : List (Option Value) :=
  match schema.find? type, schema.kind type with
  | some entry, .aggregate description => entry.blanks description
  | _, _ => []

/-- No part of the type has members that do not travel. -/
def Whole (schema : Schema) : Ty → Prop :=
  schema.Throughout fun type => ∀ entry, schema.find? type = some entry →
    ∀ member ∈ entry.members, member.blank = none

end Schema

/-- The collection keeps one of each element only. -/
def SequenceKind.isSet : SequenceKind → Bool
  | .orderedSet => true
  | .hashedSet => true
  | _ => false

/-- The elements of a set and the keys of a map travel whole. -/
def Schema.Keyed (schema : Schema) : Ty → Prop
  | .sequence kind element => kind.isSet = true → schema.Whole element
  | .map _ key _ => schema.Whole key
  | _ => True

/-- The entry describes an aggregate as a derivation does: its travelling members are the
    fields, and no marker misnames an element type. -/
structure Entry.Describes (entry : Entry) (description : Aggregate) : Prop where
  fields : description.fields = Member.fieldsFrom 0 entry.members
  honest : ∀ field ∈ description.fields, Marker.Honest field.type field.markers

/-- A member that travels is a field at its position. -/
theorem Entry.Describes.field_of_travels {entry : Entry} {description : Aggregate}
    (describes : entry.Describes description) (index : Nat) (member : Member)
    (declared : entry.members[index]? = some member) (travels : member.blank = none) :
    ⟨member.name, member.type, member.markers, index⟩ ∈ description.fields := by
  rw [describes.fields]
  refine (Member.mem_fieldsFrom _ 0 _).mpr ⟨index, member, declared, travels, ?_⟩
  rw [Nat.zero_add]

/-- A field is kept in a member of its type. -/
theorem Entry.Describes.member_of_field {entry : Entry} {description : Aggregate}
    (describes : entry.Describes description) (field : Field)
    (listed : field ∈ description.fields) :
    ∃ member, entry.members[field.slot]? = some member ∧ member.type = field.type := by
  rw [describes.fields] at listed
  obtain ⟨index, member, declared, _, rfl⟩ := (Member.mem_fieldsFrom _ 0 field).mp listed
  exact ⟨member, (Nat.zero_add index).symm ▸ declared, rfl⟩

/-- The type is described as a derivation describes it, its parts aside. What an
    aggregate needs to be rebuilt is left open. -/
inductive Schema.Described (schema : Schema) (rebuilds : Entry → Aggregate → Prop) : Ty → Prop
  | leaf (plain : Leaf) (supported : plain ∈ Leaf.supported) :
      Described schema rebuilds (.leaf plain)
  | option (inner : Ty) : Described schema rebuilds (.option inner)
  | boxed (inner : Ty) : Described schema rebuilds (.boxed inner)
  | sequence (kind : SequenceKind) (element : Ty) :
      Described schema rebuilds (.sequence kind element)
  | map (kind : MapKind) (key value : Ty) : Described schema rebuilds (.map kind key value)
  | enumeration (type : Ty) (names : List String) (described : schema.kind type = .enumeration names)
      (distinct : names.Nodup) : Described schema rebuilds type
  | aggregate (type : Ty) (description : Aggregate)
      (described : schema.kind type = .aggregate description) (entry : Entry)
      (found : schema.find? type = some entry) (describes : entry.Describes description)
      (rebuilt : rebuilds entry description) : Described schema rebuilds type

/-- The type is described as a derivation describes it, and if it is an aggregate it is
    rebuilt from its own fields. -/
def Schema.Derived (schema : Schema) : Ty → Prop :=
  schema.Described fun entry description => description.Rebuilds entry

namespace Schema

variable {schema : Schema} {rebuilds : Entry → Aggregate → Prop} {type : Ty}

/-- A described aggregate is described by an entry. -/
theorem Described.describes (derived : schema.Described rebuilds type) (description : Aggregate)
    (described : schema.kind type = .aggregate description) :
    ∃ entry, schema.find? type = some entry ∧ entry.Describes description ∧
      rebuilds entry description := by
  cases derived with
  | aggregate _ other otherwise entry found describes rebuilt =>
      rw [described] at otherwise
      cases otherwise
      exact ⟨entry, found, describes, rebuilt⟩
  | enumeration _ names otherwise distinct =>
      rw [described] at otherwise
      cases otherwise
  | _ => cases described

/-- A described type stays described if its aggregate can be rebuilt otherwise, too. -/
theorem Described.mono {others : Entry → Aggregate → Prop} (derived : schema.Described rebuilds type)
    (implies : ∀ entry description, schema.kind type = .aggregate description →
      schema.find? type = some entry → entry.Describes description → rebuilds entry description →
      others entry description) : schema.Described others type := by
  cases derived with
  | leaf plain supported => exact .leaf plain supported
  | option inner => exact .option inner
  | boxed inner => exact .boxed inner
  | sequence kind element => exact .sequence kind element
  | map kind key value => exact .map kind key value
  | enumeration _ names described distinct => exact .enumeration type names described distinct
  | aggregate _ description described entry found describes rebuilt =>
      exact .aggregate type description described entry found describes
        (implies entry description described found describes rebuilt)

/-- The members of a described enumeration have names of their own. -/
theorem Described.distinct (derived : schema.Described rebuilds type) (names : List String)
    (described : schema.kind type = .enumeration names) : names.Nodup := by
  cases derived with
  | aggregate _ description otherwise entry found describes rebuilt =>
      rw [described] at otherwise
      cases otherwise
  | enumeration _ others otherwise distinct =>
      rw [described] at otherwise
      cases otherwise
      exact distinct
  | _ => cases described

/-- A described sequence declares the type of its elements. -/
theorem Described.declares (derived : schema.Described rebuilds type) (declared : Option Ty)
    (described : schema.kind type = .sequence declared) :
    ∃ kind element, type = .sequence kind element ∧ declared = some element := by
  cases derived with
  | sequence kind element =>
      cases described
      exact ⟨kind, element, rfl, rfl⟩
  | aggregate _ description otherwise entry found describes rebuilt =>
      rw [described] at otherwise
      cases otherwise
  | enumeration _ others otherwise distinct =>
      rw [described] at otherwise
      cases otherwise
  | _ => cases described

/-- The element type that is chosen for a sequence is the one that it declares, if markers name
    no other. -/
theorem Described.chosen_element (derived : schema.Described rebuilds type) {marked : Option Ty}
    {declared : Option Ty} {element : Ty} (described : schema.kind type = .sequence declared)
    (chosen : marked.or declared = some element)
    (honest : ∀ kind element named, type = .sequence kind element → marked = some named →
      named = element) :
    ∃ kind, type = .sequence kind element := by
  obtain ⟨kind, own, rfl, rfl⟩ := derived.declares declared described
  cases marked with
  | none => cases chosen; exact ⟨kind, rfl⟩
  | some named =>
      cases chosen
      exact ⟨kind, congrArg _ (honest kind own _ rfl rfl).symm⟩

/-- A described type is not custom. -/
theorem Described.not_custom (derived : schema.Described rebuilds type) (format : Custom) :
    schema.kind type ≠ .custom format := by
  intro described
  cases derived with
  | aggregate _ description otherwise entry found describes rebuilt =>
      rw [described] at otherwise
      cases otherwise
  | enumeration _ names otherwise distinct =>
      rw [described] at otherwise
      cases otherwise
  | _ => cases described

/-- A described type has a shape at every place, unless it is a box. -/
theorem Described.shape (derived : schema.Described rebuilds type) (marked : Option Ty)
    (opened : ∀ inner, type ≠ .boxed inner) : ∃ shape, schema.shape type marked = .ok shape := by
  unfold Schema.shape
  split
  · next plain =>
      cases derived with
      | leaf _ supported => exact ⟨.leaf plain, if_pos supported⟩
      | aggregate _ description described => cases described
      | enumeration _ names described => cases described
  · next composite =>
      by_cases octets : type = Ty.vector .u8
      · exact ⟨.octets, if_pos octets⟩
      · rw [if_neg octets, shapeOfKind]
        cases derived with
        | leaf plain supported => exact absurd rfl (composite plain)
        | option inner => exact ⟨_, rfl⟩
        | boxed inner => exact absurd rfl (opened inner)
        | sequence kind element => cases marked <;> exact ⟨_, rfl⟩
        | map kind key value => exact ⟨_, rfl⟩
        | enumeration _ names described distinct => rw [described]; exact ⟨_, rfl⟩
        | aggregate _ description described entry found describes rebuilt =>
            rw [described]
            exact ⟨_, rfl⟩

/-- A type that is described by its declared members is derived, if no marker misnames an
    element type and there is a mirroring constructor or a well-typed initial value. -/
theorem derived_of_declared (name : String) (members : List Member) (initial : Option (List Value))
    (mirrors : Bool) (style : Style)
    (found : schema.find? (.named name)
      = some (Catalogue.declared (.named name) members initial mirrors style))
    (honest : ∀ field ∈ Member.fieldsFrom 0 members, Marker.Honest field.type field.markers)
    (initialTypes : ∀ values, initial = some values →
      values.map Value.type = members.map Member.type)
    (possible : mirrors = true ∨ initial.isSome = true) : schema.Derived (.named name) := by
  have described : ∃ description, schema.kind (.named name) = .aggregate description ∧
      (Catalogue.declared (.named name) members initial mirrors style).definition
        = .aggregate description := by
    refine ⟨_, ?_, rfl⟩
    simp only [kind, namedKind, found]
    rfl
  obtain ⟨description, described, defined⟩ := described
  refine .aggregate _ description described _ found ⟨?_, ?_⟩ ?_
  · cases defined
    rfl
  · cases defined
    exact honest
  · cases defined
    unfold Aggregate.Rebuilds Aggregate.strategy
    cases mirrors with
    | true =>
        have first : Aggregate.matching (Member.fieldsFrom 0 members).length 0
            [⟨(Member.fieldsFrom 0 members).map Field.parameter,
              (Value.record (.named name) <$> Member.assemble members : Arguments Value).apply⟩]
            = some (0, ⟨(Member.fieldsFrom 0 members).map Field.parameter,
              (Value.record (.named name) <$> Member.assemble members : Arguments Value).apply⟩) := by
          simp only [Aggregate.matching, List.length_map, if_true]
        simp only [if_true, first]
        refine ⟨rfl, fun arguments types => ?_⟩
        have assembled := Member.assemble_run members 0 arguments types
        simp only [Arguments.apply, StateT.run_map, assembled]
        rfl
    | false =>
        cases initial with
        | none => simp at possible
        | some values => exact ⟨values, rfl, initialTypes values rfl⟩

/-- A type whose members all travel has nothing to fill in. -/
theorem blanks_eq_none (whole : schema.Whole type) :
    ∀ blank ∈ schema.blanks type, blank = none := by
  unfold blanks
  split
  · next entry description found described =>
      have travels := whole.self entry found
      unfold Entry.blanks
      split
      · next initial _ =>
          intro blank listed
          obtain ⟨⟨member, value⟩, paired, rfl⟩ := List.mem_map.mp listed
          rw [travels member (List.of_mem_zip paired).1]
          rfl
      · intro blank listed
        obtain ⟨member, declared, rfl⟩ := List.mem_map.mp listed
        exact travels member declared
  · intro blank listed
    cases listed

end Schema

namespace Value

variable (schema : Schema)

mutual

/-- The value as it is rebuilt: members that do not travel are the blanks. -/
def restored : Value → Value
  | .scalar plain => .scalar plain
  | .member type index => .member type index
  | .absent inner => .absent inner
  | .present value => .present (restored value)
  | .boxed value => .boxed (restored value)
  | .sequence type items => .sequence type (restoredItems items)
  | .map type entries => .map type (restoredEntries entries)
  | .record type members => .record type (Member.refill (schema.blanks type) (restoredItems members))

/-- The elements or members as they are rebuilt. -/
def restoredItems : List Value → List Value
  | [] => []
  | item :: rest => restored item :: restoredItems rest

/-- The entries as they are rebuilt. -/
def restoredEntries : List (Value × Value) → List (Value × Value)
  | [] => []
  | (key, value) :: rest => (restored key, restored value) :: restoredEntries rest

end

/-- Each element is rebuilt as it would be alone. -/
theorem restoredItems_eq_map (items : List Value) :
    restoredItems schema items = items.map (restored schema) := by
  induction items with
  | nil => rfl
  | cons item rest inductionHypothesis => rw [restoredItems, inductionHypothesis, List.map_cons]

/-- Each key and each value is rebuilt as it would be alone. -/
theorem restoredEntries_eq_map (entries : List (Value × Value)) :
    restoredEntries schema entries
      = entries.map fun entry => (restored schema entry.1, restored schema entry.2) := by
  induction entries with
  | nil => rfl
  | cons entry rest inductionHypothesis =>
      obtain ⟨key, value⟩ := entry
      rw [restoredEntries, inductionHypothesis, List.map_cons]

/-- A rebuilt value is of the same type. -/
@[simp] theorem type_restored : (value : Value) → (restored schema value).type = value.type
  | .scalar _ => rfl
  | .member _ _ => rfl
  | .absent _ => rfl
  | .present value => congrArg Ty.option (type_restored value)
  | .boxed value => congrArg Ty.boxed (type_restored value)
  | .sequence _ _ => rfl
  | .map _ _ => rfl
  | .record _ _ => rfl

variable {schema}

/-- A value all of whose members travel is rebuilt as it was. -/
theorem restored_of_whole {type : Ty} {value : Value} (typed : value.Typed schema type)
    (derived : schema.Throughout schema.Derived type) (whole : schema.Whole type) :
    restored schema value = value := by
  induction typed with
  | scalar plain => rfl
  | member type names described index known => rfl
  | absent inner => rfl
  | present inner value _ inductionHypothesis =>
      exact congrArg Value.present
        (inductionHypothesis (derived.part (.option inner)) (whole.part (.option inner)))
  | boxed inner value _ inductionHypothesis =>
      exact congrArg Value.boxed
        (inductionHypothesis (derived.part (.boxed inner)) (whole.part (.boxed inner)))
  | sequence kind element items _ _ inductionHypothesis =>
      have same : items.map (restored schema) = items.map id :=
        List.map_congr_left fun item listed =>
          inductionHypothesis item listed (derived.part (.element kind element))
            (whole.part (.element kind element))
      rw [restored, restoredItems_eq_map, same, List.map_id]
  | map kind key part entries _ _ _ keysHypothesis partsHypothesis =>
      have same : (entries.map fun entry => (restored schema entry.1, restored schema entry.2))
          = entries.map id := List.map_congr_left fun entry listed => by
        rw [keysHypothesis entry listed (derived.part (.key kind key part))
            (whole.part (.key kind key part)),
          partsHypothesis entry listed (derived.part (.value kind key part))
            (whole.part (.value kind key part))]
        rfl
      rw [restored, restoredEntries_eq_map, same, List.map_id]
  | record type description described entry found members declared _ inductionHypothesis =>
      obtain ⟨other, again, describes, _⟩ := derived.self.describes description described
      cases found.symm.trans again
      have same : members.map (restored schema) = members.map id := by
        refine List.map_congr_left fun item listed => ?_
        obtain ⟨index, inside, rfl⟩ := List.mem_iff_getElem.mp listed
        have lengths : members.length = entry.members.length := by
          simpa using congrArg List.length declared
        have travels := whole.self entry found _ (List.getElem_mem (lengths ▸ inside))
        have field := describes.field_of_travels index _ (List.getElem?_eq_getElem _) travels
        exact inductionHypothesis _ field _ (List.getElem?_eq_getElem inside)
          (derived.part (.field type description described _ field))
          (whole.part (.field type description described _ field))
      rw [restored, restoredItems_eq_map, same, List.map_id,
        Member.refill_of_none _ _ (Schema.blanks_eq_none whole)]

end Value

end Wireform
