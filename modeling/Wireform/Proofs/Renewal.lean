import Wireform.Proofs.Counterparts
import Wireform.Proofs.Likeness

/-!
# Values that are read again

What is read again of a value need not be the value. Members that do not travel are blank. And
once they are, elements of a set may have become equal, and so may keys of a map, so that fewer are
left: a collection is collected again from what its elements have become. A type that writes itself
knows what it reads, and its values are left alone.

Not every value that a program can hold is typed. A type may write itself, a sequence may not
declare its elements, and the constructor of an aggregate may refuse some arguments. Values of all
these are formed. Typed values stay the same if no members stay behind. And if sets and maps are of
what travels whole, the members that stay behind are all in which they differ.
-/

namespace Wireform

variable {schema : Schema} {domain : Ty → Value → Prop}

/-! ## Formed values -/

/-- The value is one that a program can hold of the type, if those of a type that writes itself are
    the ones in its domain. -/
inductive Value.Formed (schema : Schema) (domain : Ty → Value → Prop) : Ty → Value → Prop
  | scalar (plain : Scalar) : Formed schema domain (.leaf plain.leaf) (.scalar plain)
  | member (type : Ty) (names : List String) (described : schema.kind type = .enumeration names)
      (index : Nat) (known : index < names.length) : Formed schema domain type (.member type index)
  | absent (inner : Ty) : Formed schema domain (.option inner) (.absent inner)
  | present (inner : Ty) (value : Value) (held : Formed schema domain inner value) :
      Formed schema domain (.option inner) (.present value)
  | boxed (inner : Ty) (value : Value) (held : Formed schema domain inner value) :
      Formed schema domain (.boxed inner) (.boxed value)
  | sequence (type : Ty) (declared : Option Ty) (described : schema.kind type = .sequence declared)
      (part : Ty) (made : schema.itemType? type = some part) (items : List Value)
      (each : ∀ item ∈ items, Formed schema domain part item) :
      Formed schema domain type (.sequence type items)
  | map (kind : MapKind) (key part : Ty) (entries : List (Value × Value))
      (keys : ∀ entry ∈ entries, Formed schema domain key entry.1)
      (parts : ∀ entry ∈ entries, Formed schema domain part entry.2) :
      Formed schema domain (.map kind key part) (.map (.map kind key part) entries)
  | record (type : Ty) (description : Aggregate)
      (described : schema.kind type = .aggregate description) (members : List Value)
      (complete : ∀ entry, schema.find? type = some entry → members.length = entry.members.length)
      (fields : ∀ field ∈ description.fields, ∀ member, members[field.slot]? = some member →
        Formed schema domain field.type member) :
      Formed schema domain type (.record type members)
  | custom (type : Ty) (format : Custom) (described : schema.kind type = .custom format)
      (value : Value) (own : value.type = type) (held : domain type value) :
      Formed schema domain type value

/-- Members of the declared types are as many as are declared. -/
theorem Schema.length_of_declared (schema : Schema) {type : Ty} {entry : Entry}
    {members : List Value} (found : schema.find? type = some entry)
    (declared : members.map Value.type = entry.members.map Member.type) (other : Entry)
    (again : schema.find? type = some other) : members.length = other.members.length := by
  cases found.symm.trans again
  simpa using congrArg List.length declared

/-- A typed value is formed. -/
theorem Value.Typed.formed {type : Ty} {value : Value} (typed : value.Typed schema type) :
    value.Formed schema domain type := by
  induction typed with
  | scalar plain => exact .scalar plain
  | member type names described index known => exact .member type names described index known
  | absent inner => exact .absent inner
  | present inner value _ inductionHypothesis => exact .present inner value inductionHypothesis
  | boxed inner value _ inductionHypothesis => exact .boxed inner value inductionHypothesis
  | sequence kind element items _ _ inductionHypothesis =>
      exact .sequence _ (some element) rfl element rfl items inductionHypothesis
  | map kind key part entries _ _ _ keys parts => exact .map kind key part entries keys parts
  | record type description described entry found members declared _ inductionHypothesis =>
      exact .record type description described members
        (schema.length_of_declared found declared) inductionHypothesis

namespace Value.Formed

variable {type : Ty} {value : Value}

/-- A formed value carries its type. -/
theorem type_eq (formed : value.Formed schema domain type) : value.type = type := by
  induction formed with
  | present inner value _ inductionHypothesis => exact congrArg Ty.option inductionHypothesis
  | boxed inner value _ inductionHypothesis => exact congrArg Ty.boxed inductionHypothesis
  | custom type _ _ value own _ => exact own
  | _ => rfl

/-- A formed option holds a formed value, if it holds one. -/
theorem held_of_present {inner : Ty}
    (formed : (Value.present value).Formed schema domain (.option inner)) :
    value.Formed schema domain inner := by
  cases formed with
  | present _ _ held => exact held
  | custom _ format described => cases described

/-- A formed box holds a formed value. -/
theorem held_of_boxed {inner : Ty}
    (formed : (Value.boxed value).Formed schema domain (.boxed inner)) :
    value.Formed schema domain inner := by
  cases formed with
  | boxed _ _ held => exact held
  | custom _ format described => cases described

/-- A formed sequence has formed elements. -/
theorem items {declared : Option Ty} {part : Ty} {elements : List Value}
    (described : schema.kind type = .sequence declared)
    (made : schema.itemType? type = some part)
    (formed : (Value.sequence type elements).Formed schema domain type) :
    ∀ item ∈ elements, item.Formed schema domain part := by
  cases formed with
  | sequence _ _ _ other again _ each =>
      cases made.symm.trans again
      exact each
  | custom _ format otherwise => rw [described] at otherwise; cases otherwise

/-- A formed map has formed keys and values. -/
theorem entries {kind : MapKind} {key part : Ty} {pairs : List (Value × Value)}
    (formed : (Value.map (.map kind key part) pairs).Formed schema domain (.map kind key part)) :
    (∀ entry ∈ pairs, entry.1.Formed schema domain key) ∧
      ∀ entry ∈ pairs, entry.2.Formed schema domain part := by
  cases formed with
  | map _ _ _ _ keys parts => exact ⟨keys, parts⟩
  | custom _ format described => cases described

/-- A formed aggregate has all of its members, and those of its fields are formed. -/
theorem members_of_kind (formed : value.Formed schema domain type) (description : Aggregate)
    (described : schema.kind type = .aggregate description) :
    ∃ members, value = .record type members ∧
      (∀ entry, schema.find? type = some entry → members.length = entry.members.length) ∧
      ∀ field ∈ description.fields, ∀ member, members[field.slot]? = some member →
        member.Formed schema domain field.type := by
  cases formed with
  | record _ other otherwise members complete fields =>
      cases described.symm.trans otherwise
      exact ⟨members, rfl, complete, fields⟩
  | member _ names otherwise => rw [described] at otherwise; cases otherwise
  | sequence _ declared otherwise => rw [described] at otherwise; cases otherwise
  | custom _ format otherwise => rw [described] at otherwise; cases otherwise
  | _ => cases described

/-- A formed value of a type that writes itself is in the domain of the type. -/
theorem domain_of_custom (formed : value.Formed schema domain type) (format : Custom)
    (described : schema.kind type = .custom format) : domain type value := by
  cases formed with
  | custom _ other otherwise _ _ held => exact held
  | record _ description otherwise => rw [described] at otherwise; cases otherwise
  | member _ names otherwise => rw [described] at otherwise; cases otherwise
  | sequence _ declared otherwise => rw [described] at otherwise; cases otherwise
  | _ => cases described

/-- Formed values are of their type in a way in which layers have no say. -/
theorem layered (schema : Schema) (domain : Ty → Value → Prop) :
    Layered fun type value => value.Formed schema domain type where
  type_eq := type_eq
  absent := .absent
  present := ⟨held_of_present, .present _ _⟩
  boxed := ⟨held_of_boxed, .boxed _ _⟩

/-- What is below the stripped layers of a formed value is formed. -/
theorem project (type : Ty) (stripped : Bool) (value core : Value)
    (formed : value.Formed schema domain type)
    (projected : Context.projectThrough (type.peel stripped).1 value = .ok (some core)) :
    core.Formed schema domain (type.peel stripped).2 :=
  (layered schema domain).project type stripped value core formed projected

end Value.Formed

/-! ## What becomes of values -/

/-- The elements that a sequence of the type has if it is collected from the elements. -/
def Ty.gathered : Ty → List Value → List Value
  | .sequence .orderedSet _, items => Value.ascending items
  | .sequence .hashedSet _, items => Value.distinct items
  | _, items => items

/-- The entries that a map of the type has if it is collected from the entries. -/
def Ty.gatheredEntries : Ty → List (Value × Value) → List (Value × Value)
  | .map kind _ _, entries => kind.collect entries
  | _, entries => entries

/-- A sequence that is collected has what is gathered for it. -/
theorem Ty.eq_gathered_of_kept (type : Ty) (items found : List Value)
    (keeps : type.kept items = .ok found) : found = type.gathered items := by
  cases type with
  | sequence kind element =>
      cases kind with
      | array length =>
          simp only [kept, SequenceKind.collect] at keeps
          split at keeps
          · cases keeps; rfl
          · cases keeps
      | _ => cases keeps; rfl
  | _ => cases keeps; rfl

/-- What a collection can hold it has if it is collected from that. -/
theorem Ty.gathered_of_holds (kind : SequenceKind) (element : Ty) (items : List Value)
    (holds : kind.Holds items) : (Ty.sequence kind element).gathered items = items :=
  (Ty.eq_gathered_of_kept (.sequence kind element) items items
    (kind.collect_of_holds items holds)).symm

/-- The type writes and reads its values itself. -/
def Schema.writesItself (schema : Schema) (type : Ty) : Bool :=
  match schema.kind type with
  | .custom _ => true
  | _ => false

namespace Value

variable (schema : Schema)

mutual

/-- The value as it is read again: members that do not travel are the blanks, and collections are
    collected from what their elements have become. -/
def renewed : Value → Value
  | .scalar plain => .scalar plain
  | .member type index => .member type index
  | .absent inner => .absent inner
  | .present value => .present (renewed value)
  | .boxed value => .boxed (renewed value)
  | .sequence type items =>
      if schema.writesItself type then .sequence type items
      else .sequence type (type.gathered (renewedItems items))
  | .map type entries =>
      if schema.writesItself type then .map type entries
      else .map type (type.gatheredEntries (renewedEntries entries))
  | .record type members =>
      if schema.writesItself type then .record type members
      else .record type (Member.refill (schema.blanks type) (renewedItems members))

/-- The elements or members as they are read again. -/
def renewedItems : List Value → List Value
  | [] => []
  | item :: rest => renewed item :: renewedItems rest

/-- The entries as they are read again. -/
def renewedEntries : List (Value × Value) → List (Value × Value)
  | [] => []
  | (key, value) :: rest => (renewed key, renewed value) :: renewedEntries rest

end

/-- Each element is read again as it would be alone. -/
theorem renewedItems_eq_map (items : List Value) :
    renewedItems schema items = items.map (renewed schema) := by
  induction items with
  | nil => rfl
  | cons item rest inductionHypothesis => rw [renewedItems, inductionHypothesis, List.map_cons]

/-- Each key and each value is read again as it would be alone. -/
theorem renewedEntries_eq_map (entries : List (Value × Value)) :
    renewedEntries schema entries
      = entries.map fun entry => (renewed schema entry.1, renewed schema entry.2) := by
  induction entries with
  | nil => rfl
  | cons entry rest inductionHypothesis =>
      obtain ⟨key, value⟩ := entry
      rw [renewedEntries, inductionHypothesis, List.map_cons]

variable {schema}

/-- A value of a type that writes itself is read again as it was. -/
theorem renewed_of_custom (value : Value) (format : Custom)
    (described : schema.kind value.type = .custom format) : value.renewed schema = value := by
  have own : schema.writesItself value.type = true := by
    simp only [Schema.writesItself, described]
  cases value with
  | present value => cases described
  | boxed value => cases described
  | sequence type items => exact if_pos own
  | map type entries => exact if_pos own
  | record type members => exact if_pos own
  | _ => rfl

/-- A scalar is read again as it was. -/
theorem renewed_of_leaf {kind : Leaf} {value : Value}
    (formed : value.Formed schema domain (.leaf kind)) : value.renewed schema = value := by
  cases formed with
  | scalar plain => rfl
  | member _ names described => cases described
  | sequence _ declared described => cases described
  | record _ description described => cases described
  | custom _ format described => cases described

/-- A member of an enumeration is read again as it was. -/
theorem renewed_of_enumeration {type : Ty} {value : Value} {names : List String}
    (described : schema.kind type = .enumeration names)
    (formed : value.Formed schema domain type) : value.renewed schema = value := by
  cases formed with
  | member _ others otherwise index known => rfl
  | sequence _ declared otherwise => rw [described] at otherwise; cases otherwise
  | record _ description otherwise => rw [described] at otherwise; cases otherwise
  | custom _ format otherwise => rw [described] at otherwise; cases otherwise
  | _ => cases described

/-- A sequence is collected again from what its elements have become. -/
theorem renewed_sequence (type : Ty) (declared : Option Ty)
    (described : schema.kind type = .sequence declared) (items : List Value) :
    (Value.sequence type items).renewed schema
      = .sequence type (type.gathered (items.map (renewed schema))) := by
  simp only [renewed, Schema.writesItself, described, Bool.false_eq_true, if_false,
    renewedItems_eq_map]

/-- Two elements of a set that differ in a member that does not travel become one. -/
example :
    let type := Ty.sequence .hashedSet (.named "Visit")
    let visit := fun count => Value.record (.named "Visit") [.i32 7, .u64 count]
    let members := [Catalogue.member "place" .i32, Catalogue.skipped "count" (.leaf .u64) (.u64 0)]
    (Value.sequence type [visit 1, visit 2]).renewed
        ⟨[Catalogue.declared (.named "Visit") members]⟩ = .sequence type [visit 0] := by
  rfl

/-- A map is collected again from what its keys and values have become. -/
theorem renewed_map (kind : MapKind) (key part : Ty) (entries : List (Value × Value)) :
    (Value.map (.map kind key part) entries).renewed schema
      = .map (.map kind key part) (kind.collect
          (entries.map fun entry => (entry.1.renewed schema, entry.2.renewed schema))) := by
  simp only [renewed, Schema.writesItself, Schema.kind, Bool.false_eq_true, if_false,
    renewedEntries_eq_map, Ty.gatheredEntries]

/-- An aggregate has blanks in place of the members that do not travel, and what has become of the
    others. -/
theorem renewed_record (type : Ty) (description : Aggregate)
    (described : schema.kind type = .aggregate description) (members : List Value) :
    (Value.record type members).renewed schema
      = .record type (Member.refill (schema.blanks type) (members.map (renewed schema))) := by
  simp only [renewed, Schema.writesItself, described, Bool.false_eq_true, if_false,
    renewedItems_eq_map]

end Value

/-! ## Aggregates -/

/-- The aggregate is rebuilt from what was read for its fields, if it is rebuilt at all. The
    parameters of a constructor are those of the fields but for their names, and if it accepts the
    arguments, it puts them and nothing but blanks into the members; an initial value has all
    members, for the fields to be assigned. -/
def Aggregate.Retains (entry : Entry) (description : Aggregate) : Prop :=
  match description.strategy with
  | .construct _ constructor =>
      List.Forall₂ (fun (field : Field) (parameter : Parameter) =>
          parameter.type = field.type ∧ parameter.markers = field.markers)
        description.fields constructor.parameters ∧
        ∀ arguments value, arguments.map Value.type = description.fields.map Field.type →
          constructor.build arguments = .ok value →
            value = .record entry.type (Member.filled entry.members arguments)
  | .assign initial =>
      ∃ members, initial = .record entry.type members ∧ members.length = entry.members.length
  | .unavailable => True

/-- An aggregate that is rebuilt from its own fields retains what is read for them. -/
theorem Aggregate.Rebuilds.retains {entry : Entry} {description : Aggregate}
    (rebuilds : description.Rebuilds entry) : description.Retains entry := by
  unfold Rebuilds at rebuilds
  unfold Retains
  split
  · next index constructor chosen =>
      simp only [chosen] at rebuilds
      obtain ⟨mirrors, builds⟩ := rebuilds
      refine ⟨?_, fun arguments value types built => ?_⟩
      · rw [mirrors, mirrored, List.forall₂_map_right_iff]
        exact List.forall₂_same.mpr fun field _ => ⟨rfl, rfl⟩
      · exact Except.ok.inj (built.symm.trans (builds arguments types))
  · next initial chosen =>
      simp only [chosen] at rebuilds
      obtain ⟨members, same, types⟩ := rebuilds
      exact ⟨members, same, by simpa using congrArg List.length types⟩
  · trivial

/-- A rebuilt aggregate has a blank for each member that does not travel. -/
theorem Aggregate.Retains.blank {entry : Entry} {description : Aggregate}
    (retains : description.Retains entry) (index : Nat) (member : Member) (value : Value)
    (declared : entry.members[index]? = some member) (skipped : member.blank = some value) :
    ∃ blank, (entry.blanks description)[index]? = some (some blank) := by
  unfold Retains at retains
  unfold Entry.blanks
  split
  · next type initial chosen =>
      simp only [chosen] at retains
      obtain ⟨_, same, lengths⟩ := retains
      cases same
      obtain ⟨inside, -⟩ := List.getElem?_eq_some_iff.mp declared
      have before := List.getElem?_eq_getElem (lengths ▸ inside)
      have paired : (entry.members.zip initial)[index]? = some (member, initial[index]) :=
        List.getElem?_zip_eq_some.mpr ⟨declared, before⟩
      refine ⟨initial[index], ?_⟩
      rw [List.getElem?_map, paired, Option.map_some, skipped, Option.map_some]
  · exact ⟨value, by rw [List.getElem?_map, declared, Option.map_some, skipped]⟩

/-- If the type is an aggregate, the fields are its members that travel, and it is rebuilt from what
    was read for them. -/
def Schema.Retains (schema : Schema) (type : Ty) : Prop :=
  ∀ description, schema.kind type = .aggregate description →
    ∃ entry, schema.find? type = some entry ∧
      description.fields = Member.fieldsFrom 0 entry.members ∧ description.Retains entry

/-- Members that do not differ where they travel do not differ once they have their blanks. -/
theorem Schema.Retains.refill_eq {type : Ty} (retains : schema.Retains type)
    (description : Aggregate) (described : schema.kind type = .aggregate description)
    (members : List Value)
    (complete : ∀ entry, schema.find? type = some entry → members.length = entry.members.length)
    (one other : Value → Value)
    (same : ∀ field ∈ description.fields, ∀ member, members[field.slot]? = some member →
      one member = other member) :
    Member.refill (schema.blanks type) (members.map one)
      = Member.refill (schema.blanks type) (members.map other) := by
  obtain ⟨entry, found, fields, retained⟩ := retains description described
  have blanked : schema.blanks type = entry.blanks description := by
    rw [Schema.blanks, found, described]
  have lengths := complete entry found
  refine List.ext_getElem? fun index => ?_
  rw [Member.getElem?_refill, Member.getElem?_refill, List.getElem?_map, List.getElem?_map]
  by_cases inside : index < entry.members.length
  · have declared := List.getElem?_eq_getElem inside
    have present := List.getElem?_eq_getElem (lengths ▸ inside)
    cases travels : entry.members[index].blank with
    | none =>
        have listed : ⟨entry.members[index].name, entry.members[index].type,
            entry.members[index].markers, index⟩ ∈ description.fields := by
          rw [fields]
          exact (Member.mem_fieldsFrom _ 0 _).mpr
            ⟨index, _, declared, travels, by rw [Nat.zero_add]⟩
        rw [present, Option.map_some, Option.map_some, same _ listed _ present]
        rfl
    | some value =>
        obtain ⟨blank, known⟩ := retained.blank index _ value declared travels
        rw [blanked, known, present]
        rfl
  · rw [List.getElem?_eq_none (by omega : members.length ≤ index)]
    rfl

/-! ## Values that stay the same -/

namespace Value

/-- A typed value no members of which stay behind is read again as it was. -/
theorem renewed_of_whole {type : Ty} {value : Value} (typed : value.Typed schema type)
    (retains : schema.Throughout schema.Retains type) (whole : schema.Whole type) :
    value.renewed schema = value := by
  induction typed with
  | scalar plain => rfl
  | member type names described index known => rfl
  | absent inner => rfl
  | present inner value _ inductionHypothesis =>
      exact congrArg Value.present
        (inductionHypothesis (retains.part (.option inner)) (whole.part (.option inner)))
  | boxed inner value _ inductionHypothesis =>
      exact congrArg Value.boxed
        (inductionHypothesis (retains.part (.boxed inner)) (whole.part (.boxed inner)))
  | sequence kind element items _ holds inductionHypothesis =>
      have same : items.map (renewed schema) = items.map id :=
        List.map_congr_left fun item listed =>
          inductionHypothesis item listed (retains.part (.element kind element))
            (whole.part (.element kind element))
      rw [renewed_sequence _ (some element) rfl, same, List.map_id,
        Ty.gathered_of_holds kind element items holds]
  | map kind key part entries _ _ holds keysHypothesis partsHypothesis =>
      have same : (entries.map fun entry => (entry.1.renewed schema, entry.2.renewed schema))
          = entries.map id := List.map_congr_left fun entry listed => by
        rw [keysHypothesis entry listed (retains.part (.key kind key part))
            (whole.part (.key kind key part)),
          partsHypothesis entry listed (retains.part (.value kind key part))
            (whole.part (.value kind key part))]
        rfl
      rw [renewed_map, same, List.map_id, kind.collect_of_holds entries holds]
  | record type description described entry found members declared _ inductionHypothesis =>
      have complete := schema.length_of_declared found declared
      rw [renewed_record type description described,
        retains.self.refill_eq description described members complete (renewed schema) id
          fun field listed member here => inductionHypothesis field listed member here
            (retains.part (.field type description described field listed))
            (whole.part (.field type description described field listed)),
        List.map_id, Member.refill_of_none _ _ (Schema.blanks_eq_none whole)]

/-- What has become of the elements of a collection it can still hold, if those of sets travel
    whole. -/
theorem holds_renewedItems (kind : SequenceKind) (element : Ty) (items : List Value)
    (each : ∀ item ∈ items, item.Typed schema element) (holds : kind.Holds items)
    (retains : schema.Throughout schema.Retains element)
    (keyed : schema.Keyed (.sequence kind element)) :
    kind.Holds (items.map (renewed schema)) := by
  have unchanged (whole : schema.Whole element) : items.map (renewed schema) = items := by
    rw [List.map_congr_left fun item listed => renewed_of_whole (each item listed) retains whole]
    exact List.map_id _
  cases kind with
  | vector => trivial
  | deque => trivial
  | orderedSet => rw [unchanged (keyed rfl)]; exact holds
  | hashedSet => rw [unchanged (keyed rfl)]; exact holds
  | array length => exact (List.length_map _).trans holds

/-- What has become of the entries of a map it can still hold, if the keys travel whole. -/
theorem holds_renewedEntries (kind : MapKind) (key : Ty) (entries : List (Value × Value))
    (keys : ∀ entry ∈ entries, entry.1.Typed schema key) (holds : kind.Holds entries)
    (retains : schema.Throughout schema.Retains key) (whole : schema.Whole key) :
    kind.Holds (entries.map fun entry => (entry.1.renewed schema, entry.2.renewed schema)) := by
  refine kind.holds_of_keys ?_ holds
  rw [List.map_map]
  exact List.map_congr_left fun entry listed => renewed_of_whole (keys entry listed) retains whole

/-- If sets and maps are of what travels whole, a typed value is read again with blanks in place of
    the members that do not travel, and otherwise as it was. -/
theorem renewed_of_keyed {type : Ty} {value : Value} (typed : value.Typed schema type)
    (retains : schema.Throughout schema.Retains type)
    (keyed : schema.Throughout schema.Keyed type) :
    value.renewed schema = value.restored schema := by
  induction typed with
  | scalar plain => rfl
  | member type names described index known => rfl
  | absent inner => rfl
  | present inner value _ inductionHypothesis =>
      exact congrArg Value.present
        (inductionHypothesis (retains.part (.option inner)) (keyed.part (.option inner)))
  | boxed inner value _ inductionHypothesis =>
      exact congrArg Value.boxed
        (inductionHypothesis (retains.part (.boxed inner)) (keyed.part (.boxed inner)))
  | sequence kind element items each holds inductionHypothesis =>
      have below := retains.part (.element kind element)
      have same : items.map (renewed schema) = items.map (restored schema) :=
        List.map_congr_left fun item listed =>
          inductionHypothesis item listed below (keyed.part (.element kind element))
      have kept := holds_renewedItems kind element items each holds below keyed.self
      rw [renewed_sequence _ (some element) rfl, restored, restoredItems_eq_map, ← same,
        Ty.gathered_of_holds kind element _ kept]
  | map kind key part entries keys parts holds keysHypothesis partsHypothesis =>
      have same : (entries.map fun entry => (entry.1.renewed schema, entry.2.renewed schema))
          = entries.map fun entry => (restored schema entry.1, restored schema entry.2) :=
        List.map_congr_left fun entry listed => by
          rw [keysHypothesis entry listed (retains.part (.key kind key part))
              (keyed.part (.key kind key part)),
            partsHypothesis entry listed (retains.part (.value kind key part))
              (keyed.part (.value kind key part))]
      have kept := holds_renewedEntries kind key entries keys holds
        (retains.part (.key kind key part)) keyed.self
      rw [renewed_map, restored, restoredEntries_eq_map, ← same, kind.collect_of_holds _ kept]
  | record type description described entry found members declared _ inductionHypothesis =>
      have complete := schema.length_of_declared found declared
      rw [renewed_record type description described, restored, restoredItems_eq_map,
        retains.self.refill_eq description described members complete (renewed schema)
          (restored schema) fun field listed member here => inductionHypothesis field listed member
            here (retains.part (.field type description described field listed))
            (keyed.part (.field type description described field listed))]

end Value

end Wireform
