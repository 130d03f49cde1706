import Wireform.Proofs.RoundTrip

/-!
# Values that are alike

A value that comes back is like the one that went out: the two are rebuilt as the same, so
that they differ in members that do not travel at most, and they are the same if the type has
no such members. Wherever values are put together from parts, alike parts make alike wholes:
under layers, in collections, and in aggregates whichever way they are rebuilt.

Sets and maps need the second half. What is only rebuilt as the same may still collapse with
another element, so elements of sets and keys of maps have to travel whole.
-/

namespace Wireform

variable {schema : Schema}

/-- Lists whose items are related are the same seen through functions that related items do not
    tell apart. -/
theorem map_eq_of_related {α β γ : Type} {related : α → β → Prop} {items : List α}
    {others : List β} (each : List.Forall₂ related items others) (view : α → γ) (seen : β → γ)
    (same : ∀ item other, related item other → seen other = view item) :
    others.map seen = items.map view := by
  rw [← List.forall₂_eq_eq_eq, List.forall₂_map_left_iff, List.forall₂_map_right_iff]
  exact each.flip.imp fun other item both => same item other both

/-- The other value is like the value, as values of the type. -/
structure Value.Alike (schema : Schema) (type : Ty) (value other : Value) : Prop where
  restored : other.restored schema = value.restored schema
  whole : schema.Whole type → other = value

namespace Value.Alike

variable {type : Ty} {value other : Value}

/-- A value is like itself. -/
theorem refl (type : Ty) (value : Value) : Value.Alike schema type value value :=
  ⟨rfl, fun _ => rfl⟩

/-- Alike values are of the same type. -/
theorem type_eq (alike : Value.Alike schema type value other) : other.type = value.type := by
  have types := congrArg Value.type alike.restored
  rwa [Value.type_restored, Value.type_restored] at types

/-- Alike lists of values that travel whole are the same. -/
theorem eq_of_whole {items others : List Value}
    (alikes : List.Forall₂ (Value.Alike schema type) items others) (whole : schema.Whole type) :
    others = items := by
  have same := map_eq_of_related alikes id id fun _ _ alike => alike.whole whole
  rwa [List.map_id, List.map_id] at same

end Value.Alike

/-! ## Layers -/

/-- The layers around something alike make something alike. -/
theorem Context.rewrapThrough_alike (type : Ty) (stripped : Bool) (value : Value)
    (inner other : Option Value)
    (projected : projectThrough (type.peel stripped).1 value = .ok inner)
    (alike : Option.Rel (Value.Alike schema (type.peel stripped).2) inner other) :
    ∃ whole, rewrapThrough (type.peel stripped).1 other = .ok (some whole) ∧
      Value.Alike schema type value whole := by
  induction type generalizing stripped value with
  | boxed below inductionHypothesis =>
      obtain ⟨next, rfl, same, later⟩ := (projectThrough_pointer below _ value inner).mp projected
      obtain ⟨held, rewrapped, alikeHeld⟩ := inductionHypothesis stripped next later alike
      have put := Layer.rewrap_pointer below held (alikeHeld.type_eq.trans same)
      refine ⟨.boxed held, ?_, congrArg Value.boxed alikeHeld.restored, fun whole => ?_⟩
      · simp only [Ty.peel, rewrapThrough, rewrapped]
        exact put
      · rw [alikeHeld.whole (whole.part (.boxed below))]
  | option below inductionHypothesis =>
      cases stripped with
      | true =>
          cases projected
          cases alike with
          | some alike => exact ⟨_, rfl, alike⟩
      | false =>
          obtain ⟨rfl, rfl⟩ | ⟨next, rfl, same, later⟩ :=
            (projectThrough_nullable below _ value inner).mp projected
          · cases alike
            refine ⟨.absent below, ?_, .refl _ _⟩
            simp only [Ty.peel, rewrapThrough, rewrapThrough_none]
            rfl
          · obtain ⟨held, rewrapped, alikeHeld⟩ := inductionHypothesis true next later alike
            have put := Layer.rewrap_nullable below held (alikeHeld.type_eq.trans same)
            refine ⟨.present held, ?_, congrArg Value.present alikeHeld.restored, fun whole => ?_⟩
            · simp only [Ty.peel, rewrapThrough, rewrapped]
              exact put
            · rw [alikeHeld.whole (whole.part (.option below))]
  | _ =>
      cases stripped
      all_goals
        cases projected
        cases alike with
        | some alike => exact ⟨_, rfl, alike⟩

/-! ## Collections -/

/-- It is up to the keys what a map can hold. -/
theorem MapKind.holds_of_keys (kind : MapKind) {entries others : List (Value × Value)}
    (same : others.map Prod.fst = entries.map Prod.fst) (holds : kind.Holds entries) :
    kind.Holds others := by
  cases kind with
  | ordered =>
      have ascends : (entries.map Prod.fst).Pairwise fun earlier later =>
          later.order earlier = .gt := List.pairwise_map.mpr holds
      rw [← same] at ascends
      exact List.pairwise_map.mp ascends
  | hashed =>
      have distinct : (entries.map Prod.fst).Pairwise fun earlier later =>
          later.same earlier = false := List.pairwise_map.mpr holds
      rw [← same] at distinct
      exact List.pairwise_map.mp distinct

namespace Schema

/-- A collection of alike elements is like the collection. -/
theorem collect_alike (kind : SequenceKind) (element : Ty) (items others : List Value)
    (keyed : schema.Keyed (.sequence kind element))
    (typed : ∀ item ∈ items, item.type = element) (holds : kind.Holds items)
    (alikes : List.Forall₂ (Value.Alike schema element) items others) :
    ∃ whole, schema.collect (.sequence kind element) others = .ok whole ∧
      Value.Alike schema (.sequence kind element) (.sequence (.sequence kind element) items)
        whole := by
  have sameTypes : others.map Value.type = items.map Value.type :=
    map_eq_of_related alikes _ _ fun _ _ alike => alike.type_eq
  have types : ∀ other ∈ others, other.type = element := by
    intro other listed
    have among : other.type ∈ items.map Value.type := sameTypes ▸ List.mem_map_of_mem listed
    obtain ⟨item, original, same⟩ := List.mem_map.mp among
    exact same.symm.trans (typed item original)
  have kept : kind.Holds others := by
    cases kind with
    | vector => trivial
    | deque => trivial
    | orderedSet => rw [Value.Alike.eq_of_whole alikes (keyed rfl)]; exact holds
    | hashedSet => rw [Value.Alike.eq_of_whole alikes (keyed rfl)]; exact holds
    | array length => exact alikes.length_eq.symm.trans holds
  have rebuilt : others.map (Value.restored schema) = items.map (Value.restored schema) :=
    map_eq_of_related alikes _ _ fun _ _ alike => alike.restored
  refine ⟨.sequence (.sequence kind element) others, ?_, ?_, fun whole => ?_⟩
  · rw [schema.collect_of_type kind element others types, kind.collect_of_holds others kept]
    rfl
  · simp only [Value.restored, Value.restoredItems_eq_map, rebuilt]
  · rw [Value.Alike.eq_of_whole alikes (whole.part (.element kind element))]

/-- Entries are alike if their keys and their values are. -/
def AlikeEntries (schema : Schema) (key part : Ty) (entry other : Value × Value) : Prop :=
  Value.Alike schema key entry.1 other.1 ∧ Value.Alike schema part entry.2 other.2

/-- A map of alike entries is like the map. -/
theorem collectEntries_alike (kind : MapKind) (key part : Ty) (entries others : List (Value × Value))
    (keyed : schema.Keyed (.map kind key part))
    (typed : ∀ entry ∈ entries, entry.1.type = key ∧ entry.2.type = part)
    (holds : kind.Holds entries)
    (alikes : List.Forall₂ (AlikeEntries schema key part) entries others) :
    ∃ whole, collectEntries (.map kind key part) others = .ok whole ∧
      Value.Alike schema (.map kind key part) (.map (.map kind key part) entries) whole := by
  have sameTypes : others.map (fun other => (other.1.type, other.2.type))
      = entries.map fun entry => (entry.1.type, entry.2.type) :=
    map_eq_of_related alikes _ _ fun _ _ both => Prod.ext both.1.type_eq both.2.type_eq
  have types : ∀ other ∈ others, other.1.type = key ∧ other.2.type = part := by
    intro other listed
    have among : (other.1.type, other.2.type) ∈ entries.map fun entry =>
        (entry.1.type, entry.2.type) := sameTypes ▸ List.mem_map_of_mem listed
    obtain ⟨entry, original, same⟩ := List.mem_map.mp among
    obtain ⟨keyType, partType⟩ := typed entry original
    exact ⟨(congrArg Prod.fst same).symm.trans keyType, (congrArg Prod.snd same).symm.trans partType⟩
  have keys : others.map Prod.fst = entries.map Prod.fst :=
    map_eq_of_related alikes _ _ fun _ _ both => both.1.whole keyed
  have kept := kind.holds_of_keys keys holds
  have rebuilt : others.map (fun entry => (entry.1.restored schema, entry.2.restored schema))
      = entries.map fun entry => (entry.1.restored schema, entry.2.restored schema) :=
    map_eq_of_related alikes _ _ fun _ _ both => Prod.ext both.1.restored both.2.restored
  refine ⟨.map (.map kind key part) others, ?_, ?_, fun whole => ?_⟩
  · rw [collectEntries_of_type kind key part others types, kind.collect_of_holds others kept]
  · simp only [Value.restored, Value.restoredEntries_eq_map, rebuilt]
  · have same : others.map id = entries.map id :=
      map_eq_of_related alikes _ _ fun _ _ both => Prod.ext (both.1.whole keyed)
        (both.2.whole (whole.part (.value kind key part)))
    rw [List.map_id, List.map_id] at same
    rw [same]

end Schema

/-! ## Aggregates -/

/-- Arguments that are like the members of the fields that they are for. -/
def Value.AlikeFields (schema : Schema) (members : List Value) :
    List Field → List Value → Prop :=
  List.Forall₂ fun field argument => ∃ member, members[field.slot]? = some member ∧
    member.type = field.type ∧ Value.Alike schema field.type member argument

/-- Filling arguments into the members that travel makes an aggregate like the one that the
    arguments are like the members of. -/
theorem Value.alike_filled (type : Ty) (description : Aggregate)
    (described : schema.kind type = .aggregate description) (entry : Entry)
    (found : schema.find? type = some entry) (members : List Member)
    (fields : description.fields = Member.fieldsFrom 0 members)
    (blanks : entry.blanks description = members.map Member.blank) (values arguments : List Value)
    (lengths : values.length = members.length)
    (alikes : Value.AlikeFields schema values description.fields arguments) :
    Value.Alike schema type (.record type values)
      (.record type (Member.filled members arguments)) := by
  have blanked : schema.blanks type = members.map Member.blank := by
    rw [Schema.blanks, found, described]
    exact blanks
  constructor
  · have paired := alikes
    rw [Value.AlikeFields, fields] at paired
    have rebuilt := Member.refill_filled_of_values (Value.restored schema) [] members values
      arguments lengths (paired.imp fun _ _ alike => by
        obtain ⟨member, present, _, alike⟩ := alike
        exact ⟨member, present, alike.restored⟩)
    simp only [Value.restored, Value.restoredItems_eq_map, blanked, rebuilt]
  · intro whole
    have travels := Schema.blanks_eq_none whole
    have parts : ∀ field ∈ description.fields, schema.Whole field.type := fun field listed =>
      whole.part (.field type description described field listed)
    have paired := (List.forall₂_and_left _ _).mpr ⟨parts, alikes⟩
    rw [fields] at paired
    have same := Member.refill_filled_of_values id [] members values arguments lengths
      (paired.imp fun _ _ both => by
        obtain ⟨wholeField, member, present, _, alike⟩ := both
        exact ⟨member, present, alike.whole wholeField⟩)
    rw [List.map_id, List.map_id, ← blanked, Member.refill_of_none _ _ travels,
      Member.refill_of_none _ _ travels] at same
    rw [same]

end Wireform
