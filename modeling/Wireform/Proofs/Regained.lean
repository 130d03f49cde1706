import Wireform.Proofs.Faithful
import Wireform.Proofs.Renewal

/-!
# Values that are regained

What is read back of a value is of the type that was asked for, and if the value was a formed one of
this type, it is what was to be read again of it. No more is known, because a marker may name an
element type which is not that of the elements. The elements are then written and read as something
else, and it is only on collecting that this comes out.

Layers, collections and aggregates are regained if what they are made of is.
-/

namespace Wireform

variable {schema : Schema} {domain : Ty → Value → Prop}

/-! ## Values in their places -/

/-- The value is formed if it is of the type. Where it stands for a type that it is not of, as when
    markers misname the type of elements, nothing is asked of it. -/
def Value.Befits (schema : Schema) (domain : Ty → Value → Prop) (type : Ty) (value : Value) :
    Prop :=
  value.type = type → value.Formed schema domain type

namespace Value.Befits

variable {type : Ty} {value : Value}

/-- What is formed may stand for any type. -/
theorem of_formed {own : Ty} (formed : value.Formed schema domain own) (type : Ty) :
    value.Befits schema domain type := by
  intro same
  obtain rfl := formed.type_eq.symm.trans same
  exact formed

/-- What is below the stripped layers stands for what is below those of the type. -/
theorem project (befits : value.Befits schema domain type) (core : Value)
    (projected : Context.projectThrough type.layers value = .ok (some core)) :
    core.Befits schema domain type.unwrapped := by
  cases type with
  | boxed below =>
      obtain ⟨next, rfl, own, _⟩ :=
        (Context.projectThrough_pointer below _ value (some core)).mp projected
      have formed := (befits (congrArg Ty.boxed own)).project _ false _ core projected
      exact fun _ => formed
  | option below =>
      obtain ⟨_, impossible⟩ | ⟨next, rfl, own, _⟩ :=
        (Context.projectThrough_nullable below _ value (some core)).mp projected
      · cases impossible
      · have formed := (befits (congrArg Ty.option own)).project _ false _ core projected
        exact fun _ => formed
  | _ =>
      cases projected
      exact befits

/-- The elements of a sequence that is formed may stand for any type. -/
theorem items {declared : Option Ty} {elements : List Value}
    (befits : (Value.sequence type elements).Befits schema domain type)
    (described : schema.kind type = .sequence declared) (element : Ty) :
    ∀ item ∈ elements, item.Befits schema domain element := by
  obtain ⟨part, made⟩ := schema.exists_itemType type declared described
  exact fun item listed => of_formed ((befits rfl).items described made item listed) element

/-- The members that an aggregate has for its fields may stand for the types of the fields. -/
theorem field {owner : Ty} {description : Aggregate} (befits : value.Befits schema domain owner)
    (described : schema.kind owner = .aggregate description) (field : Field)
    (listed : field ∈ description.fields) (member : Value)
    (got : field.get owner value = .ok member) : member.Befits schema domain field.type := by
  obtain ⟨members, rfl, here⟩ := (Field.get_eq_ok owner field value member).mp got
  obtain ⟨_, same, _, fields⟩ := (befits rfl).members_of_kind description described
  cases same
  exact of_formed (fields field listed member here) field.type

end Value.Befits

/-! ## Regained values -/

/-- What was read is of the type, and if the value was a formed one of the type, it is what is to be
    read again of the value. -/
structure Value.Regained (schema : Schema) (domain : Ty → Value → Prop) (type : Ty)
    (value result : Value) : Prop where
  type_eq : result.type = type
  same : value.Formed schema domain type → result = value.renewed schema

/-! ## Layers -/

section
variable (change : Value → Value) (absent : ∀ type, change (.absent type) = .absent type)
  (present : ∀ value, change (.present value) = .present (change value))
  (boxed : ∀ value, change (.boxed value) = .boxed (change value))

include absent present boxed

/-- A layer around what has been changed makes the change of what it made before, if the change does
    not touch layers. -/
theorem Layer.rewrap_map (layer : Layer) (inner whole found : Option Value)
    (wrapped : layer.rewrap inner = .ok whole)
    (rewrapped : layer.rewrap (inner.map change) = .ok found) : found = whole.map change := by
  cases layer with
  | nullable type =>
      obtain ⟨rfl, rfl⟩ | ⟨here, rfl, _, rfl⟩ :=
        (Layer.rewrap_nullable_eq_ok type inner whole).mp wrapped
      all_goals obtain ⟨missing, rfl⟩ | ⟨there, held, _, rfl⟩ :=
        (Layer.rewrap_nullable_eq_ok type _ found).mp rewrapped
      · exact congrArg some (absent type).symm
      · cases held
      · cases missing
      · cases held
        exact congrArg some (present here).symm
  | pointer type =>
      obtain ⟨rfl, rfl⟩ | ⟨here, rfl, _, rfl⟩ :=
        (Layer.rewrap_pointer_eq_ok type inner whole).mp wrapped
      all_goals obtain ⟨missing, rfl⟩ | ⟨there, held, _, rfl⟩ :=
        (Layer.rewrap_pointer_eq_ok type _ found).mp rewrapped
      · rfl
      · cases held
      · cases missing
      · cases held
        exact congrArg some (boxed here).symm

/-- Layers around what has been changed make the change of what they made before. -/
theorem Context.rewrapThrough_map (layers : List Layer) (inner whole found : Option Value)
    (wrapped : rewrapThrough layers inner = .ok whole)
    (rewrapped : rewrapThrough layers (inner.map change) = .ok found) :
    found = whole.map change := by
  induction layers generalizing whole found with
  | nil =>
      cases wrapped
      cases rewrapped
      rfl
  | cons layer rest inductionHypothesis =>
      simp only [rewrapThrough] at wrapped rewrapped
      cases put : rewrapThrough rest inner with
      | error error => rw [put] at wrapped; cases wrapped
      | ok below =>
          cases again : rewrapThrough rest (inner.map change) with
          | error error => rw [again] at rewrapped; cases rewrapped
          | ok seen =>
              obtain rfl := inductionHypothesis below seen put again
              rw [put] at wrapped
              rw [again] at rewrapped
              exact layer.rewrap_map change absent present boxed below whole found wrapped rewrapped

end

/-- The layers of a place around what was regained below them make what is regained there. -/
theorem Value.regained_place (declared : Ty) (value : Value) (inner found : Option Value)
    (result : Value) (projected : Context.projectThrough declared.layers value = .ok inner)
    (regained : Option.Rel (Regained schema domain declared.unwrapped) inner found)
    (rewrapped : (Context.of declared).rewrap found = .ok result) :
    Regained schema domain declared value result := by
  refine ⟨?_, fun formed => ?_⟩
  · refine (Context.of declared).type_of_rewrap found result (fun other held => ?_) rewrapped
    subst held
    cases regained with
    | some own => exact own.type_eq
  · obtain rfl : found = inner.map (renewed schema) := by
      cases regained with
      | none => rfl
      | some own => exact congrArg some (own.same (formed.project declared false value _ projected))
    exact Option.some.inj (Context.rewrapThrough_map (renewed schema) (fun _ => rfl) (fun _ => rfl)
      (fun _ => rfl) declared.layers inner (some value) (some result)
      (Context.rewrap_project declared false value inner projected)
      ((Context.of declared).rewrapThrough_of_rewrap _ result rewrapped))

/-! ## Collections -/

/-- Elements that have been checked are the elements, and all of them are of the type. -/
theorem Value.of_mapM_expect (part : Ty) (items checked : List Value)
    (expected : items.mapM (expect part) = .ok checked) :
    checked = items ∧ ∀ item ∈ items, item.type = part := by
  induction items generalizing checked with
  | nil => cases expected; exact ⟨rfl, List.forall_mem_nil _⟩
  | cons item rest inductionHypothesis =>
      rw [List.mapM_cons] at expected
      cases first : item.expect part with
      | error error => rw [first] at expected; cases expected
      | ok found =>
          obtain ⟨own, rfl⟩ := (expect_eq_ok part item found).mp first
          cases later : rest.mapM (expect part) with
          | error error => rw [first, later] at expected; cases expected
          | ok others =>
              rw [first, later] at expected
              cases expected
              obtain ⟨rfl, typed⟩ := inductionHypothesis others later
              exact ⟨rfl, List.forall_mem_cons.mpr ⟨own, typed⟩⟩

/-- A sequence is only made of elements of its element type, and of those that it keeps. -/
theorem Schema.of_collect (schema : Schema) {type part : Ty}
    (made : schema.itemType? type = some part)
    {items : List Value} {whole : Value} (collected : schema.collect type items = .ok whole) :
    (∀ item ∈ items, item.type = part) ∧
      ∃ kept, type.kept items = .ok kept ∧ whole = .sequence type kept := by
  rw [schema.collect_of_itemType type part made] at collected
  cases checked : items.mapM (Value.expect part) with
  | error error => rw [checked] at collected; cases collected
  | ok found =>
      obtain ⟨rfl, typed⟩ := Value.of_mapM_expect part items found checked
      rw [checked] at collected
      change (type.kept found >>= fun kept => Except.ok (.sequence type kept)) = .ok whole
        at collected
      cases keeps : type.kept found with
      | error error => rw [keeps] at collected; cases collected
      | ok kept =>
          rw [keeps] at collected
          cases collected
          exact ⟨typed, kept, rfl, rfl⟩

namespace Value

/-- What was regained of formed elements is what is to be read again of them, if a sequence can be
    made of it: it then was regained as elements of the sequence's own element type, or there are
    none. -/
theorem eq_renewed_of_regained {element part : Ty} {items others : List Value}
    (regained : List.Forall₂ (Regained schema domain element) items others)
    (typed : ∀ other ∈ others, other.type = part)
    (formed : ∀ item ∈ items, item.Formed schema domain part) :
    others = items.map (renewed schema) := by
  have each (same : element = part) : others = items.map (renewed schema) := by
    subst same
    have pairs := (List.forall₂_and_left _ _).mpr ⟨formed, regained⟩
    have mapped := map_eq_of_related pairs (renewed schema) id fun _ _ both => both.2.same both.1
    rwa [List.map_id] at mapped
  cases regained with
  | nil => rfl
  | cons first later => exact each (first.type_eq.symm.trans (typed _ List.mem_cons_self))

/-- The sequence that was made of regained elements is regained, whatever type was chosen for the
    elements. -/
theorem regained_sequence (type element : Ty) (declared : Option Ty)
    (described : schema.kind type = .sequence declared) (items others : List Value) (whole : Value)
    (regained : List.Forall₂ (Regained schema domain element) items others)
    (collected : schema.collect type others = .ok whole) :
    Regained schema domain type (.sequence type items) whole := by
  obtain ⟨part, made⟩ := schema.exists_itemType type declared described
  obtain ⟨typed, kept, keeps, rfl⟩ := schema.of_collect made collected
  refine ⟨rfl, fun formed => ?_⟩
  obtain rfl := eq_renewed_of_regained regained typed (formed.items described made)
  rw [renewed_sequence type declared described, type.eq_gathered_of_kept _ kept keeps]

/-- The map that was made of regained entries is regained. -/
theorem regained_map (kind : MapKind) (key part : Ty) (entries others : List (Value × Value))
    (whole : Value)
    (regained : List.Forall₂ (fun entry other => Regained schema domain key entry.1 other.1 ∧
      Regained schema domain part entry.2 other.2) entries others)
    (collected : Schema.collectEntries (.map kind key part) others = .ok whole) :
    Regained schema domain (.map kind key part) (.map (.map kind key part) entries) whole := by
  refine ⟨Schema.type_of_collectEntries _ others whole collected, fun formed => ?_⟩
  obtain ⟨keys, parts⟩ := formed.entries
  have pairs := (List.forall₂_and_left _ _).mpr
    ⟨fun entry listed => And.intro (keys entry listed) (parts entry listed), regained⟩
  have same := map_eq_of_related pairs
    (fun entry => (entry.1.renewed schema, entry.2.renewed schema)) id fun _ _ both =>
      Prod.ext (both.2.1.same both.1.1) (both.2.2.same both.1.2)
  rw [List.map_id] at same
  have types : ∀ other ∈ others, other.1.type = key ∧ other.2.type = part :=
    ((List.forall₂_and_left (p := fun other => other.1.type = key ∧ other.2.type = part) _ _).mp
      (regained.flip.imp fun other entry both =>
        And.intro ⟨both.1.type_eq, both.2.type_eq⟩ both)).1
  have known := Schema.collectEntries_of_type kind key part others types
  rw [renewed_map, ← same]
  exact Except.ok.inj (collected.symm.trans known)

end Value

/-! ## Aggregates -/

/-- The value of the field is regained as the argument. -/
def Value.RegainedField (schema : Schema) (domain : Ty → Value → Prop) (owner : Ty) (value : Value)
    (field : Field) (argument : Value) : Prop :=
  ∃ member, field.get owner value = .ok member ∧
    Regained schema domain field.type member argument

/-- The values of fields are the members in their positions. -/
theorem Field.values_eq {fields : List Field} {members arguments : List Value}
    (stored : List.Forall₂ (fun (field : Field) argument => members[field.slot]? = some argument)
      fields arguments) : Field.values fields members = arguments := by
  induction stored with
  | nil => rfl
  | cons here _ inductionHypothesis =>
      rw [Field.values, List.filterMap_cons, here]
      exact congrArg (_ :: ·) inductionHypothesis

/-- The aggregate whose members are filled with what was regained for its fields is regained. -/
theorem Value.regained_filled (type : Ty) (description : Aggregate)
    (described : schema.kind type = .aggregate description) (entry : Entry)
    (found : schema.find? type = some entry) (members : List Member)
    (fields : description.fields = Member.fieldsFrom 0 members)
    (blanks : entry.blanks description = members.map Member.blank)
    (lengths : members.length = entry.members.length) (value : Value) (arguments : List Value)
    (regained : List.Forall₂ (RegainedField schema domain type value) description.fields
      arguments) :
    Regained schema domain type value (.record type (Member.filled members arguments)) := by
  refine ⟨rfl, fun formed => ?_⟩
  obtain ⟨values, rfl, complete, held⟩ := formed.members_of_kind description described
  have stored : List.Forall₂ (fun (field : Field) argument =>
      (values.map (renewed schema))[field.slot]? = some argument) description.fields arguments := by
    refine ((List.forall₂_and_left _ _).mpr ⟨held, regained⟩).imp ?_
    rintro field argument ⟨heldField, member, got, own⟩
    obtain ⟨_, same, here⟩ := (Field.get_eq_ok type field _ member).mp got
    cases same
    rw [List.getElem?_map, here, own.same (heldField member here)]
    rfl
  have blanked : schema.blanks type = members.map Member.blank := by
    rw [Schema.blanks, found, described]
    exact blanks
  have counts : (values.map (renewed schema)).length = members.length := by
    rw [List.length_map, complete entry found, lengths]
  rw [renewed_record type description described, blanked, ← Member.filled_values _ _ counts,
    ← fields, Field.values_eq stored]

end Wireform
