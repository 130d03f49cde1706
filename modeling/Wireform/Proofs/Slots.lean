import Mathlib.Data.List.Forall2
import Wireform.Schema

/-!
# Members and fields

The members of an aggregate are all there are; its fields are those that travel, and
each field names the position of its member. Rebuilding goes from the values of the
fields back to members: arguments are filled into the positions that travel, or fields
are assigned one by one. Both put blanks where no field has been.
-/

namespace Wireform

namespace Field

/-- The members that the fields are kept in. -/
def values (fields : List Field) (members : List Value) : List Value :=
  fields.filterMap fun field => members[field.slot]?

/-- The values of fields are of the types of the fields if their members are. -/
theorem types_of_values (fields : List Field) (members : List Value)
    (each : ∀ field ∈ fields, ∃ member, members[field.slot]? = some member ∧
      member.type = field.type) :
    (values fields members).map Value.type = fields.map Field.type := by
  induction fields with
  | nil => rfl
  | cons field rest inductionHypothesis =>
      obtain ⟨member, present, same⟩ := each field List.mem_cons_self
      have others := inductionHypothesis fun other later => each other (List.mem_cons_of_mem _ later)
      rw [values, List.filterMap_cons, present]
      simp only [List.map_cons, same]
      exact congrArg (field.type :: ·) others

/-- The members with those of the fields put in one after another. -/
def assigned (members : List Value) : List Field → (current : List Value) → List Value
  | [], current => current
  | field :: rest, current =>
      match members[field.slot]? with
      | some member => assigned members rest (current.set field.slot member)
      | none => assigned members rest current

/-- A member is put in if a field has its position, and otherwise left as it was. -/
theorem getElem?_assigned (members : List Value) (fields : List Field) (current : List Value)
    (lengths : current.length = members.length) (index : Nat) :
    (assigned members fields current)[index]?
      = if ∃ field ∈ fields, field.slot = index then members[index]? else current[index]? := by
  induction fields generalizing current with
  | nil => simp [assigned]
  | cons field rest inductionHypothesis =>
      cases found : members[field.slot]? with
      | none =>
          have outside : members.length ≤ field.slot := List.getElem?_eq_none_iff.mp found
          simp only [assigned, found, inductionHypothesis current lengths]
          by_cases same : field.slot = index
          · subst same
            simp [found, List.getElem?_eq_none (lengths ▸ outside)]
          · simp [same]
      | some member =>
          have kept : (current.set field.slot member).length = members.length := by
            simpa using lengths
          simp only [assigned, found, inductionHypothesis _ kept]
          by_cases same : field.slot = index
          · subst same
            have inside : field.slot < current.length :=
              lengths ▸ (List.getElem?_eq_some_iff.mp found).1
            simp [found, List.getElem?_set_self inside]
          · simp [same]

/-- The members with values put into the fields in order. -/
def put : List Field → (arguments : List Value) → (current : List Value) → List Value
  | field :: rest, argument :: arguments, current =>
      put rest arguments (current.set field.slot argument)
  | _, _, current => current

end Field

namespace Member

/-- The members that are made of arguments for the travelling ones. -/
def filled : List Member → List Value → List Value
  | [], _ => []
  | member :: rest, arguments =>
      match member.blank, arguments with
      | some blank, arguments => blank :: filled rest arguments
      | none, argument :: arguments => argument :: filled rest arguments
      | none, [] => []

/-- Members with blanks put in their places. -/
def refill : (blanks : List (Option Value)) → List Value → List Value
  | [], values => values
  | _ :: _, [] => []
  | blank :: blanks, value :: values => blank.getD value :: refill blanks values

/-- A member travels as a field at its position. -/
theorem mem_fieldsFrom (members : List Member) (start : Nat) (field : Field) :
    field ∈ fieldsFrom start members ↔ ∃ index member, members[index]? = some member ∧
      member.blank = none ∧ field = ⟨member.name, member.type, member.markers, start + index⟩ := by
  induction members generalizing start with
  | nil => simp [fieldsFrom]
  | cons head rest inductionHypothesis =>
      have later : (∃ index member, rest[index]? = some member ∧ member.blank = none ∧
            field = ⟨member.name, member.type, member.markers, start + 1 + index⟩)
          ↔ ∃ index member, (head :: rest)[index + 1]? = some member ∧ member.blank = none ∧
            field = ⟨member.name, member.type, member.markers, start + (index + 1)⟩ := by
        simp only [List.getElem?_cons_succ, Nat.add_assoc, Nat.add_comm 1]
      cases travels : head.blank with
      | some blank =>
          simp only [fieldsFrom, travels, inductionHypothesis, later]
          constructor
          · rintro ⟨index, found⟩
            exact ⟨index + 1, found⟩
          · rintro ⟨index, member, listed, whole, same⟩
            cases index with
            | zero =>
                cases listed
                rw [travels] at whole
                cases whole
            | succ index => exact ⟨index, member, listed, whole, same⟩
      | none =>
          simp only [fieldsFrom, travels, List.mem_cons, inductionHypothesis, later]
          constructor
          · rintro (same | ⟨index, found⟩)
            · exact ⟨0, head, rfl, travels, same⟩
            · exact ⟨index + 1, found⟩
          · rintro ⟨index, member, listed, whole, same⟩
            cases index with
            | zero => cases listed; exact .inl same
            | succ index => exact .inr ⟨index, member, listed, whole, same⟩

/-- A member is its blank, if it has one and does not travel. -/
theorem getElem?_refill (blanks : List (Option Value)) (values : List Value) (index : Nat) :
    (refill blanks values)[index]?
      = values[index]?.map fun value => ((blanks[index]?).join).getD value := by
  induction blanks generalizing values index with
  | nil => simp [refill]
  | cons blank blanks inductionHypothesis =>
      cases values with
      | nil => simp [refill]
      | cons value values =>
          cases index with
          | zero => simp [refill]
          | succ index => simpa [refill] using inductionHypothesis values index

/-- Without blanks all members stay. -/
theorem refill_of_none (blanks : List (Option Value)) (values : List Value)
    (none : ∀ blank ∈ blanks, blank = Option.none) : refill blanks values = values := by
  induction blanks generalizing values with
  | nil => rfl
  | cons blank blanks inductionHypothesis =>
      cases values with
      | nil => rfl
      | cons value values =>
          rw [refill, none blank List.mem_cons_self,
            inductionHypothesis values fun other later => none other (List.mem_cons_of_mem _ later)]
          rfl

/-- The values of the fields are filled into the positions that they come from. -/
theorem filled_values (members : List Member) (values : List Value)
    (lengths : values.length = members.length) :
    filled members (Field.values (fieldsFrom 0 members) values)
      = refill (members.map Member.blank) values := by
  have shifted (front : List Value) :
      filled members (Field.values (fieldsFrom front.length members) (front ++ values))
        = refill (members.map Member.blank) values := by
    induction members generalizing front values with
    | nil =>
        cases List.length_eq_zero_iff.mp lengths
        rfl
    | cons member rest inductionHypothesis =>
        obtain _ | ⟨value, others⟩ := values
        · cases lengths
        · have later := inductionHypothesis others (Nat.succ.inj lengths) (front ++ [value])
          simp only [List.length_append, List.length_singleton, List.append_assoc,
            List.singleton_append] at later
          cases travels : member.blank with
          | some blank =>
              simp only [fieldsFrom, filled, travels, List.map_cons, refill, later, Option.getD_some]
          | none =>
              have first : (front ++ value :: others)[front.length]? = some value := by simp
              simp only [fieldsFrom, travels, Field.values, List.filterMap_cons, first, filled,
                List.map_cons, refill, Option.getD_none]
              exact congrArg (value :: ·) later
  exact shifted []

/-- Assigning the fields leaves the others as they were. -/
theorem assigned_eq_refill (members : List Member) (values initial : List Value)
    (lengths : values.length = members.length) (initialLengths : initial.length = members.length) :
    Field.assigned values (fieldsFrom 0 members) initial
      = refill ((members.zip initial).map fun pair => pair.1.blank.map fun _ => pair.2) values := by
  refine List.ext_getElem? fun index => ?_
  rw [Field.getElem?_assigned _ _ _ (initialLengths.trans lengths.symm), getElem?_refill]
  by_cases inside : index < members.length
  · have declared := List.getElem?_eq_getElem inside
    have present := List.getElem?_eq_getElem (lengths ▸ inside)
    have before := List.getElem?_eq_getElem (initialLengths ▸ inside)
    have paired : (members.zip initial)[index]? = some (members[index], initial[index]) :=
      List.getElem?_zip_eq_some.mpr ⟨declared, before⟩
    cases travels : members[index].blank with
    | none =>
        have field : ∃ field ∈ fieldsFrom 0 members, field.slot = index :=
          ⟨_, (mem_fieldsFrom members 0 _).mpr ⟨index, _, declared, travels, rfl⟩, Nat.zero_add _⟩
        rw [if_pos field]
        simp [paired, present, travels]
    | some blank =>
        have skipped : ¬ ∃ field ∈ fieldsFrom 0 members, field.slot = index := by
          rintro ⟨field, listed, same⟩
          obtain ⟨position, member, other, whole, rfl⟩ := (mem_fieldsFrom members 0 field).mp listed
          simp only [Nat.zero_add] at same
          subst same
          rw [declared] at other
          cases other
          rw [travels] at whole
          cases whole
        rw [if_neg skipped]
        simp [paired, present, before, travels]
  · have outside : values[index]? = none := List.getElem?_eq_none (by omega)
    have beyond : initial[index]? = none := List.getElem?_eq_none (by omega)
    simp [outside, beyond]

/-- The members with the values of an aggregate for blanks, where they have blanks. -/
def blankedBy (members : List Member) (values : List Value) : List Member :=
  List.zipWith (fun member value => { member with blank := member.blank.map fun _ => value })
    members values

/-- Other blanks do not change what travels. -/
theorem fieldsFrom_blankedBy (members : List Member) (values : List Value) (start : Nat)
    (lengths : values.length = members.length) :
    fieldsFrom start (blankedBy members values) = fieldsFrom start members := by
  induction members generalizing start values with
  | nil => cases values <;> rfl
  | cons member rest inductionHypothesis =>
      obtain _ | ⟨value, others⟩ := values
      · cases lengths
      · have later := inductionHypothesis others (start + 1) (Nat.succ.inj lengths)
        unfold blankedBy at later
        cases travels : member.blank <;>
          simp only [blankedBy, List.zipWith_cons_cons, fieldsFrom, travels, Option.map_none,
            Option.map_some, later]

/-- Its blanks are the values that stand where there are blanks. -/
theorem map_blank_blankedBy (members : List Member) (values : List Value) :
    (blankedBy members values).map Member.blank
      = (members.zip values).map fun pair => pair.1.blank.map fun _ => pair.2 := by
  rw [blankedBy, List.zip, List.map_zipWith, List.map_zipWith]

/-- Putting values into all fields fills the members that travel, behind any others. -/
theorem put_eq_filled (front : List Value) (members : List Member) (values arguments : List Value)
    (lengths : values.length = members.length)
    (counts : arguments.length = (fieldsFrom front.length members).length) :
    Field.put (fieldsFrom front.length members) arguments (front ++ values)
      = front ++ filled (blankedBy members values) arguments := by
  induction members generalizing front values arguments with
  | nil =>
      cases List.length_eq_zero_iff.mp lengths
      cases arguments <;> rfl
  | cons member rest inductionHypothesis =>
      obtain _ | ⟨value, others⟩ := values
      · cases lengths
      · cases travels : member.blank with
        | some blank =>
            rw [fieldsFrom, travels] at counts ⊢
            have later := inductionHypothesis (front ++ [value]) others arguments
              (Nat.succ.inj lengths)
            simp only [List.length_append, List.length_singleton, List.append_assoc,
              List.singleton_append] at later
            simp only [blankedBy, List.zipWith_cons_cons, travels, Option.map_some, filled]
            exact later counts
        | none =>
            rw [fieldsFrom, travels] at counts ⊢
            obtain _ | ⟨argument, arguments⟩ := arguments
            · cases counts
            · have later := inductionHypothesis (front ++ [argument]) others arguments
                (Nat.succ.inj lengths)
              simp only [List.length_append, List.length_singleton, List.append_assoc,
                List.singleton_append] at later
              simp only [blankedBy, List.zipWith_cons_cons, travels, Option.map_none, filled,
                Field.put, List.set_append_right _ _ (Nat.le_refl _), Nat.sub_self,
                List.set_cons_zero]
              exact later (Nat.succ.inj counts)

/-- Each field holds the argument that its member has been filled with. -/
theorem getElem?_filled (front : List Value) (members : List Member) (arguments : List Value)
    (counts : arguments.length = (fieldsFrom front.length members).length) :
    List.Forall₂ (fun (field : Field) argument =>
        (front ++ filled members arguments)[field.slot]? = some argument)
      (fieldsFrom front.length members) arguments := by
  induction members generalizing front arguments with
  | nil =>
      cases List.length_eq_zero_iff.mp counts
      exact .nil
  | cons member rest inductionHypothesis =>
      cases travels : member.blank with
      | some blank =>
          rw [fieldsFrom, travels] at counts ⊢
          have later := inductionHypothesis (front ++ [blank]) arguments
          simp only [List.length_append, List.length_singleton, List.append_assoc,
            List.singleton_append] at later
          simp only [filled, travels]
          exact later counts
      | none =>
          rw [fieldsFrom, travels] at counts ⊢
          obtain _ | ⟨argument, arguments⟩ := arguments
          · cases counts
          · have later := inductionHypothesis (front ++ [argument]) arguments
            simp only [List.length_append, List.length_singleton, List.append_assoc,
              List.singleton_append] at later
            simp only [filled, travels]
            exact .cons (by simp) (later (Nat.succ.inj counts))

/-- Filled members have their blanks already, and changing them as arguments are changed
    that stay the same leaves them as they are. -/
theorem refill_filled (change : Value → Value) (members : List Member) (arguments : List Value)
    (kept : ∀ argument ∈ arguments, change argument = argument) :
    refill (members.map Member.blank) ((filled members arguments).map change)
      = filled members arguments := by
  induction members generalizing arguments with
  | nil => rfl
  | cons member rest inductionHypothesis =>
      cases travels : member.blank with
      | some blank =>
          simp only [filled, travels, List.map_cons, refill, Option.getD_some,
            inductionHypothesis arguments kept]
      | none =>
          obtain _ | ⟨argument, arguments⟩ := arguments
          · simp only [filled, travels, List.map_nil, List.map_cons, refill]
          · obtain ⟨first, others⟩ := List.forall_mem_cons.mp kept
            simp only [filled, travels, List.map_cons, refill, Option.getD_none, first,
              inductionHypothesis arguments others]

/-- Arguments that a change does not tell from the members they are for fill members that it
    does not tell from the others, once all have their blanks. -/
theorem refill_filled_of_values (change : Value → Value) (front : List Value)
    (members : List Member) (values arguments : List Value)
    (lengths : values.length = members.length)
    (each : List.Forall₂ (fun (field : Field) argument =>
        ∃ value, (front ++ values)[field.slot]? = some value ∧ change argument = change value)
      (fieldsFrom front.length members) arguments) :
    refill (members.map Member.blank) ((filled members arguments).map change)
      = refill (members.map Member.blank) (values.map change) := by
  induction members generalizing front values arguments with
  | nil =>
      cases List.length_eq_zero_iff.mp lengths
      rfl
  | cons member rest inductionHypothesis =>
      obtain _ | ⟨value, others⟩ := values
      · cases lengths
      · have later := inductionHypothesis (front ++ [value]) others
        simp only [List.length_append, List.length_singleton, List.append_assoc,
          List.singleton_append] at later
        cases travels : member.blank with
        | some blank =>
            rw [fieldsFrom, travels] at each
            simp only [filled, travels, List.map_cons, refill, Option.getD_some,
              later arguments (Nat.succ.inj lengths) each]
        | none =>
            rw [fieldsFrom, travels] at each
            cases each with
            | cons first others =>
                obtain ⟨own, present, same⟩ := first
                have here : value = own := by simpa using present
                subst here
                simp only [filled, travels, List.map_cons, refill, Option.getD_none, same,
                  later _ (Nat.succ.inj lengths) others]

/-- What holds of the arguments at the types of their fields still does when they fill
    members, and all members are of their types if the blanks are. -/
theorem filled_holds (holds : Ty → Value → Prop)
    (typeOf : ∀ type value, holds type value → value.type = type) (members : List Member)
    (start : Nat) (arguments : List Value)
    (each : List.Forall₂ (fun (field : Field) argument => holds field.type argument)
      (fieldsFrom start members) arguments)
    (blanks : ∀ member ∈ members, ∀ blank, member.blank = some blank → blank.type = member.type) :
    (filled members arguments).map Value.type = members.map Member.type ∧
      ∀ (index : Nat) (member : Member) (value : Value), members[index]? = some member →
        member.blank = none → (filled members arguments)[index]? = some value →
        holds member.type value := by
  induction members generalizing start arguments with
  | nil =>
      refine ⟨rfl, ?_⟩
      rintro index member value ⟨⟩
  | cons head rest inductionHypothesis =>
      have later : ∀ member ∈ rest, ∀ blank, member.blank = some blank → blank.type = member.type :=
        fun member listed => blanks member (List.mem_cons_of_mem _ listed)
      cases travels : head.blank with
      | some blank =>
          rw [fieldsFrom, travels] at each
          obtain ⟨types, held⟩ := inductionHypothesis (start + 1) arguments each later
          simp only [filled, travels]
          constructor
          · rw [List.map_cons, List.map_cons, types, blanks head List.mem_cons_self blank travels]
          · rintro (_ | index) member value declared whole found
            · cases declared
              rw [travels] at whole
              cases whole
            · exact held index member value declared whole found
      | none =>
          rw [fieldsFrom, travels] at each
          cases each with
          | cons first others =>
              obtain ⟨types, held⟩ := inductionHypothesis (start + 1) _ others later
              simp only [filled, travels]
              constructor
              · rw [List.map_cons, List.map_cons, types, typeOf _ _ first]
              · rintro (_ | index) member value declared whole found
                · cases declared
                  cases found
                  exact first
                · exact held index member value declared whole found

/-- Arguments of the types that travel are assembled to the members that they fill. -/
theorem assemble_run (members : List Member) (start : Nat) (arguments : List Value)
    (types : arguments.map Value.type = (fieldsFrom start members).map Field.type) :
    (assemble members).run arguments = .ok (filled members arguments, []) := by
  induction members generalizing start arguments with
  | nil =>
      cases arguments with
      | nil => rfl
      | cons argument rest => cases types
  | cons member rest inductionHypothesis =>
      cases travels : member.blank with
      | some blank =>
          rw [fieldsFrom, travels] at types
          have later := inductionHypothesis (start + 1) arguments types
          simp only [assemble, filled, travels, pure_bind, StateT.run_bind, later]
          rfl
      | none =>
          rw [fieldsFrom, travels] at types
          cases arguments with
          | nil => cases types
          | cons argument others =>
              obtain ⟨same, otherTypes⟩ := List.cons.inj types
              have later := inductionHypothesis (start + 1) others otherTypes
              have taken : (Arguments.take member.type).run (argument :: others)
                  = .ok (argument, others) := by
                have expected : argument.expect member.type = .ok argument :=
                  (Value.expect_eq_ok _ _ _).mpr ⟨same, rfl⟩
                simp only [Arguments.take, StateT.run, expected]
                rfl
              simp only [assemble, filled, travels, StateT.run_bind, taken]
              change (do let result ← (assemble rest).run others; _) = _
              rw [later]
              rfl

end Member

end Wireform
