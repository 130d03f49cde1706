import Wireform.Proofs.Layers

/-!
# What a place strips

A place takes all boxes and the outermost option off its declared type. It stops at a second option,
and the boxes above that one are gone by then, so what is left is never a box. The place is nullable
if there was an option to take off, and marks itself so unless it was told already.

A value of the declared type goes the same way. It ends at the option if that is absent, and comes
down to a value of the unwrapped type if not. The layers go back on in the opposite order. What has
been taken apart is put together as it was, and what has been put together comes apart into what it
was made of. An absent value can be put back only where there is an option that it can be.

A value is of a type here if its options and boxes are as the type says. Of what is below them
nothing is asked but its own type, so it does not matter how that type is described.
-/

namespace Wireform

/-! ## Types -/

/-- The type is the core below so many options, with boxes anywhere between. -/
inductive Ty.Wraps (core : Ty) : Nat → Ty → Prop
  | here : Wraps core 0 core
  | boxed (options : Nat) (inner : Ty) (wraps : Wraps core options inner) :
      Wraps core options (.boxed inner)
  | option (options : Nat) (inner : Ty) (wraps : Wraps core options inner) :
      Wraps core (options + 1) (.option inner)

namespace Ty

/-- Below an option that is gone only boxes are stripped. -/
theorem wraps_peel (type : Ty) : (type.peel true).2.Wraps 0 type := by
  induction type with
  | boxed inner inductionHypothesis => exact .boxed 0 inner inductionHypothesis
  | _ => exact .here

/-- The declared type is the unwrapped one in boxes, with an option among them or without. -/
theorem wraps_unwrapped (type : Ty) : type.unwrapped.Wraps type.stripsOption.toNat type := by
  induction type with
  | boxed inner inductionHypothesis => exact .boxed _ inner inductionHypothesis
  | option inner => exact .option 0 inner inner.wraps_peel
  | _ => exact .here

/-- Where no option was stripped there is none. -/
theorem unwrapped_ne_option (type : Ty) (kept : type.stripsOption = false) (inner : Ty) :
    type.unwrapped ≠ .option inner := by
  induction type with
  | boxed below inductionHypothesis => exact inductionHypothesis kept
  | option below => cases kept
  | _ => rintro ⟨⟩

end Ty

/-! ## Values -/

namespace Value

/-- The value below the boxes around it. -/
def unboxed : Value → Value
  | .boxed value => unboxed value
  | value => value

/-- The value is of the type as far as its options and boxes go, and carries the type of what is
    below them. -/
def Inhabits : Ty → Value → Prop
  | .option inner, value =>
      value = .absent inner ∨ ∃ held, value = .present held ∧ Inhabits inner held
  | .boxed inner, value => ∃ held, value = .boxed held ∧ Inhabits inner held
  | type, value => value.type = type

namespace Inhabits

variable {type : Ty} {value : Value}

/-- A value of a type carries it. -/
theorem type_eq (inhabits : value.Inhabits type) : value.type = type := by
  induction type generalizing value with
  | option inner inductionHypothesis =>
      obtain rfl | ⟨held, rfl, inside⟩ := inhabits
      · rfl
      · exact congrArg Ty.option (inductionHypothesis inside)
  | boxed inner inductionHypothesis =>
      obtain ⟨held, rfl, inside⟩ := inhabits
      exact congrArg Ty.boxed (inductionHypothesis inside)
  | _ => exact inhabits

/-- To be of a type is something in which layers have no say. -/
theorem layered : Layered fun type value => value.Inhabits type where
  type_eq := type_eq
  absent _ := .inl rfl
  present := by
    intro inner value
    constructor
    · rintro (⟨⟨⟩⟩ | ⟨held, same, inside⟩)
      cases same
      exact inside
    · intro inside
      exact .inr ⟨_, rfl, inside⟩
  boxed := by
    intro inner value
    constructor
    · rintro ⟨held, same, inside⟩
      cases same
      exact inside
    · intro inside
      exact ⟨_, rfl, inside⟩

/-- A value of a type goes through the layers that are stripped off the type. -/
theorem exists_project (stripped : Bool) (inhabits : value.Inhabits type) :
    ∃ inner, Context.projectThrough (type.peel stripped).1 value = .ok inner := by
  induction type generalizing stripped value with
  | boxed below inductionHypothesis =>
      obtain ⟨held, rfl, inside⟩ := inhabits
      obtain ⟨inner, projected⟩ := inductionHypothesis stripped inside
      exact ⟨inner, (Context.projectThrough_pointer below _ _ inner).mpr
        ⟨held, rfl, inside.type_eq, projected⟩⟩
  | option below inductionHypothesis =>
      cases stripped with
      | true => exact ⟨some value, rfl⟩
      | false =>
          obtain rfl | ⟨held, rfl, inside⟩ := inhabits
          · exact ⟨none, (Context.projectThrough_nullable below _ _ none).mpr (.inl ⟨rfl, rfl⟩)⟩
          · obtain ⟨inner, projected⟩ := inductionHypothesis true inside
            exact ⟨inner, (Context.projectThrough_nullable below _ _ inner).mpr
              (.inr ⟨held, rfl, inside.type_eq, projected⟩)⟩
  | _ =>
      cases stripped
      all_goals exact ⟨some value, rfl⟩

/-- The value is found to be absent exactly if the first option on the way is. That one only has
    boxes above it. -/
theorem project_eq_none_iff (inhabits : value.Inhabits type) (inner : Option Value)
    (projected : Context.projectThrough type.layers value = .ok inner) :
    inner = none ↔ ∃ below, value.unboxed = .absent below := by
  induction type generalizing value with
  | boxed below inductionHypothesis =>
      obtain ⟨held, rfl, inside⟩ := inhabits
      obtain ⟨next, same, _, later⟩ := (Context.projectThrough_pointer below _ _ inner).mp projected
      cases same
      have found := inductionHypothesis inside later
      exact found
  | option below =>
      obtain ⟨rfl, rfl⟩ | ⟨held, rfl, _, later⟩ :=
        (Context.projectThrough_nullable below _ value inner).mp projected
      · exact ⟨fun _ => ⟨below, rfl⟩, fun _ => rfl⟩
      · constructor
        · -- Only boxes are below, and they cannot lose what they hold.
          rintro rfl
          have back := Context.rewrap_project below true held none later
          cases (Context.rewrapThrough_none below).symm.trans back
        · rintro ⟨other, impossible⟩
          cases impossible
  | _ =>
      cases projected
      constructor
      · intro impossible
        cases impossible
      · rintro ⟨below, absent⟩
        cases value with
        | absent => cases inhabits
        | boxed => cases inhabits
        | _ => cases absent

end Inhabits

end Value

/-! ## Contexts -/

namespace Context

/-- A place adds at most one marker to those that it is given, and only if it has stripped an option
    and has not been told that it is nullable. -/
theorem markers_make (declared : Ty) (markers : List Marker) :
    (.nullable ∈ markers → (make declared markers).markers = markers) ∧
      (.nullable ∉ markers → (make declared markers).markers
        = markers ++ List.replicate declared.stripsOption.toNat .nullable) := by
  constructor
  · intro given
    simp [make, given]
  · intro missing
    cases strips : declared.stripsOption with
    | false => simp [make, strips]
    | true => simp [make, strips, missing]

section

variable (context : Context)

/-- A value of the declared type comes apart into a value of the unwrapped type, unless its first
    option is absent, and is put together as it was. -/
theorem project_inhabited (value : Value) (inhabits : value.Inhabits context.declared) :
    ∃ inner, context.project value = .ok inner ∧
      (inner = none ↔ ∃ below, value.unboxed = .absent below) ∧
      (∀ core, inner = some core → core.Inhabits context.unwrapped) ∧
      context.rewrap inner = .ok value := by
  obtain ⟨inner, projected⟩ := inhabits.exists_project false
  refine ⟨inner, projected, inhabits.project_eq_none_iff inner projected, ?_, ?_⟩
  · rintro core rfl
    exact Value.Inhabits.layered.project context.declared false value core inhabits projected
  · apply rewrap_of_rewrapThrough
    exact rewrap_project context.declared false value inner projected

/-- A value of the unwrapped type makes a value of the declared type, in which it is found again. -/
theorem rewrap_inhabited (core : Value) (inhabits : core.Inhabits context.unwrapped) :
    ∃ whole, context.rewrap (some core) = .ok whole ∧ whole.Inhabits context.declared ∧
      context.project whole = .ok (some core) := by
  obtain ⟨whole, put, ofType, projected⟩ :=
    Value.Inhabits.layered.rewrap_some context.declared false core inhabits
  exact ⟨whole, context.rewrap_of_rewrapThrough _ whole put, ofType, projected⟩

/-- Where an option was stripped, an absent value makes a value of the declared type, in which it is
    found absent again. -/
theorem rewrap_none_of_strips (strips : context.declared.stripsOption = true) :
    ∃ whole, context.rewrap none = .ok whole ∧ whole.Inhabits context.declared ∧
      context.project whole = .ok none := by
  obtain ⟨_, whole, put, ofType, projected⟩ | ⟨kept, _⟩ :=
    Value.Inhabits.layered.rewrap_none context.declared
  · exact ⟨whole, context.rewrap_of_rewrapThrough none whole put, ofType, projected⟩
  · cases strips.symm.trans kept

/-- Where no option was stripped, an absent value is refused. -/
theorem rewrap_none_of_kept (kept : context.declared.stripsOption = false) :
    context.rewrap none = .error (.unexpectedNull context.declared.name) := by
  obtain ⟨strips, _⟩ | ⟨_, lost⟩ := Value.Inhabits.layered.rewrap_none context.declared
  · cases kept.symm.trans strips
  · exact context.rewrap_of_lost none lost

end

/-- A place strips the boxes and the outermost option off its declared type, and no more: what is
    left is never a box, and only an option if one was stripped. It is nullable if an option was
    stripped or if it is marked so, and marks itself once at most. A value of the declared type goes
    through the layers. Unless its first option is absent it comes to a value of the unwrapped type,
    and either way it is put together as it was. A value of the unwrapped type makes a value of the
    declared type, in which it is found again. So does an absent one if an option was stripped, and
    otherwise it is refused. -/
theorem stripping_undone (declared : Ty) (markers : List Marker) :
    let context := make declared markers
    context.unwrapped.Wraps declared.stripsOption.toNat declared ∧
      (∀ inner, context.unwrapped ≠ .boxed inner) ∧
      (declared.stripsOption = false → ∀ inner, context.unwrapped ≠ .option inner) ∧
      (context.isNullable = true ↔ declared.stripsOption = true ∨ .nullable ∈ markers) ∧
      (.nullable ∈ markers → context.markers = markers) ∧
      (.nullable ∉ markers →
        context.markers = markers ++ List.replicate declared.stripsOption.toNat .nullable) ∧
      (∀ value : Value, value.Inhabits declared → ∃ inner, context.project value = .ok inner ∧
        (inner = none ↔ ∃ below, value.unboxed = .absent below) ∧
        (∀ core, inner = some core → core.Inhabits context.unwrapped) ∧
        context.rewrap inner = .ok value) ∧
      (∀ core : Value, core.Inhabits context.unwrapped → ∃ whole,
        context.rewrap (some core) = .ok whole ∧ whole.Inhabits declared ∧
        context.project whole = .ok (some core)) ∧
      (declared.stripsOption = true → ∃ whole, context.rewrap none = .ok whole ∧
        whole.Inhabits declared ∧ context.project whole = .ok none) ∧
      (declared.stripsOption = false →
        context.rewrap none = .error (.unexpectedNull declared.name)) := by
  intro context
  obtain ⟨told, untold⟩ := markers_make declared markers
  have nullable :
      context.isNullable = true ↔ declared.stripsOption = true ∨ .nullable ∈ markers := by
    rw [isNullable_make, Bool.or_eq_true, List.contains_iff_mem]
  exact ⟨declared.wraps_unwrapped, declared.unwrapped_ne_boxed, declared.unwrapped_ne_option,
    nullable, told, untold, context.project_inhabited, context.rewrap_inhabited,
    context.rewrap_none_of_strips, context.rewrap_none_of_kept⟩

/-- A box of an option of a box of an option keeps the inner option. A value in which only that one
    is absent is not taken for an absent one and comes back, the inner option finds its way into such
    a box and out of it, and so does an absent value. A box alone has no place for one. What is
    marked nullable already is not marked again. -/
theorem stripping_undone_crate :
    let declared := Ty.boxed (.option (.boxed (.option .i8)))
    let value := Value.boxed (.present (.boxed (.absent .i8)))
    let context := make declared [.tag "sealed"]
    value.Inhabits declared ∧ declared.stripsOption = true ∧
      (Ty.boxed .i32).stripsOption = false ∧ .nullable ∉ [Marker.tag "sealed"] ∧
      context.markers = [.tag "sealed", .nullable] ∧
      (∃ core, context.project value = .ok (some core) ∧ core.Inhabits (.option .i8) ∧
        context.rewrap (some core) = .ok value) ∧
      (∃ whole, context.rewrap (some (.absent .i8)) = .ok whole ∧
        context.project whole = .ok (some (.absent .i8))) ∧
      (∃ whole, context.rewrap none = .ok whole ∧ context.project whole = .ok none) ∧
      (make (.boxed .i32) []).rewrap none = .error (.unexpectedNull "alloc::boxed::Box<i32>") ∧
      .nullable ∈ [Marker.nullable] ∧ (make declared [.nullable]).markers = [.nullable] := by
  intro declared value context
  have inhabits : value.Inhabits declared := ⟨_, rfl, .inr ⟨_, rfl, _, rfl, .inl rfl⟩⟩
  have untold : .nullable ∉ [Marker.tag "sealed"] := by decide
  have told : .nullable ∈ [Marker.nullable] := List.mem_cons_self
  obtain ⟨-, -, -, -, -, marked, apart, together, empty, -⟩ :=
    stripping_undone declared [.tag "sealed"]
  obtain ⟨-, -, -, -, -, -, -, -, -, refused⟩ := stripping_undone (.boxed .i32) []
  obtain ⟨-, -, -, -, same, -⟩ := stripping_undone declared [.nullable]
  refine ⟨inhabits, rfl, rfl, untold, marked untold, ?_, ?_, ?_, refused rfl, told, same told⟩
  · obtain ⟨inner, projected, absent, below, back⟩ := apart value inhabits
    cases inner with
    | none =>
        obtain ⟨type, impossible⟩ := absent.mp rfl
        cases impossible
    | some core => exact ⟨core, projected, below core rfl, back⟩
  · obtain ⟨whole, put, -, projected⟩ := together (.absent .i8) (.inl rfl)
    exact ⟨whole, put, projected⟩
  · obtain ⟨whole, put, -, projected⟩ := empty rfl
    exact ⟨whole, put, projected⟩

end Context

end Wireform
