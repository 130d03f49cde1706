import Wireform.Proofs.Typing

/-!
# Layers of values

A context takes a value through the layers that it strips off the declared type, and puts
the layers back around what was found below them. Here it is said layer by layer what
that comes to: the two undo each other, and both keep values typed.

There are several ways to be of a type, and typed values are one of them. Layers get along with
each way in which an option or a box is of its type if what it holds is, so what they keep is
said once for all of these.
-/

namespace Wireform

variable {schema : Schema}

namespace Layer

/-- A box is put around a value of its type. -/
theorem rewrap_pointer (below : Ty) (held : Value) (same : held.type = below) :
    (Layer.pointer below).rewrap (some held) = .ok (some (.boxed held)) := by
  simp only [rewrap, Value.rebox, Value.expect, if_pos same]
  rfl

/-- An option is put around a value of its type. -/
theorem rewrap_nullable (below : Ty) (held : Value) (same : held.type = below) :
    (Layer.nullable below).rewrap (some held) = .ok (some (.present held)) := by
  simp only [rewrap, Value.wrap, Value.expect, if_pos same]
  rfl

/-- A box is only put around a value of its type, and nothing stays nothing. -/
theorem rewrap_pointer_eq_ok (below : Ty) (inner whole : Option Value) :
    (Layer.pointer below).rewrap inner = .ok whole ↔ (inner = none ∧ whole = none) ∨
      ∃ held, inner = some held ∧ held.type = below ∧ whole = some (.boxed held) := by
  constructor
  · intro rewrapped
    cases inner with
    | none => cases rewrapped; exact .inl ⟨rfl, rfl⟩
    | some held =>
        by_cases same : held.type = below
        · rw [rewrap_pointer below held same] at rewrapped
          cases rewrapped
          exact .inr ⟨held, rfl, same, rfl⟩
        · simp only [rewrap, Value.rebox, Value.expect, if_neg same] at rewrapped
          cases rewrapped
  · rintro (⟨rfl, rfl⟩ | ⟨held, rfl, same, rfl⟩)
    · rfl
    · exact rewrap_pointer below held same

/-- An option is only put around a value of its type, and nothing makes an absent one. -/
theorem rewrap_nullable_eq_ok (below : Ty) (inner whole : Option Value) :
    (Layer.nullable below).rewrap inner = .ok whole ↔
      (inner = none ∧ whole = some (.absent below)) ∨
      ∃ held, inner = some held ∧ held.type = below ∧ whole = some (.present held) := by
  constructor
  · intro rewrapped
    cases inner with
    | none => cases rewrapped; exact .inl ⟨rfl, rfl⟩
    | some held =>
        by_cases same : held.type = below
        · rw [rewrap_nullable below held same] at rewrapped
          cases rewrapped
          exact .inr ⟨held, rfl, same, rfl⟩
        · simp only [rewrap, Value.wrap, Value.expect, if_neg same] at rewrapped
          cases rewrapped
  · rintro (⟨rfl, rfl⟩ | ⟨held, rfl, same, rfl⟩)
    · rfl
    · exact rewrap_nullable below held same

end Layer

namespace Context

/-- What layers have been put around is something at last. -/
theorem rewrapThrough_of_rewrap (context : Context) (inner : Option Value) (whole : Value)
    (rewrapped : context.rewrap inner = .ok whole) :
    rewrapThrough context.declared.layers inner = .ok (some whole) := by
  unfold rewrap at rewrapped
  cases put : rewrapThrough context.declared.layers inner with
  | error error => rw [put] at rewrapped; cases rewrapped
  | ok found =>
      rw [put] at rewrapped
      cases found with
      | none => cases rewrapped
      | some held => cases rewrapped; rfl

/-- Something around which all layers have been put is the whole. -/
theorem rewrap_of_rewrapThrough (context : Context) (inner : Option Value) (whole : Value)
    (put : rewrapThrough context.declared.layers inner = .ok (some whole)) :
    context.rewrap inner = .ok whole := by
  rw [rewrap, put]
  rfl

/-- If there is still nothing when all layers have been put around it, that is refused. -/
theorem rewrap_of_lost (context : Context) (inner : Option Value)
    (lost : rewrapThrough context.declared.layers inner = .ok none) :
    context.rewrap inner = .error (.unexpectedNull context.declared.name) := by
  rw [rewrap, lost]
  rfl

/-- A value goes through a box if it is one. -/
theorem projectThrough_pointer (below : Ty) (layers : List Layer) (value : Value)
    (inner : Option Value) :
    projectThrough (.pointer below :: layers) value = .ok inner
      ↔ ∃ held, value = .boxed held ∧ held.type = below ∧ projectThrough layers held = .ok inner := by
  simp only [projectThrough, Layer.project]
  cases opened : value.deref below with
  | error error =>
      constructor
      · intro impossible
        cases impossible
      · rintro ⟨held, rfl, same, _⟩
        rw [(Value.deref_eq_ok below _ held).mpr ⟨rfl, same⟩] at opened
        cases opened
  | ok held =>
      obtain ⟨rfl, same⟩ := (Value.deref_eq_ok below value held).mp opened
      constructor
      · intro projected
        exact ⟨held, rfl, same, projected⟩
      · rintro ⟨other, equal, _, projected⟩
        cases equal
        exact projected

/-- A value goes through an option if it is one, and ends there if it is absent. -/
theorem projectThrough_nullable (below : Ty) (layers : List Layer) (value : Value)
    (inner : Option Value) :
    projectThrough (.nullable below :: layers) value = .ok inner
      ↔ (value = .absent below ∧ inner = none) ∨ ∃ held, value = .present held ∧ held.type = below ∧
          projectThrough layers held = .ok inner := by
  simp only [projectThrough, Layer.project]
  cases opened : value.project below with
  | error error =>
      constructor
      · intro impossible
        cases impossible
      · rintro (⟨rfl, _⟩ | ⟨held, rfl, same, _⟩)
        · rw [(Value.project_eq_none below _).mpr rfl] at opened
          cases opened
        · rw [(Value.project_eq_some below _ held).mpr ⟨rfl, same⟩] at opened
          cases opened
  | ok held =>
      cases held with
      | none =>
          have absent := (Value.project_eq_none below value).mp opened
          subst absent
          constructor
          · intro projected
            cases projected
            exact .inl ⟨rfl, rfl⟩
          · rintro (⟨_, rfl⟩ | ⟨held, impossible, _⟩)
            · rfl
            · cases impossible
      | some held =>
          obtain ⟨rfl, same⟩ := (Value.project_eq_some below value held).mp opened
          constructor
          · intro projected
            exact .inr ⟨held, rfl, same, projected⟩
          · rintro (⟨impossible, _⟩ | ⟨other, equal, _, projected⟩)
            · cases impossible
            · cases equal
              exact projected

/-- Where boxes make no difference, a value and its type are seen as what is left of them when only
    boxes are stripped. -/
theorem view_pointers {α : Type} (view : Value → Ty → α)
    (transparent : ∀ value type, view (.boxed value) (.boxed type) = view value type) (type : Ty)
    (value : Value) (inner : Option Value)
    (projected : projectThrough (type.peel true).1 value = .ok inner) :
    ∃ core, inner = some core ∧ view value type = view core (type.peel true).2 := by
  induction type generalizing value with
  | boxed below inductionHypothesis =>
      obtain ⟨next, rfl, _, later⟩ := (projectThrough_pointer below _ value inner).mp projected
      obtain ⟨core, found, same⟩ := inductionHypothesis next later
      exact ⟨core, found, (transparent next below).trans same⟩
  | _ =>
      cases projected
      exact ⟨value, rfl, rfl⟩

/-- Nothing below boxes is still nothing. -/
theorem rewrapThrough_none (type : Ty) : rewrapThrough (type.peel true).1 none = .ok none := by
  induction type with
  | boxed below inductionHypothesis =>
      simp only [Ty.peel, rewrapThrough, inductionHypothesis]
      rfl
  | _ => rfl

/-- Putting the stripped layers back undoes taking a value through them. -/
theorem rewrap_project (type : Ty) (stripped : Bool) (value : Value) (inner : Option Value)
    (projected : projectThrough (type.peel stripped).1 value = .ok inner) :
    rewrapThrough (type.peel stripped).1 inner = .ok (some value) := by
  induction type generalizing stripped value with
  | boxed below inductionHypothesis =>
      obtain ⟨next, rfl, same, later⟩ := (projectThrough_pointer below _ value inner).mp projected
      have put := Layer.rewrap_pointer below next same
      simp only [Ty.peel, rewrapThrough, inductionHypothesis stripped next later]
      exact put
  | option below inductionHypothesis =>
      cases stripped with
      | true =>
          cases projected
          rfl
      | false =>
          obtain ⟨rfl, rfl⟩ | ⟨next, rfl, same, later⟩ :=
            (projectThrough_nullable below _ value inner).mp projected
          · simp only [Ty.peel, rewrapThrough, rewrapThrough_none]
            rfl
          · have put := Layer.rewrap_nullable below next same
            simp only [Ty.peel, rewrapThrough, inductionHypothesis true next later]
            exact put
  | _ =>
      cases stripped
      all_goals
        cases projected
        rfl

end Context

/-! ## Ways to be of a type -/

/-- A way to be of a type in which layers have no say. What is of a type carries it, there is always
    an absent option, and an option or a box is of its type exactly if what it holds is. -/
structure Layered (holds : Ty → Value → Prop) : Prop where
  type_eq : ∀ {type : Ty} {value : Value}, holds type value → value.type = type
  absent : ∀ inner : Ty, holds (.option inner) (.absent inner)
  present : ∀ {inner : Ty} {value : Value},
    holds (.option inner) (.present value) ↔ holds inner value
  boxed : ∀ {inner : Ty} {value : Value}, holds (.boxed inner) (.boxed value) ↔ holds inner value

namespace Layered

open Context

variable {holds : Ty → Value → Prop}

/-- What is below the stripped layers of a value of a type is of the type below them. -/
theorem project (layered : Layered holds) (type : Ty) (stripped : Bool) (value core : Value)
    (own : holds type value)
    (projected : projectThrough (type.peel stripped).1 value = .ok (some core)) :
    holds (type.peel stripped).2 core := by
  induction type generalizing stripped value with
  | boxed below inductionHypothesis =>
      obtain ⟨next, rfl, _, later⟩ :=
        (projectThrough_pointer below _ value (some core)).mp projected
      exact inductionHypothesis stripped next (layered.boxed.mp own) later
  | option below inductionHypothesis =>
      cases stripped with
      | true =>
          cases projected
          exact own
      | false =>
          obtain ⟨_, impossible⟩ | ⟨next, rfl, _, later⟩ :=
            (projectThrough_nullable below _ value (some core)).mp projected
          · cases impossible
          · exact inductionHypothesis true next (layered.present.mp own) later
  | _ =>
      cases stripped
      all_goals
        cases projected
        exact own

/-- The layers of a type go around what is of the type below them. That makes a value of the type,
    and they come off it again. -/
theorem rewrap_some (layered : Layered holds) (type : Ty) (stripped : Bool) (core : Value)
    (own : holds (type.peel stripped).2 core) :
    ∃ whole, rewrapThrough (type.peel stripped).1 (some core) = .ok (some whole) ∧
      holds type whole ∧ projectThrough (type.peel stripped).1 whole = .ok (some core) := by
  induction type generalizing stripped with
  | boxed below inductionHypothesis =>
      obtain ⟨held, rewrapped, ownHeld, projected⟩ := inductionHypothesis stripped own
      have same := layered.type_eq ownHeld
      have put := Layer.rewrap_pointer below held same
      refine ⟨.boxed held, ?_, layered.boxed.mpr ownHeld, ?_⟩
      · simp only [Ty.peel, rewrapThrough, rewrapped]
        exact put
      · exact (projectThrough_pointer below _ _ _).mpr ⟨held, rfl, same, projected⟩
  | option below inductionHypothesis =>
      cases stripped with
      | true => exact ⟨core, rfl, own, rfl⟩
      | false =>
          obtain ⟨held, rewrapped, ownHeld, projected⟩ := inductionHypothesis true own
          have same := layered.type_eq ownHeld
          have put := Layer.rewrap_nullable below held same
          refine ⟨.present held, ?_, layered.present.mpr ownHeld, ?_⟩
          · simp only [Ty.peel, rewrapThrough, rewrapped]
            exact put
          · exact (projectThrough_nullable below _ _ _).mpr (.inr ⟨held, rfl, same, projected⟩)
  | _ =>
      cases stripped
      all_goals exact ⟨core, rfl, own, rfl⟩

/-- The layers of a type around nothing make a value of the type in which the option is absent, if
    there is an option among them, and otherwise nothing. -/
theorem rewrap_none (layered : Layered holds) (type : Ty) :
    (type.stripsOption = true ∧ ∃ whole, rewrapThrough type.layers none = .ok (some whole) ∧
        holds type whole ∧ projectThrough type.layers whole = .ok none) ∨
      (type.stripsOption = false ∧ rewrapThrough type.layers none = .ok none) := by
  induction type with
  | boxed below inductionHypothesis =>
      have outermost : rewrapThrough (Ty.boxed below).layers none
          = (do (Layer.pointer below).rewrap (← rewrapThrough below.layers none)) := rfl
      obtain ⟨strips, held, rewrapped, ownHeld, projected⟩ | ⟨kept, rewrapped⟩ :=
        inductionHypothesis
      · have same := layered.type_eq ownHeld
        refine .inl ⟨strips, .boxed held, ?_, layered.boxed.mpr ownHeld, ?_⟩
        · rw [outermost, rewrapped]
          exact Layer.rewrap_pointer below held same
        · exact (projectThrough_pointer below _ _ _).mpr ⟨held, rfl, same, projected⟩
      · refine .inr ⟨kept, ?_⟩
        rw [outermost, rewrapped]
        rfl
  | option below =>
      have outermost : rewrapThrough (Ty.option below).layers none
          = (do (Layer.nullable below).rewrap (← rewrapThrough (below.peel true).1 none)) := rfl
      refine .inl ⟨rfl, .absent below, ?_, layered.absent below, ?_⟩
      · rw [outermost, rewrapThrough_none]
        rfl
      · exact (projectThrough_nullable below _ _ _).mpr (.inl ⟨rfl, rfl⟩)
  | _ => exact .inr ⟨rfl, rfl⟩

/-- What layers have been put around comes to light when they are taken off, and the whole is of the
    declared type. -/
theorem project_rewrap (layered : Layered holds) (type : Ty) (inner : Option Value) (whole : Value)
    (own : ∀ core, inner = some core → holds type.unwrapped core)
    (rewrapped : rewrapThrough type.layers inner = .ok (some whole)) :
    projectThrough type.layers whole = .ok inner ∧ holds type whole := by
  cases inner with
  | none =>
      obtain ⟨_, other, put, ownWhole, projected⟩ | ⟨_, lost⟩ := layered.rewrap_none type
      · cases put.symm.trans rewrapped
        exact ⟨projected, ownWhole⟩
      · cases lost.symm.trans rewrapped
  | some core =>
      obtain ⟨other, put, ownWhole, projected⟩ := layered.rewrap_some type false core (own core rfl)
      cases put.symm.trans rewrapped
      exact ⟨projected, ownWhole⟩

end Layered

/-- To carry a type is such a way to be of it. -/
theorem Value.layered_type : Layered fun type value => value.type = type where
  type_eq same := same
  absent _ := rfl
  present := by simp [type]
  boxed := by simp [type]

/-- To be typed is such a way. -/
theorem Value.Typed.layered (schema : Schema) :
    Layered fun type value => value.Typed schema type where
  type_eq := Typed.type_eq
  absent := .absent
  present := by
    intro inner value
    constructor
    · intro typed
      cases typed with
      | present _ _ held => exact held
    · exact .present _ _
  boxed := by
    intro inner value
    constructor
    · intro typed
      cases typed with
      | boxed _ _ held => exact held
    · exact .boxed _ _

/-- What is below the stripped layers of a typed value is typed. -/
theorem Value.Typed.project (type : Ty) (stripped : Bool) (value core : Value)
    (typed : value.Typed schema type)
    (projected : Context.projectThrough (type.peel stripped).1 value = .ok (some core)) :
    core.Typed schema (type.peel stripped).2 :=
  (layered schema).project type stripped value core typed projected

end Wireform
