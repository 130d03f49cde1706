import Wireform.Proofs.Offences

/-!
# What a failed encoding leaves behind

A writer on which an encoding failed holds what it held before, and behind it the wire form of
all that the walk met before the offence that ended it: counts and flags of what encloses the
offence, and everything that was written to its end. It is a fragment of the wire form of the
value, and the offence itself has no part in it.

A character that takes two units can be replaced by one that takes one. This mends the course of
the value in one place and leaves it as it is everywhere else, so that what the failed encoding
appended comes first in what the next one appends. Elements of sets and keys of maps are left
out: a collection would move or drop one that has become another.
-/

namespace Wireform

variable {schema : Schema}

/-- The other stage is the stage itself, or a stretch of the wire in place of a character that
    has none. -/
def Stage.Mended (stage other : Stage) : Prop :=
  stage = other ∨
    ∃ code piece, stage = .offence (.character code) ∧ other = .piece piece

namespace Course

/-- The other course is the course with characters mended. -/
abbrev Mended (course other : Course) : Prop := List.Forall₂ Stage.Mended course other

/-- A course is itself with nothing mended. -/
theorem Mended.refl (course : Course) : Mended course course :=
  List.forall₂_same.mpr fun _ _ => .inl rfl

/-- Mended courses one after another are mended. -/
theorem Mended.append {first second other another : Course} (mendedFirst : Mended first other)
    (mendedSecond : Mended second another) : Mended (first ++ second) (other ++ another) :=
  List.rel_append mendedFirst mendedSecond

/-- The courses of many items are mended if that of each is. -/
theorem Mended.flatMap {α : Type} {course other : α → Course} (items : List α)
    (each : ∀ item ∈ items, Mended (course item) (other item)) :
    Mended (items.flatMap course) (items.flatMap other) := by
  induction items with
  | nil => exact .nil
  | cons item rest inductionHypothesis =>
      exact (each item List.mem_cons_self).append
        (inductionHypothesis fun later listed => each later (List.mem_cons_of_mem _ listed))

/-- The courses of many items are mended if that of the one that is replaced is. -/
theorem Mended.flatMap_replace {α : Type} (course : α → Course) (front rest : List α)
    (value other : α) (mended : Mended (course value) (course other)) :
    Mended ((front ++ value :: rest).flatMap course) ((front ++ other :: rest).flatMap course) := by
  simp only [List.flatMap_append, List.flatMap_cons]
  exact (Mended.refl _).append (mended.append (.refl _))

/-- What was met before the first offence is met first when a course is mended. -/
theorem Mended.front_isPrefix {course other : Course} (mended : Mended course other) :
    course.front <+: other.front := by
  induction mended with
  | nil => exact List.prefix_rfl
  | @cons stage another rest others replaced _ inductionHypothesis =>
      obtain rfl | ⟨code, piece, rfl, rfl⟩ := replaced
      · cases stage with
        | piece piece => exact (List.prefix_cons_inj piece).mpr inductionHypothesis
        | offence offence => exact List.prefix_rfl
      · exact List.nil_prefix

end Course

namespace Value

/-- The other value is the value with one character replaced, of two units by one of one. The
    character is in no element of a set and in no key of a map. -/
inductive Mended : Value → Value → Prop
  | character (wide narrow : Char) (beyond : 0x10000 ≤ wide.toNat)
      (within : narrow.toNat < 0x10000) : Mended (.scalar (.char wide)) (.scalar (.char narrow))
  | present (value other : Value) (held : Mended value other) :
      Mended (.present value) (.present other)
  | boxed (value other : Value) (held : Mended value other) :
      Mended (.boxed value) (.boxed other)
  | item (type : Ty) (list : ∀ kind element, type = .sequence kind element → kind.isSet = false)
      (front rest : List Value) (value other : Value) (held : Mended value other) :
      Mended (.sequence type (front ++ value :: rest)) (.sequence type (front ++ other :: rest))
  | entry (type : Ty) (front rest : List (Value × Value)) (key value other : Value)
      (held : Mended value other) :
      Mended (.map type (front ++ (key, value) :: rest)) (.map type (front ++ (key, other) :: rest))
  | member (type : Ty) (front rest : List Value) (value other : Value)
      (held : Mended value other) :
      Mended (.record type (front ++ value :: rest)) (.record type (front ++ other :: rest))

end Value

section Replacing

variable {α : Type} {value other : α}

/-- What holds of each item and of what one of them is replaced with holds of each after. -/
theorem forall_mem_replace {holds : α → Prop} {front rest : List α}
    (each : ∀ item ∈ front ++ value :: rest, holds item) (replaced : holds value → holds other) :
    ∀ item ∈ front ++ other :: rest, holds item := by
  intro item listed
  obtain before | later := List.mem_append.mp listed
  · exact each item (List.mem_append_left _ before)
  · obtain rfl | behind := List.mem_cons.mp later
    · exact replaced (each value (List.mem_append_right _ List.mem_cons_self))
    · exact each item (List.mem_append_right _ (List.mem_cons_of_mem _ behind))

/-- At every position of a list in which one item is replaced there is what was there, or there
    was the item and now is the other one. -/
theorem getElem?_replace (value other : α) (front rest : List α) (index : Nat) :
    (front ++ other :: rest)[index]? = (front ++ value :: rest)[index]? ∨
      (front ++ value :: rest)[index]? = some value ∧
        (front ++ other :: rest)[index]? = some other := by
  induction front generalizing index with
  | nil => cases index with
    | zero => exact .inr ⟨rfl, rfl⟩
    | succ index => exact .inl rfl
  | cons first front inductionHypothesis => cases index with
    | zero => exact .inl rfl
    | succ index => exact inductionHypothesis index

end Replacing

namespace Value.Mended

variable {type : Ty} {value other : Value}

/-- Mending changes no type. -/
theorem type_eq (mended : Value.Mended value other) : other.type = value.type := by
  induction mended with
  | present _ _ _ inductionHypothesis => exact congrArg Ty.option inductionHypothesis
  | boxed _ _ _ inductionHypothesis => exact congrArg Ty.boxed inductionHypothesis
  | _ => rfl

/-- A proper value is proper when it is mended. -/
theorem proper (mended : Value.Mended value other) (proper : value.Proper schema type) :
    other.Proper schema type := by
  induction mended generalizing type with
  | character wide narrow =>
      cases proper with
      | scalar => exact .scalar (.char narrow)
      | leaf _ described named _ own => exact .leaf type described named _ own
  | present value other held inductionHypothesis =>
      cases proper with
      | present inner _ inside => exact .present inner other (inductionHypothesis inside)
      | leaf _ described named _ own =>
          exact .leaf type described named _ ((Value.Mended.present _ _ held).type_eq.trans own)
  | boxed value other held inductionHypothesis =>
      cases proper with
      | boxed inner _ inside => exact .boxed inner other (inductionHypothesis inside)
      | leaf _ described named _ own =>
          exact .leaf type described named _ ((Value.Mended.boxed _ _ held).type_eq.trans own)
  | item own list front rest value other held inductionHypothesis =>
      cases proper with
      | sequence _ declared described part made _ each =>
          exact .sequence own declared described part made _
            (forall_mem_replace each inductionHypothesis)
      | leaf _ described named _ own => exact .leaf type described named _ own
  | entry own front rest key value other held inductionHypothesis =>
      cases proper with
      | map kind keys parts _ eachKey eachPart =>
          exact .map kind keys parts _ (forall_mem_replace eachKey id)
            (forall_mem_replace eachPart inductionHypothesis)
      | leaf _ described named _ own => exact .leaf type described named _ own
  | member own front rest value other held inductionHypothesis =>
      cases proper with
      | record _ description described _ slots fields =>
          refine .record own description described _ (fun field listed => ?_)
            fun field listed member found => ?_
          · have inside := slots field listed
            simpa using inside
          · obtain same | ⟨was, is⟩ := getElem?_replace value other front rest field.slot
            · exact fields field listed member (same ▸ found)
            · rw [is] at found
              cases found
              exact inductionHypothesis (fields field listed value was)
      | leaf _ described named _ own => exact .leaf type described named _ own

/-- No octet is mended, and what is mended is none. -/
theorem octet?_eq (mended : Value.Mended value other) :
    Codec.octet? other = Codec.octet? value := by
  cases mended <;> rfl

/-- At a place nothing else is met than the place and the value. -/
theorem courseAt (active : List Ty) (declared : Ty) (markers : List Marker)
    (mended : ∀ active type element, Course.Mended (value.course schema active type element)
      (other.course schema active type element)) :
    Course.Mended (value.courseAt schema active declared markers)
      (other.courseAt schema active declared markers) :=
  Course.Mended.append (.refl _) (Course.Mended.append (.refl _) (mended active declared _))

/-- The course of a mended value is mended. -/
theorem course (mended : Value.Mended value other) :
    ∀ active type element, Course.Mended (value.course schema active type element)
      (other.course schema active type element) := by
  induction mended with
  | character wide narrow beyond within =>
      intro active type element
      simp only [Value.course]
      split
      · simp only [Scalar.course, Course.guarded, if_neg (Nat.not_lt.mpr beyond), if_pos within]
        exact .cons (.inr ⟨_, _, rfl, rfl⟩) .nil
      · exact .refl _
  | present value other held inductionHypothesis =>
      intro active type element
      simp only [Value.course]
      split
      · refine Course.Mended.append (.refl _) ?_
        split
        · exact Course.Mended.append (.refl _) (inductionHypothesis _ _ _)
        · exact inductionHypothesis _ _ _
      · exact .refl _
  | boxed value other held inductionHypothesis =>
      intro active type element
      simp only [Value.course]
      split
      · exact inductionHypothesis _ _ _
      · exact .refl _
  | item own list front rest value other held inductionHypothesis =>
      intro active type element
      have octets : Codec.octets? (front ++ other :: rest)
          = Codec.octets? (front ++ value :: rest) := by
        simp only [Codec.octets?, List.mapM_append, List.mapM_cons, held.octet?_eq]
      have count : (front ++ other :: rest).length = (front ++ value :: rest).length := by simp
      simp only [Value.course, Value.itemCourses_eq_map, List.flatMap_map, octets, count]
      split
      · split
        · exact .refl _
        · split
          · refine Course.Mended.append (.refl _)
              (Course.Mended.flatMap_replace _ front rest value other ?_)
            exact Course.Mended.append (.refl _) (inductionHypothesis _ _ _)
          · exact .refl _
      · exact .refl _
  | entry own front rest key value other held inductionHypothesis =>
      intro active type element
      have count :
          (front ++ (key, other) :: rest).length = (front ++ (key, value) :: rest).length := by
        simp
      simp only [Value.course, Value.entryCourses_eq_map, List.flatMap_map, count]
      split
      · refine Course.Mended.append (.refl _)
          (Course.Mended.flatMap_replace _ front rest (key, value) (key, other) ?_)
        exact Course.Mended.append (.refl _)
          (Course.Mended.append (.refl _) (inductionHypothesis _ _ _))
      · exact .refl _
  | member own front rest value other held inductionHypothesis =>
      intro active type element
      cases described : schema.kind type with
      | aggregate description =>
          rw [Value.course_record schema active type own description described,
            Value.course_record schema active type own description described]
          split
          · exact .refl _
          · refine Course.Mended.flatMap description.fields fun field _ => ?_
            obtain same | ⟨was, is⟩ := getElem?_replace value other front rest field.slot
            · rw [same]
              exact .refl _
            · rw [was, is]
              exact courseAt _ field.type field.markers inductionHypothesis
      | _ =>
          simp only [Value.course, described]
          exact .refl _

end Value.Mended

namespace Buffer.Performs

variable {operation : Buffer.Op Unit} {course : Course}

/-- However it ends, a writer then holds what it held and what is before the first offence. -/
theorem left (performs : Buffer.Performs operation course) (buffer : Buffer)
    (writes : buffer.mode = .write) :
    (Step.left (operation buffer)).bytes = buffer.bytes ++ Piece.wire course.front := by
  obtain ⟨outcome, _, wrote⟩ := performs
  obtain ⟨contents, limits⟩ := buffer
  cases contents with
  | unread bytes => cases writes
  | written reversed =>
      have bytes :
          (Buffer.mk (.written ((Piece.wire course.front).reverse ++ reversed)) limits).bytes
            = (Buffer.mk (.written reversed) limits).bytes ++ Piece.wire course.front := by
        simp [Buffer.bytes]
      rw [wrote]
      cases outcome <;> exact bytes

/-- On a writer it fails only for the first offence. -/
theorem cause (performs : Buffer.Performs operation course) (buffer : Buffer)
    (writes : buffer.mode = .write) (error : Error) (after : Buffer)
    (failed : operation buffer = .error error after) :
    ∃ first others, course.offences = first :: others ∧ error.rootCause = first.error := by
  obtain ⟨outcome, ends, wrote⟩ := performs
  obtain ⟨contents, limits⟩ := buffer
  cases contents with
  | unread bytes => cases writes
  | written reversed =>
      rw [wrote] at failed
      cases outcome with
      | ok done => cases failed
      | error cause =>
          cases failed
          unfold Course.ending at ends
          cases met : course.offences with
          | nil => rw [met] at ends; cases ends
          | cons first others =>
              rw [met] at ends
              exact ⟨first, others, rfl, Except.error.inj ends⟩

end Buffer.Performs

namespace Serializer

variable (schema : Schema) (config : Config)

/-- Whatever has been asked before, appending a proper value to a writer leaves the octets of what
    is met before the first offence behind what was there, and it fails only for that one. -/
theorem encodeInto_performs (value : Value) (proper : value.Proper schema value.type)
    (truthful : schema.Throughout schema.Truthful value.type) (memory : Memory)
    (reached : (build schema config).Reached memory) (buffer : Buffer)
    (writes : buffer.mode = .write) :
    (Step.left ((build schema config).encodeInto value buffer memory)).buffer.bytes
        = buffer.bytes ++ Piece.wire (value.wholeCourse schema).front ∧
      ∀ error after, (build schema config).encodeInto value buffer memory = .error error after →
        ∃ first others, value.offences schema = first :: others ∧
          error.rootCause = first.error := by
  obtain ⟨later, _, same⟩ := encodeInto_eq_appending (builtin_static schema config)
    (builtin_makes schema config) value buffer
    (coherent_of_reached (builtin_static schema config) (builtin_makes schema config) memory
      reached)
  have performs := performs_appending schema config value proper truthful
  have left := performs.left buffer writes
  rw [same]
  constructor
  · cases ended : (build schema config).appending value buffer with
    | ok done between => rw [ended] at left; exact left
    | error error between => rw [ended] at left; exact left
  · intro error after failed
    obtain ⟨between, ended, _⟩ := Step.carry_eq_error failed
    exact performs.cause buffer writes error between ended

/-- A failed encoding leaves in the writer what was there, and behind it the octets of exactly
    what the walk met before its first offence, which is what failed. They are the beginning of the
    wire form of the value. However a character is mended that takes two units, in no element of
    a set and no key of a map, the same octets come first in what encoding appends then, to
    whatever writer and however it ends. -/
theorem failed_encoding_leaves_front (value : Value) (proper : value.Proper schema value.type)
    (truthful : schema.Throughout schema.Truthful value.type) (memory : Memory)
    (reached : (build schema config).Reached memory) (buffer : Buffer)
    (writes : buffer.mode = .write) (error : Error) (after : Walk.State)
    (failed : (build schema config).encodeInto value buffer memory = .error error after) :
    ∃ front offence rest,
      value.wholeCourse schema = Course.clear front ++ .offence offence :: rest ∧
      error.rootCause = offence.error ∧
      after.buffer.bytes = buffer.bytes ++ Piece.wire front ∧
      front <+: value.layout schema value.type none ∧
      ∀ mended, value.Mended mended → ∀ later, (build schema config).Reached later →
        ∀ other : Buffer, other.mode = .write → ∃ more,
          (Step.left ((build schema config).encodeInto mended other later)).buffer.bytes
            = other.bytes ++ Piece.wire front ++ more := by
  obtain ⟨left, fails⟩ :=
    encodeInto_performs schema config value proper truthful memory reached buffer writes
  obtain ⟨first, others, met, cause⟩ := fails error after failed
  obtain ⟨rest, split⟩ := Course.eq_front_append (value.wholeCourse schema) first others met
  rw [failed] at left
  have unmarked : value.layoutAt schema value.type [] = value.layout schema value.type none :=
    value.layoutAt_nil schema value.type
  have along : Course.front (value.wholeCourse schema) <+: value.layout schema value.type none := by
    rw [← unmarked]
    exact (Value.tracks_courseAt (fun active => value.tracks_course active value.type) [] []).1
  refine ⟨_, first, rest, split, cause, left, along, ?_⟩
  intro mended replaced later reachedLater other otherWrites
  have sameType : mended.type = value.type := replaced.type_eq
  have course : Course.Mended (value.wholeCourse schema) (mended.wholeCourse schema) := by
    rw [Value.wholeCourse, Value.wholeCourse, sameType]
    exact Value.Mended.courseAt [] value.type [] replaced.course
  obtain ⟨further, longer⟩ := course.front_isPrefix
  have properMended : mended.Proper schema mended.type := by
    rw [sameType]
    exact replaced.proper proper
  have written := (encodeInto_performs schema config mended properMended (sameType ▸ truthful)
    later reachedLater other otherWrites).1
  refine ⟨Piece.wire further, ?_⟩
  rw [written, ← longer, Piece.wire_append, List.append_assoc]

/-- Of a list of one ledger only the count is written before its character. With another
    character the list cannot be encoded either, but what is written then begins alike. -/
theorem failed_encoding_leaves_front_ledger :
    let serializer := build ledgers {}
    let none := Value.absent (.boxed (.named "Ledger"))
    let value := Value.sequence (.vector (.named "Ledger")) [ledger '𝄞' none]
    let mended := Value.sequence (.vector (.named "Ledger")) [ledger 'a' none]
    let buffer : Buffer := ⟨.written [9], {}⟩
    (value.Proper ledgers value.type ∧ ledgers.Throughout ledgers.Truthful value.type ∧
      serializer.Reached serializer.start ∧ buffer.mode = .write ∧ value.Mended mended) ∧
    ∃ error after, serializer.encodeInto value buffer serializer.start = .error error after ∧
      after.buffer.bytes = [9, 0, 0, 0, 0, 0, 0, 0, 1] ∧
      ∃ more, (Step.left (serializer.encodeInto mended buffer serializer.start)).buffer.bytes
        = [9, 0, 0, 0, 0, 0, 0, 0, 1] ++ more := by
  intro serializer none value mended buffer
  have proper : value.Proper ledgers value.type := by
    refine .sequence _ (some (.named "Ledger")) rfl (.named "Ledger") rfl _ fun item among => ?_
    cases List.mem_singleton.mp among
    exact proper_ledger '𝄞' _ (.absent _)
  have truthful : ledgers.Throughout ledgers.Truthful value.type := truthful_ledgers
  have replaced : value.Mended mended := by
    refine .item _ ?_ [] [] _ _ (.member _ [] _ _ _ (.character _ _ (by decide) (by decide)))
    intro kind element same
    cases same
    rfl
  have fails : Step.failure? (serializer.encodeInto value buffer serializer.start)
      = some (.field "Ledger" "initial" (.invalidChar 0x1D11E)) := by decide +kernel
  obtain ⟨after, failed⟩ := Step.exists_of_failure? fails
  obtain ⟨front, offence, rest, _, _, left, _, again⟩ := failed_encoding_leaves_front ledgers {}
    value proper truthful _ .start buffer rfl _ after failed
  have bytes : (Step.left (serializer.encodeInto value buffer serializer.start)).buffer.bytes
      = [9] ++ [0, 0, 0, 0, 0, 0, 0, 1] := by decide +kernel
  rw [failed] at bytes
  have wire : Piece.wire front = [0, 0, 0, 0, 0, 0, 0, 1] :=
    List.append_cancel_left (left.symm.trans bytes)
  obtain ⟨more, starts⟩ := again mended replaced _ .start buffer rfl
  rw [wire] at starts
  exact ⟨⟨proper, truthful, .start, rfl, replaced⟩, _, after, failed, bytes, more, starts⟩

end Serializer

end Wireform
