import Wireform.Proofs.Akin
import Wireform.Proofs.Vouching

/-!
# Two ways to rebuild an aggregate

An aggregate is rebuilt by a constructor that takes all arguments at once, or by assigning one
field after another. If the constructor mirrors the fields and stores its arguments, the two go
through the same fields in the same order, at the same places but for their sites, and they
report the same owner and the same name for each. Assigning a field checks the type of what has
been decoded, but that is always right. So both come to decoding the arguments and putting
them in, and it is only the members that do not travel in which the results differ.

Which way is taken is up to the description alone. That two operations are parallel has rules of its
own: on every buffer they end with related results and the same bytes left, or with one and the
same failure in the same place.
-/

namespace Wireform

variable {α β γ δ : Type}

/-- Two steps end in the same state, with related results or with one and the same failure. -/
inductive Step.Parallel {σ : Type} (related : α → β → Prop) :
    EStateM.Result Error σ α → EStateM.Result Error σ β → Prop
  | ok (left : α) (right : β) (state : σ) (alike : related left right) :
      Parallel related (.ok left state) (.ok right state)
  | error (error : Error) (state : σ) : Parallel related (.error error state) (.error error state)

namespace Buffer

variable {related : α → β → Prop} {further : γ → δ → Prop}

/-- Two operations end alike on every buffer. -/
def Parallel (related : α → β → Prop) (operation : Op α) (other : Op β) : Prop :=
  ∀ buffer, Step.Parallel related (operation buffer) (other buffer)

/-- Related results. -/
theorem parallel_pure {left : α} {right : β} (alike : related left right) :
    Parallel related (pure left) (pure right) :=
  fun buffer => .ok left right buffer alike

/-- One failure. -/
theorem parallel_fail (error : Error) :
    Parallel related (Step.fail error : Op α) (Step.fail error : Op β) :=
  fun buffer => .error error buffer

/-- Outcomes that are parallel already. -/
theorem parallel_lift {left : Except Error α} {right : Except Error β}
    (outcomes : Wireform.Parallel related left right) :
    Parallel related (Step.lift left) (Step.lift right) := by
  cases outcomes with
  | ok left right alike => exact parallel_pure alike
  | error error => exact parallel_fail error

/-- An operation is parallel to itself. -/
theorem parallel_refl (operation : Op α) : Parallel Eq operation operation := by
  intro buffer
  cases operation buffer with
  | ok result after => exact .ok result result after rfl
  | error error after => exact .error error after

/-- An operation is parallel to itself in what it ends in. -/
theorem parallel_same {operation : Op α} {good : α → Prop} (ends : Ends operation good) :
    Parallel (fun left right => left = right ∧ good left) operation operation := by
  intro buffer
  cases ended : operation buffer with
  | ok result after => exact .ok result result after ⟨rfl, ends buffer result after ended⟩
  | error error after => exact .error error after

/-- One operation after another. -/
theorem parallel_bind {operation : Op α} {other : Op β} {next : α → Op γ} {after : β → Op δ}
    (first : Parallel related operation other)
    (second : ∀ left right, related left right → Parallel further (next left) (after right)) :
    Parallel further (operation >>= next) (other >>= after) := by
  intro buffer
  have ends := first buffer
  rw [Step.bind_apply, Step.bind_apply]
  generalize operation buffer = outcome at ends ⊢
  generalize other buffer = another at ends ⊢
  cases ends with
  | ok left right between alike => exact second left right alike between
  | error error between => exact .error error between

/-- The same operation first. -/
theorem parallel_after (operation : Op α) {next : α → Op γ} {after : α → Op δ}
    (second : ∀ result, Parallel further (next result) (after result)) :
    Parallel further (operation >>= next) (operation >>= after) :=
  parallel_bind (parallel_refl operation) fun left _ same => same ▸ second left

/-- Changing the results. -/
theorem parallel_map {operation : Op α} {other : Op β} (change : α → γ) (alter : β → δ)
    (first : Parallel related operation other)
    (changed : ∀ left right, related left right → further (change left) (alter right)) :
    Parallel further (change <$> operation) (alter <$> other) := by
  rw [map_eq_pure_bind, map_eq_pure_bind]
  exact parallel_bind first fun left right alike => parallel_pure (changed left right alike)

/-- Naming one field of the failures. -/
theorem parallel_inField {operation : Op α} {other : Op β} (owner name : String)
    (first : Parallel related operation other) :
    Parallel related (Step.inField owner name operation) (Step.inField owner name other) := by
  intro buffer
  have ends := first buffer
  unfold Step.inField
  generalize operation buffer = outcome at ends ⊢
  generalize other buffer = another at ends ⊢
  cases ends with
  | ok left right after alike => exact .ok left right after alike
  | error error after => exact .error _ after

/-- Repeating, with related results so far. -/
theorem parallel_repeated {operation : Op α} {other : Op β}
    (each : Parallel related operation other) (count : Nat) {collected : List α}
    {others : List β} (so : List.Forall₂ related collected others) :
    Parallel (List.Forall₂ related) (repeated operation count collected)
      (repeated other count others) := by
  induction count generalizing collected others with
  | zero => exact parallel_pure (List.rel_reverse so)
  | succ count inductionHypothesis =>
      exact parallel_bind each fun left right alike => inductionHypothesis (.cons alike so)

/-- Either of two operations ends in what is related to a result of the other. -/
theorem ends_of_parallel {operation : Op α} {other : Op β} {good : α → Prop} {fine : β → Prop}
    (parallel : Parallel related operation other)
    (both : ∀ left right, related left right → good left ∧ fine right) :
    Ends operation good ∧ Ends other fine := by
  constructor
  · intro before result after ended
    have alike := parallel before
    rw [ended] at alike
    generalize other before = another at alike
    cases alike with
    | ok _ right _ alike => exact (both result right alike).1
  · intro before result after ended
    have alike := parallel before
    rw [ended] at alike
    generalize operation before = another at alike
    cases alike with
    | ok left _ _ alike => exact (both left result alike).2

end Buffer

/-! ## Aggregates -/

namespace Aggregate

/-- The aggregate is rebuilt from its own fields by whichever strategy: what is rebuilt has the
    values of the fields put into given members. A constructor mirrors the fields. -/
def Stores (type : Ty) (blank : List Value) (description : Aggregate) : Prop :=
  match description.strategy with
  | .construct _ constructor =>
      constructor.parameters = description.mirrored ∧
        ∀ arguments, arguments.map Value.type = description.fields.map Field.type →
          constructor.build arguments
            = .ok (.record type (Field.put description.fields arguments blank))
  | .assign initial => initial = .record type blank
  | .unavailable => False

/-- A constructor that mirrors the fields and stores its arguments is all that it takes, whatever
    constructors follow it. -/
theorem stores_of_mirrored (type : Ty) (blank : List Value) (fields : List Field)
    (build : List Value → Except Error Value) (rest : List Constructor) (initial : Option Value)
    (builds : ∀ arguments, arguments.map Value.type = fields.map Field.type →
      build arguments = .ok (.record type (Field.put fields arguments blank))) :
    Stores type blank ⟨fields, ⟨fields.map Field.parameter, build⟩ :: rest, initial⟩ := by
  simp only [Stores, strategy, matching, List.length_map, if_pos]
  exact ⟨rfl, builds⟩

/-- So is an initial value without any constructors. -/
theorem stores_of_initial (type : Ty) (blank : List Value) (fields : List Field) :
    Stores type blank ⟨fields, [], some (.record type blank)⟩ :=
  rfl

/-- The strategy is what the shape of the description asks for: the first constructor with as many
    parameters as there are fields, else to assign to an initial value, else nothing. -/
def Chooses (description : Aggregate) : Strategy → Prop
  | .construct index constructor =>
      description.constructors[index]? = some constructor ∧
        constructor.parameters.length = description.fields.length ∧
        ∀ earlier < index, ∀ other, description.constructors[earlier]? = some other →
          other.parameters.length ≠ description.fields.length
  | .assign initial =>
      description.initial = some initial ∧ ∀ constructor ∈ description.constructors,
        constructor.parameters.length ≠ description.fields.length
  | .unavailable =>
      description.initial = none ∧ ∀ constructor ∈ description.constructors,
        constructor.parameters.length ≠ description.fields.length

/-- No constructor matches if none has as many parameters. -/
theorem matching_eq_none (count start : Nat) (constructors : List Constructor) :
    matching count start constructors = none ↔
      ∀ constructor ∈ constructors, constructor.parameters.length ≠ count := by
  induction constructors generalizing start with
  | nil => exact iff_of_true rfl (List.forall_mem_nil _)
  | cons constructor rest inductionHypothesis =>
      rw [matching, List.forall_mem_cons, ← inductionHypothesis (start + 1)]
      split
      · next same => exact iff_of_false (by rintro ⟨⟩) fun both => both.1 same
      · next differs => exact (and_iff_right differs).symm

/-- The constructor that matches is the first one with as many parameters. -/
theorem matching_eq_some (count start index : Nat) (constructor : Constructor)
    (constructors : List Constructor) :
    matching count start constructors = some (start + index, constructor) ↔
      constructors[index]? = some constructor ∧ constructor.parameters.length = count ∧
        ∀ earlier < index, ∀ other, constructors[earlier]? = some other →
          other.parameters.length ≠ count := by
  induction constructors generalizing start index with
  | nil => exact iff_of_false (by rintro ⟨⟩) (by rintro ⟨⟨⟩, _⟩)
  | cons head rest inductionHypothesis =>
      rw [matching]
      cases index with
      | zero =>
          rw [List.getElem?_cons_zero, Option.some_inj]
          split
          · next same =>
              constructor
              · rintro ⟨⟩
                exact ⟨rfl, same, fun _ impossible => absurd impossible (Nat.not_lt_zero _)⟩
              · rintro ⟨rfl, _, _⟩
                rfl
          · next differs =>
              constructor
              · intro chosen
                have later := (getElem?_of_matching count (start + 1) _ _ _ chosen).1
                exact absurd later (Nat.not_succ_le_self start)
              · rintro ⟨rfl, same, _⟩
                exact absurd same differs
      | succ index =>
          rw [List.getElem?_cons_succ]
          split
          · next same =>
              constructor
              · intro chosen
                cases congrArg Prod.fst (Option.some.inj chosen)
              · rintro ⟨_, _, first⟩
                exact absurd same (first 0 (Nat.succ_pos index) head rfl)
          · next differs =>
              have shifted : start + (index + 1) = start + 1 + index := by omega
              rw [shifted, inductionHypothesis (start + 1) index]
              refine and_congr_right fun _ => and_congr_right fun _ => ?_
              constructor
              · intro first earlier before other listed
                cases earlier with
                | zero =>
                    cases listed
                    exact differs
                | succ earlier => exact first earlier (Nat.lt_of_succ_lt_succ before) other listed
              · intro first earlier before
                exact first (earlier + 1) (Nat.succ_lt_succ before)

/-- The strategy is the one that the shape asks for. -/
theorem strategy_eq_iff (description : Aggregate) (chosen : Strategy) :
    description.strategy = chosen ↔ description.Chooses chosen := by
  constructor
  · rintro rfl
    unfold strategy
    split
    · next index constructor matched =>
        exact (matching_eq_some _ 0 index constructor _).mp (by rwa [Nat.zero_add])
    · next initial unmatched start =>
        exact ⟨start, (matching_eq_none _ 0 _).mp unmatched⟩
    · next unmatched start =>
        exact ⟨start, (matching_eq_none _ 0 _).mp unmatched⟩
  · intro chooses
    cases chosen with
    | construct index constructor =>
        have matched := (matching_eq_some _ 0 index constructor _).mpr chooses
        rw [Nat.zero_add] at matched
        simp only [strategy, matched]
    | assign initial =>
        obtain ⟨start, different⟩ := chooses
        simp only [strategy, (matching_eq_none _ 0 _).mpr different, start]
    | unavailable =>
        obtain ⟨start, different⟩ := chooses
        simp only [strategy, (matching_eq_none _ 0 _).mpr different, start]

end Aggregate

namespace Serializer

section Rebuilding

variable {decode : Context → Buffer.Op Value}

/-- The first argument for fields, and the others. -/
theorem decodeArguments_cons (owner : Ty) (index position : Nat) (field : Field)
    (rest : List Field) :
    decodeArguments decode owner index position ((field :: rest).map Field.parameter) = (do
      let argument ← Step.inField owner.name field.name
        (decode (.ofPlace field.type field.markers (.parameter owner index position) none))
      let others ← decodeArguments decode owner index (position + 1) (rest.map Field.parameter)
      return argument :: others) :=
  rfl

/-- The first field that is assigned, and the others. -/
theorem assignFields_cons (owner : Ty) (index : Nat) (field : Field) (rest : List Field)
    (value : Value) :
    assignFields decode owner index (field :: rest) value = (do
      let assigned ← Step.inField owner.name field.name do
        let decoded ← decode (.ofPlace field.type field.markers (.field owner index) none)
        Step.lift (field.set owner decoded value)
      assignFields decode owner (index + 1) rest assigned) :=
  rfl

variable (fields : List Field)
  (typed : ∀ field ∈ fields, ∀ site,
    Buffer.Ends (decode (.ofPlace field.type field.markers site none)) fun value =>
      value.type = field.type)

include typed

/-- Decoded arguments are of the types of the fields that they are for. -/
theorem types_of_decodeArguments (owner : Ty) (index position : Nat) (buffer after : Buffer)
    (arguments : List Value)
    (decoded : decodeArguments decode owner index position (fields.map Field.parameter) buffer
      = .ok arguments after) : arguments.map Value.type = fields.map Field.type := by
  induction fields generalizing position buffer arguments with
  | nil =>
      cases decoded
      rfl
  | cons field rest inductionHypothesis =>
      obtain ⟨first, others⟩ := List.forall_mem_cons.mp typed
      rw [decodeArguments_cons, Step.bind_apply] at decoded
      unfold Step.inField at decoded
      cases ended : decode (.ofPlace field.type field.markers (.parameter owner index position)
          none) buffer with
      | error error between => rw [ended] at decoded; cases decoded
      | ok value between =>
          simp only [ended, Step.bind_apply] at decoded
          cases later : decodeArguments decode owner index (position + 1)
              (rest.map Field.parameter) between with
          | error error left => rw [later] at decoded; cases decoded
          | ok values left =>
              rw [later] at decoded
              cases decoded
              rw [List.map_cons, List.map_cons, first _ buffer value between ended,
                inductionHypothesis others (position + 1) between values later]

variable (placeless : ∀ type markers site elsewhere,
    decode (.ofPlace type markers site none) = decode (.ofPlace type markers elsewhere none))

include placeless

omit typed in
/-- It does not matter which constructor arguments are decoded for. -/
theorem decodeArguments_placeless (owner : Ty) (index another position start : Nat) :
    decodeArguments decode owner index position (fields.map Field.parameter)
      = decodeArguments decode owner another start (fields.map Field.parameter) := by
  induction fields generalizing position start with
  | nil => rfl
  | cons field rest inductionHypothesis =>
      rw [decodeArguments_cons, decodeArguments_cons,
        inductionHypothesis (position + 1) (start + 1),
        placeless field.type field.markers (.parameter owner index position)
          (.parameter owner another start)]

/-- Assigning fields one by one is decoding arguments for them and putting them in. -/
theorem assignFields_eq (owner : Ty) (index another position : Nat) (members : List Value) :
    assignFields decode owner index fields (.record owner members)
      = decodeArguments decode owner another position (fields.map Field.parameter) >>=
          fun arguments => pure (.record owner (Field.put fields arguments members)) := by
  induction fields generalizing index position members with
  | nil => rfl
  | cons field rest inductionHypothesis =>
      obtain ⟨first, others⟩ := List.forall_mem_cons.mp typed
      have place := placeless field.type field.markers (.field owner index)
        (.parameter owner another position)
      funext buffer
      rw [assignFields_cons, decodeArguments_cons, place, LawfulMonad.bind_assoc, Step.bind_apply,
        Step.bind_apply]
      unfold Step.inField
      rw [Step.bind_apply]
      cases ended : decode (.ofPlace field.type field.markers
          (.parameter owner another position) none) buffer with
      | error error between => rfl
      | ok value between =>
          have own : value.type = field.type := first _ buffer value between ended
          have assigned : field.set owner value (.record owner members)
              = .ok (.record owner (members.set field.slot value)) := by
            rw [Field.set, if_pos rfl, (Value.expect_eq_ok field.type value value).mpr ⟨own, rfl⟩]
            rfl
          simp only [assigned]
          change assignFields decode owner (index + 1) rest
            (Value.record owner (members.set field.slot value)) between = _
          rw [inductionHypothesis others (index + 1) (position + 1), LawfulMonad.bind_assoc]
          rfl

/-- However an aggregate is rebuilt that is rebuilt from its own fields, it is as if arguments were
    decoded for them and put in. -/
theorem rebuild_eq (owner : Ty) (blank : List Value) (description : Aggregate)
    (same : description.fields = fields) (stores : description.Stores owner blank) :
    rebuild decode owner description
      = decodeArguments decode owner 0 0 (fields.map Field.parameter) >>= fun arguments =>
          pure (.record owner (Field.put fields arguments blank)) := by
  subst same
  unfold Aggregate.Stores at stores
  unfold rebuild
  cases chosen : description.strategy with
  | construct index constructor =>
      rw [chosen] at stores
      obtain ⟨mirrors, builds⟩ := stores
      simp only [mirrors, Aggregate.mirrored]
      rw [decodeArguments_placeless description.fields placeless owner index 0 0 0]
      funext buffer
      rw [Step.bind_apply, Step.bind_apply]
      cases decoded : decodeArguments decode owner 0 0 (description.fields.map Field.parameter)
          buffer with
      | error error after => rfl
      | ok arguments after =>
          have types := types_of_decodeArguments description.fields typed owner 0 0 buffer
            after arguments decoded
          simp only [builds arguments types, Step.lift_ok]
  | assign initial =>
      rw [chosen] at stores
      obtain rfl : initial = .record owner blank := stores
      exact assignFields_eq description.fields typed placeless owner 0 0 0 blank
  | unavailable =>
      rw [chosen] at stores
      exact stores.elim

end Rebuilding

section Counterparts

variable {schema other : Schema} {blanks others : Ty → List Value}
  {decode counterpart : Context → Buffer.Op Value} (fields : List Field)
  (each : ∀ field ∈ fields, ∀ site,
    Buffer.Parallel (Value.Akin schema other blanks others field.type)
      (decode (.ofPlace field.type field.markers site none))
      (counterpart (.ofPlace field.type field.markers site none)))

include each

/-- Akin arguments are decoded for the fields. -/
theorem parallel_decodeArguments (owner : Ty) (index position : Nat) :
    Buffer.Parallel
      (fun here there => ∃ pairs : List (Value × Value), here = pairs.map Prod.fst ∧
        there = pairs.map Prod.snd ∧ pairs.length = fields.length ∧
        ∀ both ∈ fields.zip pairs,
          Value.Akin schema other blanks others both.1.type both.2.1 both.2.2)
      (decodeArguments decode owner index position (fields.map Field.parameter))
      (decodeArguments counterpart owner index position (fields.map Field.parameter)) := by
  induction fields generalizing position with
  | nil => exact Buffer.parallel_pure ⟨[], rfl, rfl, rfl, List.forall_mem_nil _⟩
  | cons field rest inductionHypothesis =>
      obtain ⟨first, further⟩ := List.forall_mem_cons.mp each
      rw [decodeArguments_cons, decodeArguments_cons]
      refine Buffer.parallel_bind (Buffer.parallel_inField _ _ (first _)) fun left right alike => ?_
      refine Buffer.parallel_bind (inductionHypothesis further (position + 1)) ?_
      rintro _ _ ⟨pairs, rfl, rfl, counts, all⟩
      exact Buffer.parallel_pure ⟨(left, right) :: pairs, rfl, rfl, congrArg Nat.succ counts,
        List.forall_mem_cons.mpr ⟨alike, all⟩⟩

/-- Akin aggregates are rebuilt of akin parts, whichever way each of the two is rebuilt. -/
theorem parallel_rebuild
    (placeless : ∀ type markers site elsewhere,
      decode (.ofPlace type markers site none) = decode (.ofPlace type markers elsewhere none))
    (anywhere : ∀ type markers site elsewhere,
      counterpart (.ofPlace type markers site none)
        = counterpart (.ofPlace type markers elsewhere none))
    (owner : Ty) (description another : Aggregate) (known : schema.fields owner = fields)
    (elsewhere : other.fields owner = fields) (listed : description.fields = fields)
    (same : another.fields = fields) (stores : description.Stores owner (blanks owner))
    (puts : another.Stores owner (others owner))
    (lengths : (others owner).length = (blanks owner).length) :
    Buffer.Parallel (Value.Akin schema other blanks others owner) (rebuild decode owner description)
      (rebuild counterpart owner another) := by
  have ends (field : Field) (among : field ∈ fields) (site : Site) :=
    Buffer.ends_of_parallel (each field among site) fun left right alike => alike.types
  rw [rebuild_eq fields (fun field among site => (ends field among site).1) placeless owner _
      description listed stores,
    rebuild_eq fields (fun field among site => (ends field among site).2) anywhere owner _
      another same puts]
  refine Buffer.parallel_bind (parallel_decodeArguments fields each owner 0 0) ?_
  rintro _ _ ⟨pairs, rfl, rfl, counts, all⟩
  subst known
  exact Buffer.parallel_pure (.record owner elsewhere lengths pairs counts all)

end Counterparts

end Serializer

end Wireform
