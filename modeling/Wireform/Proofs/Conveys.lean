import Mathlib.Data.List.Forall2
import Wireform.Proofs.Reads

/-!
# Writing and reading that belong together

A layout says which bytes a value has, so it can only be given where all codecs are known. A
rule of a user's may write what it likes as long as it reads that back. Conveying is this
relation between a writing and a reading operation: whenever the first succeeds, it has
appended some bytes, and the second makes something good of these bytes, whatever stands
behind them, and leaves what stands behind them.

It says nothing about bytes that were not written, and nothing about writing that fails. The
rules below keep it through the constructions that codecs and the engine are made of.
-/

namespace Wireform

variable {α β γ : Type}

namespace Buffer

/-- Whenever writing succeeds, it has appended bytes, and reading makes a good result of
    exactly these. -/
def Conveys (config : Config) (write : Op Unit) (read : Op β) (good : β → Prop) : Prop :=
  ∀ reversed after, write ⟨.written reversed, config⟩ = .ok () after →
    ∃ bytes, after = ⟨.written (bytes.reverse ++ reversed), config⟩ ∧
      ∀ rest, ∃ result, good result ∧
        read (reader (bytes ++ rest) config) = .ok result (reader rest config)

variable {config : Config} {write : Op Unit} {read : Op β} {good : β → Prop}

/-- Writing that only fails conveys anything. -/
theorem conveys_fail (error : Error) : Conveys config (Step.fail error) read good :=
  fun _ _ succeeded => by cases succeeded

/-- A good result is conveyed by writing nothing. -/
theorem conveys_pure (result : β) (fine : good result) :
    Conveys config (pure ()) (pure result) good := by
  intro reversed after succeeded
  cases succeeded
  exact ⟨[], rfl, fun rest => ⟨result, fine, rfl⟩⟩

/-- Bytes that are known to be appended and known to be read are conveyed. -/
theorem conveys_of_reads (bytes : Bytes) (result : β) (appends : Appends write bytes)
    (reads : Succeeds write → Reads config read bytes result) (fine : good result) :
    Conveys config write read good := by
  intro reversed after succeeded
  have written := appends reversed config after succeeded
  have taken := reads ⟨_, _, _, succeeded⟩
  exact ⟨bytes, written, fun rest => ⟨result, fine, taken rest⟩⟩

/-- Only what has been written matters: as many bytes as were appended, and these. -/
theorem written_inj {first second reversed : Bytes}
    (same : (⟨.written (first.reverse ++ reversed), config⟩ : Buffer)
      = ⟨.written (second.reverse ++ reversed), config⟩) : first = second := by
  have contents := (Contents.written.inj (congrArg Buffer.contents same))
  exact List.reverse_injective (List.append_cancel_right contents)

/-- What is conveyed in succession is conveyed, if what comes next fits whatever good result
    there is at first. -/
theorem conveys_bind {next : Unit → Op Unit} {after : β → Op γ} {better : γ → Prop}
    (first : Conveys config write read good)
    (second : ∀ result, good result → Conveys config (next ()) (after result) better) :
    Conveys config (write >>= next) (read >>= after) better := by
  intro reversed last succeeded
  rw [Step.bind_apply] at succeeded
  cases ended : write ⟨.written reversed, config⟩ with
  | error error between => rw [ended] at succeeded; cases succeeded
  | ok done between =>
      rw [ended] at succeeded
      obtain ⟨front, rfl, reads⟩ := first reversed between ended
      -- The bytes that come next are the same for every result there can be at first.
      obtain ⟨some, fine, _⟩ := reads []
      obtain ⟨behind, rfl, _⟩ := second some fine _ last succeeded
      refine ⟨front ++ behind, ?_, fun rest => ?_⟩
      · rw [List.reverse_append, List.append_assoc]
      · obtain ⟨result, fine, taken⟩ := reads (behind ++ rest)
        obtain ⟨others, same, readsNext⟩ := second result fine _ _ succeeded
        cases written_inj same
        obtain ⟨whole, better, takenNext⟩ := readsNext rest
        refine ⟨whole, better, ?_⟩
        rw [Step.bind_apply, List.append_assoc, taken]
        exact takenNext

/-- What is made of a good result without reading is conveyed as well. -/
theorem conveys_bind_pure {after : β → Op γ} {better : γ → Prop}
    (conveys : Conveys config write read good)
    (makes : ∀ result, good result → ∃ whole, better whole ∧
      ∀ rest, after result (reader rest config) = .ok whole (reader rest config)) :
    Conveys config write (read >>= after) better := by
  intro reversed last succeeded
  obtain ⟨bytes, same, reads⟩ := conveys reversed last succeeded
  refine ⟨bytes, same, fun rest => ?_⟩
  obtain ⟨result, fine, taken⟩ := reads rest
  obtain ⟨whole, better, made⟩ := makes result fine
  refine ⟨whole, better, ?_⟩
  rw [Step.bind_apply, taken]
  exact made rest

/-- A changed result is conveyed in the same bytes. -/
theorem conveys_map {better : γ → Prop} (change : β → γ) (conveys : Conveys config write read good)
    (improves : ∀ result, good result → better (change result)) :
    Conveys config write (change <$> read) better := by
  rw [map_eq_pure_bind]
  exact conveys_bind_pure conveys fun result fine => ⟨change result, improves result fine, fun _ => rfl⟩

/-- A result that comes of a good one without fail is conveyed in the same bytes. -/
theorem conveys_bind_lift {outcome : β → Except Error γ} {better : γ → Prop}
    (conveys : Conveys config write read good)
    (known : ∀ result, good result → ∃ whole, outcome result = .ok whole ∧ better whole) :
    Conveys config write (do Step.lift (outcome (← read))) better :=
  conveys_bind_pure conveys fun result fine => by
    obtain ⟨whole, made, better⟩ := known result fine
    refine ⟨whole, better, fun rest => ?_⟩
    rw [made]
    rfl

/-- Writing what an outcome is needed for conveys only if there is a result. -/
theorem conveys_lift_bind {outcome : Except Error α} {next : α → Op Unit}
    (conveys : ∀ result, outcome = .ok result → Conveys config (next result) read good) :
    Conveys config (Step.lift outcome >>= next) read good := by
  cases outcome with
  | ok result => exact conveys result rfl
  | error error => exact conveys_fail error

/-- A good result is good enough if all good results are. -/
theorem conveys_mono {better : β → Prop} (conveys : Conveys config write read good)
    (improves : ∀ result, good result → better result) : Conveys config write read better := by
  intro reversed after succeeded
  obtain ⟨bytes, same, reads⟩ := conveys reversed after succeeded
  refine ⟨bytes, same, fun rest => ?_⟩
  obtain ⟨result, fine, taken⟩ := reads rest
  exact ⟨result, improves result fine, taken⟩

/-- Naming the field of a failure changes nothing on either side. -/
theorem conveys_inField (owner name other otherName : String)
    (conveys : Conveys config write read good) :
    Conveys config (Step.inField owner name write) (Step.inField other otherName read) good := by
  intro reversed after succeeded
  cases ended : write ⟨.written reversed, config⟩ with
  | error error between =>
      simp only [Step.inField, ended] at succeeded
      cases succeeded
  | ok done between =>
      have written := conveys reversed between ended
      simp only [Step.inField, ended] at succeeded
      cases succeeded
      obtain ⟨bytes, same, reads⟩ := written
      refine ⟨bytes, same, fun rest => ?_⟩
      obtain ⟨result, fine, taken⟩ := reads rest
      exact ⟨result, fine, by simp only [Step.inField, taken]⟩

/-- The reader can look up its limits first. -/
theorem conveys_limits {next : Config → Op β} (conveys : Conveys config write (next config) good) :
    Conveys config write (limits >>= next) good :=
  conveys

/-- Items that are conveyed one by one are conveyed in succession, in order. -/
theorem conveys_repeated {put : α → Op Unit} {alike : α → β → Prop} (items : List α)
    (each : ∀ item ∈ items, Conveys config (put item) read (alike item)) (collected : List β) :
    Conveys config (items.forM put) (repeated read items.length collected)
      fun results => ∃ others, results = collected.reverse ++ others ∧
        List.Forall₂ alike items others := by
  induction items generalizing collected with
  | nil => exact conveys_pure _ ⟨[], (List.append_nil _).symm, .nil⟩
  | cons item rest inductionHypothesis =>
      refine conveys_bind (each item List.mem_cons_self) fun result fine => ?_
      have others := inductionHypothesis (fun other later => each other (List.mem_cons_of_mem _ later))
        (result :: collected)
      refine conveys_mono others ?_
      rintro results ⟨results, rfl, alikes⟩
      refine ⟨result :: results, ?_, .cons fine alikes⟩
      rw [List.reverse_cons, List.append_assoc, List.singleton_append]

/-- Items that are conveyed one by one are conveyed together. -/
theorem conveys_each {put : α → Op Unit} {alike : α → β → Prop} (items : List α)
    (each : ∀ item ∈ items, Conveys config (put item) read (alike item)) :
    Conveys config (items.forM put) (repeated read items.length []) (List.Forall₂ alike items) := by
  refine conveys_mono (conveys_repeated items each []) ?_
  rintro _ ⟨others, rfl, alikes⟩
  exact alikes

/-- A flag is conveyed. -/
theorem conveys_bool (flag : Bool) : Conveys config (writeBool flag) readBool (· = flag) :=
  conveys_of_reads _ flag (emits_writeBool flag).appends (fun _ => reads_readBool config flag) rfl

/-- A length is conveyed if the limits admit it. -/
theorem conveys_length (range : Range) (length : Nat) (admitted : range.contains length = true) :
    Conveys config (writeLength length) (readLength range) (· = length) :=
  conveys_of_reads _ length (emits_writeLength length).appends
    (fun succeeds => reads_readLength config range length (lt_of_writeLength succeeds) admitted) rfl

/-- A long length is conveyed if the limits admit it. -/
theorem conveys_longLength (range : Range) (length : Nat)
    (admitted : range.contains length = true) :
    Conveys config (writeLongLength length) (readLongLength range) (· = length) :=
  conveys_of_reads _ length (emits_writeLongLength length).appends
    (fun succeeds => reads_readLongLength config range length (lt_of_writeLongLength succeeds)
      admitted) rfl

end Buffer

end Wireform
