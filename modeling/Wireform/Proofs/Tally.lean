import Wireform.Proofs.Client
import Wireform.Proofs.Reports

/-!
# Parts that have been decoded

How much work the decoding of a value is cannot be seen from its result, least of all where it fails.
So requests are answered once more, as without a memory, and every element of a sequence and every
key and value of a map that has been decoded is written down by its type, whether it ends up in a
result or not. An entry of a map is a key and a value, so there are never more entries than keys.

Nothing looks at what is written down. Leaving it out is answering the requests.
-/

namespace Wireform

variable {α : Type}

/-- The type of a part of a collection, if the site is the place of one. -/
def Site.part? : Site → Option Ty
  | .element type => some type
  | .key type => some type
  | .value type => some type
  | _ => none

/-- A buffer, and the types of the parts of collections that have been decoded from it, the latest
    first. -/
structure Tally where
  buffer : Buffer
  parts : List Ty := []

namespace Tally

/-- Works on the buffer. -/
def on (operation : Buffer.Op α) : Step Tally α := fun tally =>
  Step.carry (fun after => { tally with buffer := after }) (operation tally.buffer)

/-- Writes down that what belongs at a site has been decoded, if it is a part of a collection. -/
def note (site : Option Site) : Step Tally Unit := fun tally =>
  .ok () { tally with parts := (site.bind Site.part?).toList ++ tally.parts }

end Tally

namespace Serializer

/-- Answers a request and writes down the parts of collections that are decoded on the way. -/
def tally (serializer : Serializer) :
    (depth : Nat) → (visited : List Ty) → (request : Request) → Step Tally request.Answer
  | _, _, .look => fun tally => .ok tally.buffer tally
  | _, _, .replace buffer => fun tally => .ok () { tally with buffer := buffer }
  | _, visited, .path => fun tally => .ok (visited.reverse.map Ty.name) tally
  | 0, _, .encode _ => Step.fail .depthExceeded
  | 0, _, .decode _ => Step.fail .depthExceeded
  | 0, _, .encodeFields _ _ _ => Step.fail .depthExceeded
  | 0, _, .decodeFields _ _ => Step.fail .depthExceeded
  | 0, _, .encodeResolved _ _ => Step.fail .depthExceeded
  | 0, _, .decodeResolved _ => Step.fail .depthExceeded
  | depth + 1, visited, .encode context =>
      match context.value with
      | none => Step.fail (.unexpectedNull context.declared.name)
      | some value => do
          let codec ← Step.lift (serializer.freshCodec context)
          let inner ← Step.lift (context.project value)
          (codec.encode inner).run (serializer.tally depth visited)
  | depth + 1, visited, .decode context => do
      let codec ← Step.lift (serializer.freshCodec context)
      let inner ← codec.decode.run (serializer.tally depth visited)
      let value ← Step.lift (context.rewrap inner)
      Tally.note context.site
      return value
  | depth + 1, visited, .encodeFields type aggregate value =>
      if visited.contains type then Step.fail (.circularReference type.name)
      else
        encodeFields (fun context => serializer.tally depth (type :: visited) (.encode context))
          type value 0 aggregate.fields
  | depth + 1, visited, .decodeFields type aggregate =>
      if visited.contains type then Step.fail (.circularReference type.name)
      else
        rebuild (fun context => serializer.tally depth (type :: visited) (.decode context))
          type aggregate
  | depth + 1, visited, .encodeResolved context value => do
      match ← Step.lift (serializer.resolve context) with
      | none => return none
      | some codec => some <$> (codec.encode value).run (serializer.tally depth visited)
  | depth + 1, visited, .decodeResolved context => do
      match ← Step.lift (serializer.resolve context) with
      | none => return none
      | some codec => some <$> codec.decode.run (serializer.tally depth visited)

/-- Takes a value of a type off a buffer and writes down the parts that are decoded. -/
def tallying (serializer : Serializer) (type : Ty) : Step Tally Value := do
  let value ← serializer.tally (serializer.nesting (root type none)) [] (.decode (root type none))
  Step.lift (value.expect type)

open Step

variable (serializer : Serializer)

/-- Without what is written down, requests are answered. The induction is on how deep requests may
    nest; each case hands its own requests to the level below. -/
theorem agrees_tally (depth : Nat) (visited : List Ty) (request : Request) :
    Agrees Tally.buffer (serializer.tally depth visited request)
      (serializer.answer depth visited request) := by
  induction depth generalizing visited request with
  | zero =>
      cases request with
      | look => exact fun _ => rfl
      | replace buffer => exact fun _ => rfl
      | path => exact fun _ => rfl
      | _ => exact agrees_fail _
  | succ depth inductionHypothesis =>
      cases request with
      | look => exact fun _ => rfl
      | replace buffer => exact fun _ => rfl
      | path => exact fun _ => rfl
      | encode context =>
          simp only [tally, answer]
          cases context.value with
          | none => exact agrees_fail _
          | some value =>
              refine agrees_bind (agrees_lift _) fun codec =>
                agrees_bind (agrees_lift _) fun inner => ?_
              exact agrees_run (inductionHypothesis visited) (codec.encode inner)
      | decode context =>
          refine agrees_bind (agrees_lift _) fun codec =>
            agrees_bind (agrees_run (inductionHypothesis visited) codec.decode) fun inner => ?_
          -- a note adds nothing to what the buffer is
          intro tally
          cases context.rewrap inner <;> rfl
      | encodeFields type description value =>
          simp only [tally, answer]
          split
          · exact agrees_fail _
          · exact agrees_encodeFields
              (fun context => inductionHypothesis (type :: visited) (.encode context)) type value 0 _
      | decodeFields type description =>
          simp only [tally, answer]
          split
          · exact agrees_fail _
          · exact agrees_rebuild
              (fun context => inductionHypothesis (type :: visited) (.decode context)) type description
      | encodeResolved context value =>
          simp only [tally, answer]
          refine agrees_bind (agrees_lift _) fun found => ?_
          cases found with
          | none => exact agrees_pure none
          | some codec =>
              exact agrees_map some (agrees_run (inductionHypothesis visited) (codec.encode value))
      | decodeResolved context =>
          simp only [tally, answer]
          refine agrees_bind (agrees_lift _) fun found => ?_
          cases found with
          | none => exact agrees_pure none
          | some codec => exact agrees_map some (agrees_run (inductionHypothesis visited) codec.decode)

/-- Without what is written down, a value is taken off the buffer. -/
theorem agrees_tallying (type : Ty) :
    Agrees Tally.buffer (serializer.tallying type) (serializer.takingFrom type) :=
  agrees_bind (serializer.agrees_tally _ _ _) fun _ => agrees_lift _

/-- A buffer operation works on the buffer of the tally. -/
@[simp] theorem run_buffer_tally (depth : Nat) (visited : List Ty) (operation : Buffer.Op α) :
    (Program.buffer operation).run (serializer.tally depth visited) = Tally.on operation := by
  have look (tally : Tally) :
      serializer.tally depth visited .look tally = .ok tally.buffer tally := by
    cases depth <;> rfl
  have replace (tally : Tally) (after : Buffer) :
      serializer.tally depth visited (.replace after) tally
        = .ok () { tally with buffer := after } := by
    cases depth <;> rfl
  funext tally
  rw [Program.buffer, Program.run_bind, Program.run_perform, bind_apply, look]
  cases ended : operation tally.buffer with
  | ok result after | error error after =>
      simp only [ended, Tally.on]
      rw [Program.run_bind, Program.run_perform, bind_apply, replace]
      rfl

end Serializer

end Wireform
