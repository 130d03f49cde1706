import Mathlib.Logic.Relation
import Wireform.Proofs.Faithful

/-!
# What a serializer learns

There are three ways in which a serializer changes its memory: it reports that it descends
into an aggregate, it resolves a codec at a place without a site and reports that, or it
resolves one at a site that it has no codec for, and remembers it there. Whatever it is
asked, by whatever codecs, and however it ends, a memory goes no other way between two calls
that reset it. Nothing is asked of the rules for this.

Which codecs are asked, and so which sites there can be, depends on the rules. Where the
requests of all codecs are known to stay among certain ones, every walk stays among them too.
-/

namespace Wireform

variable {α : Type}

namespace Walk

variable {keeps : Memory → Prop}

/-- A program keeps the memory if the requests that it asks do. -/
theorem guards_run_asks {admits : Request → Prop} {serve : (request : Request) → Walk request.Answer}
    (served : ∀ request, admits request → Guards keeps (serve request) fun _ => True)
    (program : Program α) (asks : program.Asks admits) :
    Guards keeps (program.run serve) fun _ => True := by
  induction program with
  | done result => exact guards_pure result trivial
  | fail error => exact guards_fail error
  | ask request next inductionHypothesis =>
      intro state kept
      have ended := served request asks.1 state kept
      simp only [Program.run]
      cases happened : serve request state with
      | ok answer after =>
          rw [happened] at ended
          exact inductionHypothesis _ (asks.2 _) after ended.1
      | error error after =>
          rw [happened] at ended
          exact inductionHypothesis _ (asks.2 _) after ended

/-- A known outcome keeps the memory. -/
theorem guards_known (outcome : Except Error α) :
    Guards keeps (Step.lift outcome) fun _ => True :=
  guards_lift fun _ _ => trivial

end Walk

namespace Serializer

open Aggregate (fieldContext parameterContext)

/-- The requests of all codecs that a serializer makes for admitted requests are admitted, and what
    it does itself keeps a property of the memory. -/
structure Confines (serializer : Serializer) (keeps : Memory → Prop) (admits : Request → Prop) :
    Prop where
  reports : ∀ memory type depth, keeps memory →
    keeps ⟨memory.cache, .descending type depth :: memory.events⟩
  codecs : ∀ context, admits (.encode context) ∨ admits (.decode context) →
    Walk.Guards keeps (serializer.codecFor context) fun codec => codec.Asks admits
  resolved : ∀ context codec,
    (∃ value, admits (.encodeResolved context value)) ∨ admits (.decodeResolved context) →
    serializer.resolve context = .ok (some codec) → codec.Asks admits
  encodesFields : ∀ type description value, admits (.encodeFields type description value) →
    ∀ index field, description.fields[index]? = some field → ∀ child,
      admits (.encode ((fieldContext type index field).withValue child))
  decodesFields : ∀ type description, admits (.decodeFields type description) →
    ∀ index field, description.fields[index]? = some field →
      admits (.decode (fieldContext type index field))
  decodesParameters : ∀ type description, admits (.decodeFields type description) →
    ∀ index constructor, description.constructors[index]? = some constructor →
      ∀ position parameter, constructor.parameters[position]? = some parameter →
        admits (.decode (parameterContext type index position parameter))

variable {serializer : Serializer} {keeps : Memory → Prop} {admits : Request → Prop}

/-- Every admitted request keeps the memory. The induction is on how deep requests may nest, since
    each request is made by a codec that asks for admitted ones only. -/
theorem Confines.guards_serve (confines : serializer.Confines keeps admits) (depth : Nat)
    (request : Request) (admitted : admits request) :
    Walk.Guards keeps (serializer.serve depth request) fun _ => True := by
  induction depth generalizing request with
  | zero =>
      cases request with
      | look => exact fun _ kept => ⟨kept, trivial⟩
      | replace buffer => exact fun _ kept => ⟨kept, trivial⟩
      | path => exact fun _ kept => ⟨kept, trivial⟩
      | _ => exact Walk.guards_fail _
  | succ depth inductionHypothesis =>
      cases request with
      | look => exact fun _ kept => ⟨kept, trivial⟩
      | replace buffer => exact fun _ kept => ⟨kept, trivial⟩
      | path => exact fun _ kept => ⟨kept, trivial⟩
      | encode context =>
          simp only [serve]
          cases context.value with
          | none => exact Walk.guards_fail _
          | some value =>
              refine Walk.guards_bind (confines.codecs context (.inl admitted)) fun codec asks => ?_
              exact Walk.guards_bind (Walk.guards_known _) fun inner _ =>
                Walk.guards_run_asks inductionHypothesis _ (asks.encode inner)
      | decode context =>
          simp only [serve]
          refine Walk.guards_bind (confines.codecs context (.inr admitted)) fun codec asks => ?_
          exact Walk.guards_bind (Walk.guards_run_asks inductionHypothesis _ asks.decode)
            fun inner _ => Walk.guards_known _
      | encodeFields type description value =>
          exact Walk.guards_descend type confines.reports (guards_encodeFields value
            (fun index field listed child => inductionHypothesis (.encode _)
              (confines.encodesFields type description value admitted index field listed child))
            0 _ rfl)
      | decodeFields type description =>
          refine Walk.guards_descend type confines.reports
            (guards_rebuild ?_ ?_ (fun _ _ _ _ _ => trivial) (fun _ _ => trivial)
              (fun _ _ _ _ _ => trivial))
          · exact fun index field listed => inductionHypothesis (.decode _)
              (confines.decodesFields type description admitted index field listed)
          · exact fun index constructor known position parameter listed =>
              inductionHypothesis (.decode _) (confines.decodesParameters type description admitted
                index constructor known position parameter listed)
      | encodeResolved context value =>
          simp only [serve]
          cases made : serializer.resolve context with
          | error error => exact Walk.guards_fail error
          | ok found =>
              cases found with
              | none => exact Walk.guards_pure none trivial
              | some codec =>
                  have asks := confines.resolved context codec (.inl ⟨value, admitted⟩) made
                  exact Walk.guards_map some
                    (Walk.guards_run_asks inductionHypothesis _ (asks.encode value)) fun _ _ => trivial
      | decodeResolved context =>
          simp only [serve]
          cases made : serializer.resolve context with
          | error error => exact Walk.guards_fail error
          | ok found =>
              cases found with
              | none => exact Walk.guards_pure none trivial
              | some codec =>
                  have asks := confines.resolved context codec (.inr admitted) made
                  exact Walk.guards_map some
                    (Walk.guards_run_asks inductionHypothesis _ asks.decode) fun _ _ => trivial

/-! ## One step of learning -/

/-- The site at which a serializer looks for the codec of a context, and remembers it. -/
def siteFor (serializer : Serializer) (context : Context) : Option Site :=
  if serializer.config.cacheCodecs then context.site else none

/-- What a serializer does to its memory at once. -/
inductive Learns (serializer : Serializer) (memory : Memory) : Memory → Prop
  | descended (type : String) (depth : Nat) :
      Learns serializer memory ⟨memory.cache, .descending type depth :: memory.events⟩
  | passed (context : Context) (codec : Codec) (unnamed : serializer.siteFor context = none)
      (made : serializer.freshCodec context = .ok codec) :
      Learns serializer memory
        ⟨memory.cache, .resolvedCodec context.unwrapped.name none :: memory.events⟩
  | remembered (context : Context) (site : Site) (codec : Codec)
      (named : serializer.siteFor context = some site) (new : memory.cache.find? site = none)
      (made : serializer.freshCodec context = .ok codec) :
      Learns serializer memory ⟨(site, codec) :: memory.cache,
        .resolvedCodec context.unwrapped.name (some site) :: memory.events⟩

/-- A codec is looked up, or resolved and learnt. -/
theorem codecFor_cases (context : Context) (state : Walk.State) :
    (∃ site codec, serializer.siteFor context = some site ∧
        state.memory.cache.find? site = some codec ∧
        serializer.codecFor context state = .ok codec state) ∨
      (∃ error, serializer.freshCodec context = .error error ∧
        serializer.codecFor context state = .error error state) ∨
      ∃ codec memory, serializer.freshCodec context = .ok codec ∧
        serializer.Learns state.memory memory ∧
        (memory.cache = state.memory.cache ∨ ∃ site, context.site = some site ∧
          memory.cache = (site, codec) :: state.memory.cache) ∧
        serializer.codecFor context state = .ok codec { state with memory := memory } := by
  have site : (if serializer.config.cacheCodecs = true then context.site else none)
      = serializer.siteFor context := rfl
  simp only [codecFor, site]
  cases named : serializer.siteFor context with
  | none =>
      cases made : serializer.freshCodec context with
      | error error => exact .inr (.inl ⟨error, rfl, rfl⟩)
      | ok codec =>
          exact .inr (.inr ⟨codec, _, rfl, .passed context codec named made, .inl rfl, rfl⟩)
  | some site =>
      cases hit : state.memory.cache.find? site with
      | some codec => exact .inl ⟨site, codec, rfl, hit, by simp [hit]⟩
      | none =>
          cases made : serializer.freshCodec context with
          | error error => exact .inr (.inl ⟨error, rfl, by simp [hit]⟩)
          | ok codec =>
              have own : context.site = some site := by
                unfold siteFor at named
                split at named
                · exact named
                · cases named
              exact .inr (.inr ⟨codec, _, rfl, .remembered context site codec named hit made,
                .inr ⟨site, own, rfl⟩, by simp [hit]⟩)

/-- Whatever the rules are, a walk only learns. -/
theorem confines_learning (serializer : Serializer) (before : Memory) :
    serializer.Confines (Relation.ReflTransGen serializer.Learns before) fun _ => True where
  reports memory type depth reached := reached.tail (.descended type depth)
  codecs context _ := by
    intro state reached
    rcases serializer.codecFor_cases context state with
      ⟨site, codec, -, -, same⟩ | ⟨error, -, same⟩ | ⟨codec, memory, -, learns, -, same⟩
    · rw [same]
      exact ⟨reached, codec.asks_anything fun _ => trivial⟩
    · rw [same]
      exact reached
    · rw [same]
      exact ⟨reached.tail learns, codec.asks_anything fun _ => trivial⟩
  resolved _ codec _ _ := codec.asks_anything fun _ => trivial
  encodesFields _ _ _ _ _ _ _ _ := trivial
  decodesFields _ _ _ _ _ _ := trivial
  decodesParameters _ _ _ _ _ _ _ _ _ := trivial

end Serializer

end Wireform
