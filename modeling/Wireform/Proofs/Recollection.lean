import Mathlib.Data.List.Infix
import Mathlib.Data.List.Perm.Subperm
import Wireform.Proofs.Census

/-!
# Each site is resolved once

Between two calls that reset it, a memory reports a site for which it has resolved a codec at most
once, since it remembers the codec there and looks there first. So what it remembers are the sites
that it has reported since the last reset, each once, and their number does not decrease until the
next one. A site for which no codec could be made is not among them. All this is so for any rules
and however calls end, and where codecs are not to be remembered, none is.

If calls stay within a closed list of types, and no rules of a user's apply to these, what is
remembered are sites of these types, however many values there are and however large.
-/

namespace Wireform

/-! ## Accounts of a memory -/

/-- The site under which the codec that was resolved is remembered. -/
def Event.site? : Event → Option Site
  | .resolvedCodec _ site => site
  | _ => none

namespace Memory

/-- The sites under which codecs were remembered that were resolved, newest first. -/
def resolvedSites (events : List Event) : List Site := events.filterMap Event.site?

/-- What was reported since the last reset. -/
def recent (memory : Memory) : List Event :=
  memory.events.takeWhile fun event => event ≠ .resetCache

/-- The sites for which a codec is remembered. -/
def remembered (memory : Memory) : List Site := memory.cache.map Prod.fst

/-- What is remembered was reported since the last reset, and no site was reported twice between
    two resets. -/
structure Accounted (memory : Memory) : Prop where
  told : memory.remembered = resolvedSites memory.recent
  once : memory.remembered.Nodup
  stretches : ∀ stretch, stretch <:+: memory.events → .resetCache ∉ stretch →
    (resolvedSites stretch).Nodup

/-- Events at the front of a list that has no reset are at the front of what is recent. -/
theorem prefix_recent (memory : Memory) {front : List Event} (leads : front <+: memory.events)
    (silent : .resetCache ∉ front) : front <+: memory.recent := by
  obtain ⟨rest, same⟩ := leads
  have all : ∀ event ∈ front, decide (event ≠ .resetCache) = true := by
    intro event among
    rw [decide_eq_true_iff]
    rintro rfl
    exact silent among
  unfold recent
  rw [← same, List.takeWhile_append_of_pos all]
  exact List.prefix_append _ _

/-- A memory that remembers nothing and has reported one event. -/
theorem accounted_single (event : Event) (unsited : event.site? = none) :
    Accounted ⟨[], [event]⟩ := by
  have silent : resolvedSites [event] = [] := by simp [resolvedSites, unsited]
  refine ⟨?_, List.nodup_nil, fun stretch inside _ => ?_⟩
  · by_cases reset : event = .resetCache
    · simp [recent, remembered, resolvedSites, reset]
    · simp [recent, remembered, resolvedSites, reset, unsited]
  · have fewer : (resolvedSites stretch).Sublist (resolvedSites [event]) :=
      (inside.sublist).filterMap _
    exact (List.nodup_nil (α := Site)).sublist (silent ▸ fewer)

/-- Resetting keeps the account. -/
theorem Accounted.reset {memory : Memory} (accounted : memory.Accounted) :
    (Serializer.reset memory).Accounted := by
  refine ⟨rfl, List.nodup_nil, fun stretch inside silent => ?_⟩
  rcases List.infix_cons_iff.mp inside with leads | earlier
  · cases stretch with
    | nil => exact List.nodup_nil
    | cons event rest =>
        have first := (List.cons_prefix_cons.mp leads).1
        exact absurd (first ▸ List.mem_cons_self) silent
  · exact accounted.stretches stretch earlier silent

/-- An event other than a reset keeps the account, if the site that it reports is new and is
    remembered along with it. -/
theorem Accounted.report {memory : Memory} (accounted : memory.Accounted) {event : Event}
    {cache : Cache} (other : event ≠ .resetCache)
    (kept : cache.map Prod.fst = event.site?.toList ++ memory.remembered)
    (new : ∀ site, event.site? = some site → site ∉ memory.remembered) :
    Accounted ⟨cache, event :: memory.events⟩ := by
  have told : remembered ⟨cache, event :: memory.events⟩
      = resolvedSites (recent ⟨cache, event :: memory.events⟩) := by
    simp only [remembered, kept, recent, List.takeWhile_cons, ne_eq, other, not_false_eq_true,
      decide_true, if_true, resolvedSites, List.filterMap_cons]
    have before := accounted.told
    simp only [remembered, resolvedSites, recent] at before
    cases event.site? <;> simp [before]
  have once : (remembered ⟨cache, event :: memory.events⟩).Nodup := by
    simp only [remembered, kept]
    cases reported : event.site? with
    | none => exact accounted.once
    | some site => exact List.nodup_cons.mpr ⟨new site reported, accounted.once⟩
  refine ⟨told, once, fun stretch inside silent => ?_⟩
  rcases List.infix_cons_iff.mp inside with leads | earlier
  -- A stretch that ends now reports no more than is remembered.
  · have fewer := (prefix_recent ⟨cache, event :: memory.events⟩ leads silent).sublist
    refine once.sublist ?_
    rw [told]
    exact fewer.filterMap _
  · exact accounted.stretches stretch earlier silent

end Memory

namespace Serializer

variable {serializer : Serializer}

/-- A site that has no codec in a cache is not among those of the cache. -/
theorem not_mem_of_find?_eq_none {memory : Memory} {site : Site}
    (new : memory.cache.find? site = none) : site ∉ memory.remembered := by
  intro among
  obtain ⟨entry, listed, rfl⟩ := List.mem_map.mp among
  have absent := Option.map_eq_none_iff.mp new
  simpa using List.find?_eq_none.mp absent entry listed

/-- Learning keeps the account. -/
theorem Learns.accounted {before after : Memory} (learns : serializer.Learns before after)
    (accounted : before.Accounted) : after.Accounted := by
  cases learns with
  | descended type depth =>
      exact accounted.report (fun same => by cases same) rfl fun _ impossible => by cases impossible
  | passed context codec unnamed made =>
      exact accounted.report (fun same => by cases same) rfl fun _ impossible => by cases impossible
  | remembered context site codec named new made =>
      refine accounted.report (fun same => by cases same) rfl fun other same => ?_
      cases same
      exact not_mem_of_find?_eq_none new

/-- Learning forgets nothing. -/
theorem Learns.suffix {before after : Memory} (learns : serializer.Learns before after) :
    before.cache <:+ after.cache := by
  cases learns with
  | descended type depth => exact List.suffix_refl _
  | passed context codec unnamed made => exact List.suffix_refl _
  | remembered context site codec named new made => exact List.suffix_cons _ _

/-- Every codec that is remembered was made for a context at its site. -/
def Founded (serializer : Serializer) (memory : Memory) : Prop :=
  ∀ entry ∈ memory.cache, ∃ context : Context, context.site = some entry.1 ∧
    serializer.freshCodec context = .ok entry.2

/-- A site is looked for only if codecs are to be remembered and the context has it. -/
theorem siteFor_eq_some {context : Context} {site : Site}
    (named : serializer.siteFor context = some site) :
    serializer.config.cacheCodecs = true ∧ context.site = some site := by
  unfold siteFor at named
  split at named
  · next caches => exact ⟨caches, named⟩
  · cases named

/-- What is learnt was made for a context at its site. -/
theorem Learns.founded {before after : Memory} (learns : serializer.Learns before after)
    (founded : serializer.Founded before) : serializer.Founded after := by
  cases learns with
  | descended type depth => exact founded
  | passed context codec unnamed made => exact founded
  | remembered context site codec named new made =>
      intro entry among
      rcases List.mem_cons.mp among with rfl | earlier
      · exact ⟨context, (siteFor_eq_some named).2, made⟩
      · exact founded entry earlier

/-- Where codecs are not to be remembered, none is learnt. -/
theorem Learns.forgetful {before after : Memory} (learns : serializer.Learns before after)
    (forgetful : serializer.config.cacheCodecs = false) (empty : before.cache = []) :
    after.cache = [] := by
  cases learns with
  | descended type depth => exact empty
  | passed context codec unnamed made => exact empty
  | remembered context site codec named new made =>
      exact absurd (siteFor_eq_some named).1 (by simp [forgetful])

end Serializer

/-! ## Calls -/

namespace Call

/-- The context that a call starts with. -/
def start? : Call → Option Context
  | .encode value => some (Serializer.root value.type (some value))
  | .encodeContext context => some context
  | .encodeInto value _ _ => some (Serializer.root value.type (some value))
  | .decode type _ => some (Serializer.root type none)
  | .decodeFrom type _ _ => some (Serializer.root type none)
  | .decodeType type _ _ => some (Serializer.root type none)
  | .reset => none

/-- The call is for one of the given types, or brings a context within them. -/
def Within (schema : Schema) (types : List Ty) : Call → Prop
  | .encode value => value.type ∈ types
  | .encodeContext context => context.Within schema types
  | .encodeInto value _ _ => value.type ∈ types
  | .decode type _ => type ∈ types
  | .decodeFrom type _ _ => type ∈ types
  | .decodeType type _ _ => type ∈ types
  | .reset => True

/-- A call within the types starts with a context within them. -/
theorem Within.start {schema : Schema} {types : List Ty} {call : Call}
    (within : call.Within schema types) {context : Context} (starts : call.start? = some context) :
    context.Within schema types := by
  cases call with
  | encodeContext own => cases starts; exact within
  | reset => cases starts
  | _ => cases starts; exact Context.within_root within _

variable {serializer : Serializer}

/-- A call resets the memory, or leaves of it what a walk leaves that starts with its context. -/
theorem run_cases (serializer : Serializer) (call : Call) (memory : Memory) :
    (call = .reset ∧ (call.run serializer memory).2 = Serializer.reset memory) ∨
      call ≠ .reset ∧ ∃ context request buffer, call.start? = some context ∧
        (request = .encode context ∨ request = .decode context) ∧
        (call.run serializer memory).2
          = (Step.left (serializer.walk context request buffer memory)).memory := by
  cases call with
  | encode value =>
      refine .inr ⟨by simp, _, _, serializer.writer, rfl, .inl rfl, ?_⟩
      simp only [run, snd_settled]
      exact serializer.left_encodeContext memory _
  | encodeContext context =>
      refine .inr ⟨by simp, _, _, serializer.writer, rfl, .inl rfl, ?_⟩
      simp only [run, snd_settled]
      exact serializer.left_encodeContext memory context
  | encodeInto value contents limits =>
      refine .inr ⟨by simp, _, _, serializer.buffer contents limits, rfl, .inl rfl, ?_⟩
      simp only [run, snd_ended]
      rfl
  | decode type bytes =>
      refine .inr ⟨by simp, _, _, serializer.reader bytes, rfl, .inr rfl, ?_⟩
      simp only [run, snd_settled, Serializer.left_decode, Serializer.left_decodeFrom]
      rfl
  | decodeFrom type contents limits =>
      refine .inr ⟨by simp, _, _, serializer.buffer contents limits, rfl, .inr rfl, ?_⟩
      simp only [run, snd_ended, Serializer.left_decodeFrom]
      rfl
  | decodeType type contents limits =>
      refine .inr ⟨by simp, _, _, serializer.buffer contents limits, rfl, .inr rfl, ?_⟩
      simp only [run, snd_ended]
      rfl
  | reset => exact .inl ⟨rfl, rfl⟩

/-- A call that starts with an admitted context keeps a property of the memory that resetting
    keeps. -/
theorem keeps_run_confined {keeps : Memory → Prop} {admits : Request → Prop}
    (confines : serializer.Confines keeps admits)
    (resets : ∀ memory, keeps memory → keeps (Serializer.reset memory)) (call : Call)
    (admitted : ∀ context, call.start? = some context →
      admits (.encode context) ∧ admits (.decode context))
    (memory : Memory) (kept : keeps memory) : keeps (call.run serializer memory).2 := by
  rcases call.run_cases serializer memory with
    ⟨-, same⟩ | ⟨-, context, request, buffer, starts, asks, same⟩
  · rw [same]
    exact resets memory kept
  · have known : admits request := by
      rcases asks with rfl | rfl
      · exact (admitted context starts).1
      · exact (admitted context starts).2
    have ended := confines.guards_serve (serializer.nesting context) request known
      { buffer := buffer, memory := memory } kept
    rw [same]
    unfold Serializer.walk
    split at ended
    · next happened => rw [happened]; exact ended.1
    · next happened => rw [happened]; exact ended

/-- A call that does not reset the memory only learns. -/
theorem learns_run (serializer : Serializer) (call : Call) (memory : Memory)
    (other : call ≠ .reset) :
    Relation.ReflTransGen serializer.Learns memory (call.run serializer memory).2 := by
  rcases call.run_cases serializer memory with
    ⟨same, -⟩ | ⟨-, context, request, buffer, -, -, same⟩
  · exact absurd same other
  · have ended := (serializer.confines_learning memory).guards_serve (serializer.nesting context)
      request trivial { buffer := buffer, memory := memory } .refl
    rw [same]
    unfold Serializer.walk
    split at ended
    · next happened => rw [happened]; exact ended.1
    · next happened => rw [happened]; exact ended

/-- A call keeps what learning and resetting keep. -/
theorem keeps_run_learning {keeps : Memory → Prop}
    (learns : ∀ before after, serializer.Learns before after → keeps before → keeps after)
    (resets : ∀ memory, keeps memory → keeps (Serializer.reset memory)) (call : Call)
    (memory : Memory) (kept : keeps memory) : keeps (call.run serializer memory).2 := by
  by_cases reset : call = .reset
  · rw [reset]
    exact resets memory kept
  · have learnt := call.learns_run serializer memory reset
    generalize (call.run serializer memory).2 = after at learnt
    induction learnt with
    | refl => exact kept
    | tail _ step inductionHypothesis => exact learns _ _ step inductionHypothesis

end Call

namespace Serializer

/-- The memory of a serializer after calls that are made one after another. -/
def after (serializer : Serializer) (calls : List Call) : Memory :=
  calls.foldl (fun memory call => (call.run serializer memory).2) serializer.start

variable {serializer : Serializer}

/-- What a new memory has and every call keeps is so after all calls. -/
theorem keeps_after (keeps : Memory → Prop) (calls : List Call) (starts : keeps serializer.start)
    (runs : ∀ call ∈ calls, ∀ memory, keeps memory → keeps (call.run serializer memory).2) :
    keeps (serializer.after calls) := by
  unfold after
  generalize serializer.start = memory at starts
  induction calls generalizing memory with
  | nil => exact starts
  | cons call rest inductionHypothesis =>
      obtain ⟨first, later⟩ := List.forall_mem_cons.mp runs
      exact inductionHypothesis later _ (first memory starts)

/-- One more call goes on from the memory of those before it. -/
theorem after_append (calls : List Call) (call : Call) :
    serializer.after (calls ++ [call]) = (call.run serializer (serializer.after calls)).2 := by
  simp [after, List.foldl_append]

/-- The account is kept through all calls. -/
theorem accounted_after (calls : List Call) : (serializer.after calls).Accounted :=
  keeps_after _ calls (Memory.accounted_single _ rfl) fun call _ => call.keeps_run_learning
    (fun _ _ learns => learns.accounted) fun _ accounted => accounted.reset

/-- What is remembered after any calls was made for contexts at its sites. -/
theorem founded_after (calls : List Call) : serializer.Founded (serializer.after calls) :=
  keeps_after _ calls (fun _ impossible => by cases impossible) fun call _ =>
    call.keeps_run_learning (fun _ _ learns => learns.founded)
      fun _ _ _ impossible => by cases impossible

/-- Where codecs are not to be remembered, none is remembered after any calls. -/
theorem forgetful_after (serializer : Serializer) (forgetful : serializer.config.cacheCodecs = false) (calls : List Call) :
    (serializer.after calls).cache = [] :=
  keeps_after (fun memory => memory.cache = []) calls rfl fun call _ =>
    call.keeps_run_learning (fun _ _ learns => learns.forgetful forgetful) fun _ _ => rfl

/-- A call that does not reset the memory forgets nothing. -/
theorem suffix_after (serializer : Serializer) (calls : List Call) (call : Call) (other : call ≠ .reset) :
    (serializer.after calls).cache <:+ (serializer.after (calls ++ [call])).cache := by
  rw [after_append]
  have learnt := call.learns_run serializer (serializer.after calls) other
  generalize (call.run serializer (serializer.after calls)).2 = later at learnt
  induction learnt with
  | refl => exact List.suffix_refl _
  | tail _ step inductionHypothesis => exact inductionHypothesis.trans step.suffix

/-- What is remembered after calls within a closed list of types are sites of these types, if no
    rules of a user's apply to them. -/
theorem knows_after (serializer : Serializer) {types : List Ty} (closed : serializer.schema.Closed types)
    (ordinary : ∀ context, context.Within serializer.schema types →
      serializer.freshCodec context
        = (build serializer.schema serializer.config).freshCodec context)
    (calls : List Call) (within : ∀ call ∈ calls, call.Within serializer.schema types) :
    Knows serializer.schema types (serializer.after calls) := by
  have nothing (events : List Event) : Knows serializer.schema types ⟨[], events⟩ :=
    ⟨(fun _ impossible => by cases impossible), (fun _ impossible => by cases impossible)⟩
  refine keeps_after _ calls (nothing _) fun call listed => ?_
  exact call.keeps_run_confined (confines_within closed ordinary) (fun _ _ => nothing _)
    fun context starts => ⟨(within call listed).start starts, (within call listed).start starts⟩

/-- A failure to resolve a codec leaves no trace. -/
theorem unchanged_of_codecFor_error {context : Context} {state after : Walk.State} {error : Error}
    (failed : serializer.codecFor context state = .error error after) :
    serializer.freshCodec context = .error error ∧ after = state := by
  rcases serializer.codecFor_cases context state with
    ⟨_, _, -, -, same⟩ | ⟨cause, made, same⟩ | ⟨_, _, -, -, -, same⟩
  · rw [same] at failed
    cases failed
  · rw [same] at failed
    cases failed
    exact ⟨made, rfl⟩
  · rw [same] at failed
    cases failed

/-- Between two resets no site is reported twice as one for which a codec was resolved. What is
    remembered are the sites reported since the last reset, and there are as many of them as were
    reported; none is forgotten but by a reset, which forgets all. A failure to resolve a codec
    leaves no trace, and every remembered codec was made for a context at its site. If all calls stay
    within a closed list of types to which no rules of a user's apply, then only sites of these types
    are remembered, so that their number is bounded. Where codecs are not to be remembered, none
    is. -/
theorem sites_resolved_once (schema : Schema) (config : Config) (resolvers : List Resolver)
    (transforms : List Transform) (nesting : Context → Nat) (calls : List Call) :
    let caching := build schema { config with cacheCodecs := true } resolvers transforms nesting
    let forgetful := build schema { config with cacheCodecs := false } resolvers transforms nesting
    let memory := caching.after calls
    (∀ stretch, stretch <:+: memory.events → .resetCache ∉ stretch →
        (Memory.resolvedSites stretch).Nodup) ∧
      memory.remembered = Memory.resolvedSites memory.recent ∧
      cached memory = (Memory.resolvedSites memory.recent).length ∧
      (∀ call, let later := caching.after (calls ++ [call])
        (call = .reset → cached later = 0) ∧
          (call ≠ .reset → memory.cache <:+ later.cache ∧ cached memory ≤ cached later)) ∧
      (∀ context state error after, caching.codecFor context state = .error error after →
        caching.freshCodec context = .error error ∧ after = state) ∧
      (∀ entry ∈ memory.cache, ∃ context : Context, context.site = some entry.1 ∧
        caching.freshCodec context = .ok entry.2) ∧
      (∀ types, schema.Closed types → (∀ call ∈ calls, call.Within schema types) →
        (∀ context, context.Within schema types →
          caching.freshCodec context = (build schema config).freshCodec context) →
        (∀ site ∈ memory.remembered, site ∈ schema.sites types) ∧
          cached memory ≤ (schema.sites types).length) ∧
      (∀ types : List Ty, ∃ whole, schema.Closed whole ∧ ∀ type ∈ types, type ∈ whole) ∧
      cached (forgetful.after calls) = 0 := by
  intro caching forgetful memory
  have accounted : memory.Accounted := accounted_after calls
  have counted : cached memory = memory.remembered.length := (List.length_map _).symm
  refine ⟨accounted.stretches, accounted.told, by rw [counted, accounted.told], ?_, ?_,
    founded_after calls, ?_, schema.exists_closed, ?_⟩
  · intro call later
    constructor
    · rintro rfl
      simp only [later, after_append]
      rfl
    · intro other
      have kept := caching.suffix_after calls call other
      exact ⟨kept, kept.length_le⟩
  · exact fun context state error after failed => unchanged_of_codecFor_error failed
  · intro types closed within ordinary
    have knows : Knows schema types memory := caching.knows_after closed ordinary calls within
    have among : ∀ site ∈ memory.remembered, site ∈ schema.sites types := by
      intro site listed
      obtain ⟨entry, held, rfl⟩ := List.mem_map.mp listed
      exact knows.sites entry held
    refine ⟨among, ?_⟩
    rw [counted]
    exact (List.subperm_of_subset accounted.once among).length_le
  · have empty := forgetful.forgetful_after rfl calls
    simp only [cached, empty, List.length_nil]

/-- However many numbers are in the vectors of a client, and however its calls end, three sites are
    all that its serializer can come to know: those of the two types as roots, and that of the
    elements. -/
theorem sites_resolved_once_numbers :
    let numbers (count : Nat) : Value :=
      .sequence (.vector .i32) (List.replicate count (.i32 7))
    let calls (count : Nat) : List Call :=
      [.encode (numbers count), .decode (.vector .i32) [1, 2, 3], .reset,
        .encodeInto (numbers count) (.unread []) none, .encode (numbers count)]
    let schema : Schema := { entries := [] }
    let types : List Ty := [.vector .i32, .i32]
    schema.Closed types ∧ (∀ count, ∀ call ∈ calls count, call.Within schema types) ∧
      schema.sites types = [.root (.vector .i32), .root .i32, .element .i32] ∧
      ∀ count, cached ((build schema { cacheCodecs := true } [] []).after (calls count)) ≤ 3 := by
  intro numbers calls schema types
  have closed : schema.Closed types := by
    unfold Schema.Closed
    decide
  have sites : schema.sites types = [.root (.vector .i32), .root .i32, .element .i32] := by decide
  have within (count : Nat) : ∀ call ∈ calls count, call.Within schema types := by
    have own : Ty.vector .i32 ∈ types := List.mem_cons_self
    simp only [calls, List.forall_mem_cons, List.not_mem_nil, false_implies, implies_true, and_true]
    exact ⟨own, own, trivial, own, own⟩
  refine ⟨closed, within, sites, fun count => ?_⟩
  have bounded := (sites_resolved_once schema {} [] [] schema.depth (calls count)).2.2.2.2.2.2.1
    types closed (within count) fun _ _ => rfl
  rw [sites] at bounded
  exact bounded.2

end Serializer

end Wireform
