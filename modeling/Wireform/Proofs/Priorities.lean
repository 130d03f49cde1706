import Mathlib.Data.List.Induction
import Wireform.Proofs.Rules

/-!
# Which resolver decides

A chain is the registered resolvers sorted by descending priority, and those of one
priority stand in the order of registration. Two lists of resolvers that differ only
in how different priorities are mixed therefore have the same chain.

The first resolver of the chain that claims a context is also what is left of the
registered ones if they are gone through in the order of registration, and a later one
takes the place of the one held so far only if it claims the context at a higher
priority. A resolver that does not exceed one that claims the context and was
registered before it thus never has a say.
-/

namespace Wireform

namespace Resolver

/-- No resolver has a higher priority than one before it. -/
def Descending (chain : List Resolver) : Prop :=
  chain.Pairwise fun before after => after.priority ≤ before.priority

/-- The resolvers of one priority, in order. -/
def ofPriority (priority : Int) (resolvers : List Resolver) : List Resolver :=
  resolvers.filter fun resolver => resolver.priority = priority

/-- Of two lists, the resolvers of each priority are the same in the same order. -/
def Rearranged (resolvers others : List Resolver) : Prop :=
  ∀ priority, ofPriority priority resolvers = ofPriority priority others

/-- One more resolver to register goes into the chain of those before it. -/
theorem chain_append_singleton (registered : List Resolver) (resolver : Resolver) :
    chain (registered ++ [resolver]) = insert resolver (chain registered) := by
  simp [chain, List.foldl_append]

/-- An inserted resolver stands behind all of at least its priority. -/
theorem descending_insert (resolver : Resolver) {chain : List Resolver}
    (descending : Descending chain) : Descending (insert resolver chain) := by
  induction chain with
  | nil => exact List.pairwise_singleton _ _
  | cons head rest inductionHypothesis =>
      obtain ⟨first, others⟩ := List.pairwise_cons.mp descending
      by_cases before : head.priority < resolver.priority
      · simp only [insert, before, if_true]
        refine List.pairwise_cons.mpr ⟨?_, descending⟩
        intro other later
        rcases List.mem_cons.mp later with rfl | later
        · exact Int.le_of_lt before
        · exact Int.le_trans (first other later) (Int.le_of_lt before)
      · simp only [insert, before, if_false]
        refine List.pairwise_cons.mpr ⟨?_, inductionHypothesis others⟩
        intro other later
        rcases (mem_insert resolver other rest).mp later with rfl | later
        · exact Int.not_lt.mp before
        · exact first other later

/-- Chains are sorted by descending priority. -/
theorem descending_chain (registered : List Resolver) : Descending (chain registered) := by
  induction registered using List.reverseRecOn with
  | nil => exact List.Pairwise.nil
  | append_singleton registered resolver inductionHypothesis =>
      rw [chain_append_singleton]
      exact descending_insert resolver inductionHypothesis

/-- Among those of its priority, an inserted resolver is the last. -/
theorem ofPriority_insert (priority : Int) (resolver : Resolver) {chain : List Resolver}
    (descending : Descending chain) :
    ofPriority priority (insert resolver chain) = ofPriority priority (chain ++ [resolver]) := by
  induction chain with
  | nil => rfl
  | cons head rest inductionHypothesis =>
      obtain ⟨first, others⟩ := List.pairwise_cons.mp descending
      by_cases before : head.priority < resolver.priority
      · have lower : ∀ other ∈ head :: rest, other.priority < resolver.priority := by
          intro other later
          rcases List.mem_cons.mp later with rfl | later
          · exact before
          · exact Int.lt_of_le_of_lt (first other later) before
        simp only [insert, before, if_true]
        by_cases own : resolver.priority = priority
        -- The chain has no resolver of this priority, so that either end will do.
        · have none : ofPriority priority (head :: rest) = [] :=
            List.filter_eq_nil_iff.mpr fun other later => by
              simpa [← own] using Int.ne_of_lt (lower other later)
          simp only [ofPriority, List.filter_append] at none ⊢
          simp [none, own]
        · simp [ofPriority, own, List.filter_cons, List.filter_append]
      · have rest := inductionHypothesis others
        simp only [ofPriority] at rest
        simp only [insert, before, if_false, ofPriority, List.cons_append, List.filter_cons, rest]

/-- In a chain, the resolvers of one priority stand in the order of registration. -/
theorem ofPriority_chain (priority : Int) (registered : List Resolver) :
    ofPriority priority (chain registered) = ofPriority priority registered := by
  induction registered using List.reverseRecOn with
  | nil => rfl
  | append_singleton registered resolver inductionHypothesis =>
      rw [chain_append_singleton, ofPriority_insert priority resolver (descending_chain registered)]
      simp only [ofPriority, List.filter_append] at inductionHypothesis ⊢
      rw [inductionHypothesis]

/-- A resolver is among those of its priority. -/
theorem mem_ofPriority_self {resolver : Resolver} {resolvers : List Resolver} :
    resolver ∈ ofPriority resolver.priority resolvers ↔ resolver ∈ resolvers := by
  simp [ofPriority]

/-- A list sorted by priority is determined by its resolvers of each priority. -/
theorem eq_of_descending {resolvers others : List Resolver} (descending : Descending resolvers)
    (othersDescending : Descending others) (rearranged : Rearranged resolvers others) :
    resolvers = others := by
  have members (resolver : Resolver) : resolver ∈ resolvers ↔ resolver ∈ others := by
    rw [← mem_ofPriority_self, rearranged, mem_ofPriority_self]
  induction resolvers generalizing others with
  | nil =>
      symm
      exact List.eq_nil_iff_forall_not_mem.mpr fun resolver listed =>
        List.not_mem_nil ((members resolver).mpr listed)
  | cons head rest inductionHypothesis =>
      cases others with
      | nil => exact absurd ((members head).mp List.mem_cons_self) List.not_mem_nil
      | cons other remaining =>
          obtain ⟨first, restDescending⟩ := List.pairwise_cons.mp descending
          obtain ⟨otherFirst, remainingDescending⟩ := List.pairwise_cons.mp othersDescending
          have most : head.priority ≤ other.priority := by
            rcases List.mem_cons.mp ((members head).mp List.mem_cons_self) with rfl | later
            · exact Int.le_refl _
            · exact otherFirst head later
          have least : other.priority ≤ head.priority := by
            rcases List.mem_cons.mp ((members other).mpr List.mem_cons_self) with rfl | later
            · exact Int.le_refl _
            · exact first other later
          have same : head.priority = other.priority := Int.le_antisymm most least
          have heads : head = other := by
            have filtered := rearranged head.priority
            simp only [ofPriority, List.filter_cons, same, decide_true, if_true] at filtered
            exact (List.cons.inj filtered).1
          subst heads
          have tails : Rearranged rest remaining := by
            intro priority
            have filtered := rearranged priority
            simp only [ofPriority, List.filter_cons] at filtered ⊢
            split at filtered
            · exact (List.cons.inj filtered).2
            · exact filtered
          have tailMembers (resolver : Resolver) : resolver ∈ rest ↔ resolver ∈ remaining := by
            rw [← mem_ofPriority_self, tails, mem_ofPriority_self]
          rw [inductionHypothesis restDescending remainingDescending tails tailMembers]

/-- How different priorities are mixed at registration makes no difference to the chain. -/
theorem Rearranged.chain_eq {resolvers others : List Resolver}
    (rearranged : Rearranged resolvers others) : chain resolvers = chain others := by
  refine eq_of_descending (descending_chain resolvers) (descending_chain others) fun priority => ?_
  rw [ofPriority_chain, ofPriority_chain, rearranged priority]

/-- Of two resolvers the one to hold: the later one only if it claims the context at a higher
    priority than the one held so far. -/
def prefer (context : Context) (held : Option Resolver) (resolver : Resolver) :
    Option Resolver :=
  if resolver.claims context then
    match held with
    | none => some resolver
    | some best => if best.priority < resolver.priority then some resolver else some best
  else held

/-- What is left of the registered resolvers, gone through in the order of registration. -/
def best (context : Context) (registered : List Resolver) : Option Resolver :=
  registered.foldl (prefer context) none

/-- The first that claims a context in a chain with one more resolver is the better one of that
    resolver and the first so far. -/
theorem find?_insert_of_descending (context : Context) (resolver : Resolver)
    {chain : List Resolver} (descending : Descending chain) :
    (insert resolver chain).find? (fun other => other.claims context)
      = prefer context (chain.find? fun other => other.claims context) resolver := by
  induction chain with
  | nil => cases claimed : resolver.claims context <;> simp [insert, prefer, claimed]
  | cons head rest inductionHypothesis =>
      obtain ⟨first, others⟩ := List.pairwise_cons.mp descending
      by_cases before : head.priority < resolver.priority
      · simp only [insert, before, if_true]
        cases claimed : resolver.claims context with
        | false => simp [prefer, claimed]
        | true =>
            have lower : ∀ other, (head :: rest).find? (fun other => other.claims context)
                = some other → other.priority < resolver.priority := by
              intro other found
              rcases List.mem_cons.mp (List.mem_of_find?_eq_some found) with rfl | later
              · exact before
              · exact Int.lt_of_le_of_lt (first other later) before
            cases found : (head :: rest).find? (fun other => other.claims context) with
            | none => simp [prefer, claimed]
            | some other => simp [prefer, claimed, lower other found]
      · simp only [insert, before, if_false]
        cases headClaims : head.claims context with
        | false => simpa [headClaims] using inductionHypothesis others
        | true => cases claimed : resolver.claims context <;>
            simp [prefer, headClaims, claimed, before]

/-- The first resolver of a chain that claims a context is the best of those registered. -/
theorem find?_chain_eq_best (context : Context) (registered : List Resolver) :
    (chain registered).find? (fun resolver => resolver.claims context)
      = best context registered := by
  induction registered using List.reverseRecOn with
  | nil => rfl
  | append_singleton registered resolver inductionHypothesis =>
      rw [chain_append_singleton, find?_insert_of_descending context resolver
        (descending_chain registered), inductionHypothesis]
      simp [best, List.foldl_append]

/-- The resolver claims the context, none that claims it has a higher priority, and none of
    those before it has its priority and claims it. -/
structure Foremost (context : Context) (registered : List Resolver) (resolver : Resolver) :
    Prop where
  claims : resolver.claims context = true
  highest : ∀ other ∈ registered, other.claims context = true →
    other.priority ≤ resolver.priority
  earliest : ∃ earlier later, registered = earlier ++ resolver :: later ∧
    ∀ other ∈ earlier, other.claims context = true → other.priority < resolver.priority

/-- There is a best resolver unless none claims the context. -/
theorem best_eq_none_iff (context : Context) (registered : List Resolver) :
    best context registered = none ↔ ∀ resolver ∈ registered, resolver.claims context = false := by
  rw [← find?_chain_eq_best, List.find?_eq_none]
  simp only [mem_chain, Bool.not_eq_true]

/-- Either the resolver held so far stays, or the later one claims the context at a higher
    priority. -/
theorem prefer_eq_some {context : Context} {held : Option Resolver} {last resolver : Resolver}
    (preferred : prefer context held last = some resolver) :
    (held = some resolver ∧
        (last.claims context = true → last.priority ≤ resolver.priority)) ∨
      (last = resolver ∧ last.claims context = true ∧
        ∀ other, held = some other → other.priority < last.priority) := by
  unfold prefer at preferred
  split at preferred
  · next claimed =>
      cases held with
      | none => exact .inr ⟨Option.some.inj preferred, claimed, fun _ none => by cases none⟩
      | some best =>
          by_cases lower : best.priority < last.priority
          · simp only [lower, if_true, Option.some.injEq] at preferred
            refine .inr ⟨preferred, claimed, fun other same => ?_⟩
            cases same
            exact lower
          · simp only [lower, if_false, Option.some.injEq] at preferred
            cases preferred
            exact .inl ⟨rfl, fun _ => Int.not_lt.mp lower⟩
  · next unclaimed => exact .inl ⟨preferred, fun claimed => absurd claimed unclaimed⟩

/-- A resolver stays foremost if one that does not exceed it is registered. -/
theorem Foremost.append {context : Context} {registered : List Resolver}
    {resolver last : Resolver} (foremost : Foremost context registered resolver)
    (bounded : last.claims context = true → last.priority ≤ resolver.priority) :
    Foremost context (registered ++ [last]) resolver := by
  obtain ⟨claims, highest, earlier, later, split, before⟩ := foremost
  refine ⟨claims, ?_, earlier, later ++ [last], by simp [split], before⟩
  intro other listed otherClaims
  rcases List.mem_append.mp listed with old | new
  · exact highest other old otherClaims
  · cases List.mem_singleton.mp new
    exact bounded otherClaims

/-- A resolver that claims the context is foremost if all that claim it so far are below. -/
theorem foremost_last {context : Context} {registered : List Resolver} {last : Resolver}
    (claims : last.claims context = true)
    (below : ∀ other ∈ registered, other.claims context = true → other.priority < last.priority) :
    Foremost context (registered ++ [last]) last := by
  refine ⟨claims, ?_, registered, [], rfl, below⟩
  intro other listed otherClaims
  rcases List.mem_append.mp listed with old | new
  · exact Int.le_of_lt (below other old otherClaims)
  · cases List.mem_singleton.mp new
    exact Int.le_refl _

/-- The best resolver stands at the first place among those of the highest priority that claim
    the context. -/
theorem foremost_of_best {context : Context} {registered : List Resolver} {resolver : Resolver}
    (found : best context registered = some resolver) : Foremost context registered resolver := by
  induction registered using List.reverseRecOn generalizing resolver with
  | nil => cases found
  | append_singleton registered last inductionHypothesis =>
      have preferred : prefer context (best context registered) last = some resolver := by
        simpa [best, List.foldl_append] using found
      rcases prefer_eq_some preferred with ⟨held, bounded⟩ | ⟨rfl, claimed, higher⟩
      · exact (inductionHypothesis held).append bounded
      · refine foremost_last claimed fun other listed otherClaims => ?_
        cases held : best context registered with
        | none =>
            have unclaimed := (best_eq_none_iff context registered).mp held other listed
            exact absurd otherClaims (by simp [unclaimed])
        | some best =>
            exact Int.lt_of_le_of_lt
              ((inductionHypothesis held).highest other listed otherClaims) (higher best held)

/-- A resolver has no say if one of at least its priority was registered before it and claims
    the context. -/
theorem best_of_outranked {context : Context} {front : List Resolver} {resolver other : Resolver}
    (before : other ∈ front) (claims : other.claims context = true)
    (outranked : resolver.priority ≤ other.priority) (back : List Resolver) :
    best context (front ++ resolver :: back) = best context (front ++ back) := by
  have kept : prefer context (best context front) resolver = best context front := by
    cases held : best context front with
    | none =>
        have unclaimed := (best_eq_none_iff context front).mp held other before
        exact absurd claims (by simp [unclaimed])
    | some best =>
        have least := Int.le_trans outranked ((foremost_of_best held).highest other before claims)
        simp [prefer, Int.not_lt.mpr least]
  simp only [best] at kept
  simp only [best, List.foldl_append, List.foldl_cons, kept]

/-- The same resolvers may stand before both. -/
theorem Rearranged.append_left {resolvers others : List Resolver}
    (rearranged : Rearranged resolvers others) (front : List Resolver) :
    Rearranged (front ++ resolvers) (front ++ others) := by
  intro priority
  have same := rearranged priority
  simp only [ofPriority, List.filter_append] at same ⊢
  rw [same]

/-- The resolver makes the answer of the chain, those before it do not claim the context, and
    whatever stands behind it makes no difference. -/
def Decides (chain : List Resolver) (context : Context) (resolver : Resolver) : Prop :=
  ∃ before after, chain = before ++ resolver :: after ∧
    (∀ other ∈ before, other.claims context = false) ∧
    ∀ others, resolve (before ++ resolver :: others) context = some <$> resolver.make context

/-- The first resolver of a chain that claims the context decides. -/
theorem decides_of_find? {chain : List Resolver} {context : Context} {resolver : Resolver}
    (found : chain.find? (fun other => other.claims context) = some resolver) :
    Decides chain context resolver := by
  obtain ⟨claims, before, after, split, unclaimed⟩ := List.find?_eq_some_iff_append.mp found
  refine ⟨before, after, split, fun other earlier => by simpa using unclaimed other earlier, ?_⟩
  intro others
  have first : (before ++ resolver :: others).find? (fun other => other.claims context)
      = some resolver :=
    List.find?_eq_some_iff_append.mpr ⟨claims, before, others, rfl, unclaimed⟩
  simp only [resolve, first]

/-- The answer of a chain is what the best of the registered resolvers makes. -/
theorem resolve_chain (registered : List Resolver) (context : Context) :
    resolve (chain registered) context =
      match best context registered with
      | some resolver => some <$> resolver.make context
      | none => .ok none := by
  cases found : best context registered <;> simp only [resolve, find?_chain_eq_best, found]

/-- A chain has no answer exactly if none of the registered resolvers claims the context. -/
theorem resolve_chain_eq_none_iff (registered : List Resolver) (context : Context) :
    resolve (chain registered) context = .ok none ↔
      ∀ resolver ∈ registered, resolver.claims context = false := by
  rw [← best_eq_none_iff, resolve_chain]
  cases best context registered with
  | none => simp
  | some resolver => cases made : resolver.make context <;> simp [made]

end Resolver

namespace Serializer

/-- Without a user resolver that does not exceed a built-in one that claims the context, the
    chain of a serializer has the same answer. -/
theorem resolve_build_of_outranked {schema : Schema} (config : Config)
    (transforms : List Transform) (nesting : Context → Nat) {context : Context}
    (front back : List Resolver) {resolver own : Resolver} (builtin : own ∈ Resolver.builtin schema)
    (claims : own.claims context = true) (outranked : resolver.priority ≤ own.priority) :
    Resolver.resolve
        (build schema config (front ++ resolver :: back) transforms nesting).resolvers context
      = Resolver.resolve (build schema config (front ++ back) transforms nesting).resolvers
          context := by
  have same := Resolver.best_of_outranked (List.mem_append_left front builtin) claims outranked back
  simp only [List.append_assoc] at same
  simp only [build, Resolver.resolve_chain, same]

/-- What decides about a context is, of all resolvers that claim it, the first one registered
    with the highest priority, the built-in ones counting as registered first. It makes the
    answer whatever stands behind it in the chain, and there is no answer exactly if none
    claims the context. How different priorities are mixed at registration changes nothing
    about the serializer, and a user resolver that does not exceed a built-in one changes
    nothing at the contexts that the built-in one claims. -/
theorem resolution_is_stable (schema : Schema) (config : Config) (users : List Resolver)
    (transforms : List Transform) (nesting : Context → Nat) (context : Context) :
    let registered := Resolver.builtin schema ++ users
    let serializer := build schema config users transforms nesting
    ((∃ resolver, Resolver.Foremost context registered resolver ∧
          Resolver.Decides serializer.resolvers context resolver ∧
          Resolver.resolve serializer.resolvers context = some <$> resolver.make context) ∨
        ∀ resolver ∈ registered, resolver.claims context = false) ∧
      (Resolver.resolve serializer.resolvers context = .ok none ↔
        ∀ resolver ∈ registered, resolver.claims context = false) ∧
      (∀ others, Resolver.Rearranged users others →
        build schema config others transforms nesting = serializer) ∧
      ∀ front resolver back own, users = front ++ resolver :: back →
        own ∈ Resolver.builtin schema → own.claims context = true →
        resolver.priority ≤ own.priority →
        let without := build schema config (front ++ back) transforms nesting
        serializer.resolve context = without.resolve context ∧
          serializer.freshCodec context = without.freshCodec context ∧
          serializer.codecFor context = without.codecFor context := by
  intro registered serializer
  refine ⟨?_, Resolver.resolve_chain_eq_none_iff registered context, ?_, ?_⟩
  · cases found : Resolver.best context registered with
    | none => exact .inr ((Resolver.best_eq_none_iff context registered).mp found)
    | some resolver =>
        refine .inl ⟨resolver, Resolver.foremost_of_best found, ?_, ?_⟩
        · exact Resolver.decides_of_find?
            ((Resolver.find?_chain_eq_best context registered).trans found)
        · have answer := Resolver.resolve_chain registered context
          rwa [found] at answer
  · intro others rearranged
    have chains := (rearranged.append_left (Resolver.builtin schema)).chain_eq
    simp only [serializer, build, chains]
  · rintro front resolver back own rfl builtin claims outranked without
    have answers : Resolver.resolve serializer.resolvers context
        = Resolver.resolve without.resolvers context :=
      resolve_build_of_outranked config transforms nesting front back builtin claims outranked
    have resolved : serializer.resolve context = without.resolve context := by
      simp only [resolve, answers]
      rfl
    have fresh : serializer.freshCodec context = without.freshCodec context := by
      simp only [freshCodec, baseCodec, answers]
      rfl
    refine ⟨resolved, fresh, ?_⟩
    unfold codecFor
    rw [fresh]
    rfl

/-- A user resolver for a leaf at the priority of the primitives never comes into play. -/
theorem tied_resolver_is_ignored :
    let own := Resolver.exact Resolver.primitivePriority (.leaf .i32) (Codec.leaf .i32)
    let tied := Resolver.exact 400 (.leaf .i32) (Codec.leaf .i64)
    let context := Context.of (.leaf .i32)
    own ∈ Resolver.builtin { entries := [] } ∧ own.claims context = true ∧
      tied.claims context = true ∧ tied.priority ≤ own.priority ∧
      (build { entries := [] } {} [tied]).freshCodec context
        = (build { entries := [] } {} []).freshCodec context := by
  intro own tied context
  have builtin : own ∈ Resolver.builtin { entries := [] } := by
    simp [own, Resolver.builtin, Resolver.primitives]
  have claims : own.claims context = true := by decide
  have outranked : tied.priority ≤ own.priority := by decide
  exact ⟨builtin, claims, by decide, outranked,
    ((resolution_is_stable { entries := [] } {} [tied] [] (Schema.depth { entries := [] })
      context).2.2.2 [] tied [] own rfl builtin claims outranked).2.1⟩

end Serializer

end Wireform
