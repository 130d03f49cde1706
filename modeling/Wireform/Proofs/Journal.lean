import Wireform.Proofs.Answer

/-!
# Journals of walks

The stack of aggregate types is to be what it says it is: the types that enclose the place
where a walk is at work, each of them once. Nothing in the state of a walk tells what
encloses a place, so the claim needs something to be held against. A journal is kept for
this: whenever a call to encode or to decode begins or returns, a type is entered or left, a
codec looks at the path, works on the buffer, or a type is refused, a moment is written
down together with the stack as it stands. `journalled` serves requests as `serve` does.

The journal alone says which scopes are open after each moment, for they open and close
like brackets. An account of a journal holds the stack against these open scopes, moment
by moment. That every walk leaves an account behind is shown by one rule for each
construction that walks are made of and an induction on how deep requests may nest;
nothing is asked of the codecs, which may go on after any failure.
-/

namespace Wireform

variable {α β : Type}

/-- What a walk can be in the middle of. -/
inductive Scope
  /-- A call that encodes the value of a context. -/
  | encoding (context : Context)
  /-- A call that decodes at a context. -/
  | decoding (context : Context)
  /-- The fields of an aggregate of this type. -/
  | inside (type : Ty)

/-- The aggregate types whose fields are being walked, innermost first. -/
def Scope.aggregates : List Scope → List Ty
  | [] => []
  | .inside type :: rest => type :: aggregates rest
  | _ :: rest => aggregates rest

/-- What can happen in a walk. -/
inductive Happening
  | opened (scope : Scope)
  | closed (scope : Scope)
  /-- A codec has looked at the path and has seen these names. -/
  | observed (path : List String)
  /-- A codec has looked at the buffer or replaced it. -/
  | worked
  /-- A type was to be entered and was found on the stack. -/
  | refused (type : Ty)

/-- Something that has happened, and the stack as it stood then. -/
structure Moment where
  happening : Happening
  stack : List Ty

/-- The state of a walk and what has happened in it so far. -/
structure Journal where
  state : Walk.State
  /-- The moments in the order in which they came. -/
  moments : List Moment := []

/-- The state just inside of an aggregate type. -/
def Walk.State.entered (type : Ty) (state : Walk.State) : Walk.State :=
  { state with
    visited := type :: state.visited
    memory := { state.memory with
      events := .descending type.name state.visited.length :: state.memory.events } }

/-- The state once the innermost aggregate type has been left. -/
def Walk.State.returned (state : Walk.State) : Walk.State :=
  { state with visited := state.visited.tail }

namespace Journal

/-- The journal with one more moment. -/
def noted (happening : Happening) (journal : Journal) : Journal :=
  { journal with moments := journal.moments ++ [⟨happening, journal.state.visited⟩] }

/-- A step of a walk of which nothing is written down. -/
def plain (walk : Walk α) : Step Journal α := fun journal =>
  match walk journal.state with
  | .ok result after => .ok result { journal with state := after }
  | .error error after => .error error { journal with state := after }

/-- A step with its beginning and its return written down, however it ends. -/
def within (scope : Scope) (step : Step Journal α) : Step Journal α := fun journal =>
  match step (journal.noted (.opened scope)) with
  | .ok result after => .ok result (after.noted (.closed scope))
  | .error error after => .error error (after.noted (.closed scope))

/-- A step inside of an aggregate type. That the type is refused is written down, or that it
    is entered and left. -/
def descend (type : Ty) (step : Step Journal α) : Step Journal α := fun journal =>
  if journal.state.visited.contains type then
    .error (.circularReference type.name) (journal.noted (.refused type))
  else
    let inside := { journal with state := journal.state.entered type }
    match step (inside.noted (.opened (.inside type))) with
    | .ok result after =>
        .ok result ({ after with state := after.state.returned }.noted (.closed (.inside type)))
    | .error error after =>
        .error error ({ after with state := after.state.returned }.noted (.closed (.inside type)))

end Journal

/-- Serves a request like `serve` and keeps a journal. -/
def Serializer.journalled (serializer : Serializer) :
    (depth : Nat) → (request : Request) → Step Journal request.Answer
  | _, .look => fun journal => .ok journal.state.buffer (journal.noted .worked)
  | _, .replace buffer => fun journal =>
      .ok () ({ journal with state := { journal.state with buffer := buffer } }.noted .worked)
  | _, .path => fun journal =>
      let path := journal.state.visited.reverse.map Ty.name
      .ok path (journal.noted (.observed path))
  | 0, .encode context => Journal.within (.encoding context) (Step.fail .depthExceeded)
  | 0, .decode context => Journal.within (.decoding context) (Step.fail .depthExceeded)
  | 0, .encodeFields _ _ _ => Step.fail .depthExceeded
  | 0, .decodeFields _ _ => Step.fail .depthExceeded
  | 0, .encodeResolved _ _ => Step.fail .depthExceeded
  | 0, .decodeResolved _ => Step.fail .depthExceeded
  | depth + 1, .encode context => Journal.within (.encoding context)
      (match context.value with
      | none => Step.fail (.unexpectedNull context.declared.name)
      | some value => do
          let codec ← Journal.plain (serializer.codecFor context)
          let inner ← Step.lift (context.project value)
          (codec.encode inner).run (serializer.journalled depth))
  | depth + 1, .decode context => Journal.within (.decoding context) do
      let codec ← Journal.plain (serializer.codecFor context)
      let inner ← codec.decode.run (serializer.journalled depth)
      Step.lift (context.rewrap inner)
  | depth + 1, .encodeFields type aggregate value =>
      Journal.descend type
        (encodeFields (fun context => serializer.journalled depth (.encode context)) type value 0
          aggregate.fields)
  | depth + 1, .decodeFields type aggregate =>
      Journal.descend type
        (rebuild (fun context => serializer.journalled depth (.decode context)) type aggregate)
  | depth + 1, .encodeResolved context value => do
      match ← Step.lift (serializer.resolve context) with
      | none => return none
      | some codec => some <$> (codec.encode value).run (serializer.journalled depth)
  | depth + 1, .decodeResolved context => do
      match ← Step.lift (serializer.resolve context) with
      | none => return none
      | some codec => some <$> codec.decode.run (serializer.journalled depth)

/-! ## Accounts -/

/-- How the open scopes change with something that happens: a scope opens inside of all
    others, and only the innermost one closes. -/
inductive Happening.Moves : List Scope → Happening → List Scope → Prop
  | opened (scope : Scope) (scopes : List Scope) : Moves scopes (.opened scope) (scope :: scopes)
  | closed (scope : Scope) (scopes : List Scope) : Moves (scope :: scopes) (.closed scope) scopes
  | observed (path : List String) (scopes : List Scope) : Moves scopes (.observed path) scopes
  | worked (scopes : List Scope) : Moves scopes .worked scopes
  | refused (type : Ty) (scopes : List Scope) : Moves scopes (.refused type) scopes

/-- A moment is true of the scopes that are open after it: its stack lists the aggregate types
    among them, a path lists their names from the outermost on, a type is entered only
    if it is not among the others, and refused only if it is among them. -/
structure Moment.Tells (scopes : List Scope) (moment : Moment) : Prop where
  stack : moment.stack = Scope.aggregates scopes
  entered : ∀ type, moment.happening = .opened (.inside type) →
    type ∉ (Scope.aggregates scopes).tail
  path : ∀ path, moment.happening = .observed path →
    path = (Scope.aggregates scopes).reverse.map Ty.name
  refused : ∀ type, moment.happening = .refused type → type ∈ Scope.aggregates scopes

/-- Moments that lead from some open scopes to others, each of them true of the scopes that
    are open after it. -/
inductive Account : List Scope → List Moment → List Scope → Prop
  | done (scopes : List Scope) : Account scopes [] scopes
  | next {scopes between last : List Scope} {moment : Moment} {rest : List Moment}
      (moves : moment.happening.Moves scopes between) (tells : moment.Tells between)
      (later : Account between rest last) : Account scopes (moment :: rest) last

namespace Account

variable {scopes between last : List Scope} {front back : List Moment} {moment : Moment}

/-- One account after another is an account. -/
theorem append (first : Account scopes front between) (second : Account between back last) :
    Account scopes (front ++ back) last := by
  induction first with
  | done scopes => exact second
  | next moves tells later inductionHypothesis =>
      exact .next moves tells (inductionHypothesis second)

/-- One more moment, if it is true of what is open after it. -/
theorem snoc (first : Account scopes front between)
    (moves : moment.happening.Moves between last) (tells : moment.Tells last) :
    Account scopes (front ++ [moment]) last :=
  first.append (.next moves tells (.done last))

/-- A type that opens is new, so no type is twice among the open ones where none was
    before. -/
theorem nodup_of_moves {happening : Happening} {stack : List Ty}
    (moves : happening.Moves scopes between)
    (tells : Moment.Tells between ⟨happening, stack⟩)
    (distinct : (Scope.aggregates scopes).Nodup) : (Scope.aggregates between).Nodup := by
  cases moves with
  | opened scope =>
      cases scope with
      | encoding context => exact distinct
      | decoding context => exact distinct
      | inside type => exact List.nodup_cons.mpr ⟨tells.entered type rfl, distinct⟩
  | closed scope =>
      cases scope with
      | encoding context => exact distinct
      | decoding context => exact distinct
      | inside type => exact (List.nodup_cons.mp distinct).2
  | observed path => exact distinct
  | worked => exact distinct
  | refused type => exact distinct

/-- No stack in an account has a type twice if the first one has not. -/
theorem nodup (account : Account scopes front last)
    (distinct : (Scope.aggregates scopes).Nodup) : ∀ moment ∈ front, moment.stack.Nodup := by
  induction account with
  | done scopes => simp
  | next moves tells later inductionHypothesis =>
      have after := nodup_of_moves moves tells distinct
      intro moment among
      obtain rfl | later := List.mem_cons.mp among
      · exact tells.stack ▸ after
      · exact inductionHypothesis after moment later

end Account

namespace Journal

/-- A journal has grown to another by an account that ends with the scopes that were open,
    and the stack is what it was. -/
structure Grows (scopes : List Scope) (before after : Journal) : Prop where
  visited : after.state.visited = before.state.visited
  account : ∃ added, after.moments = before.moments ++ added ∧ Account scopes added scopes

namespace Grows

variable {scopes : List Scope} {before between after : Journal}

/-- A journal in which nothing is written down, while the stack stays as it is. -/
theorem silent (visited : after.state.visited = before.state.visited)
    (moments : after.moments = before.moments) : Grows scopes before after :=
  ⟨visited, [], by rw [moments, List.append_nil], .done scopes⟩

/-- Growing twice is growing. -/
theorem trans (first : Grows scopes before between) (second : Grows scopes between after) :
    Grows scopes before after := by
  obtain ⟨visited, front, added, account⟩ := first
  obtain ⟨visitedNext, back, addedNext, accountNext⟩ := second
  refine ⟨visitedNext.trans visited, front ++ back, ?_, account.append accountNext⟩
  rw [addedNext, added, List.append_assoc]

/-- One moment by which no scope opens or closes. -/
theorem noted {happening : Happening} {journal : Journal}
    (moves : happening.Moves scopes scopes)
    (tells : Moment.Tells scopes ⟨happening, journal.state.visited⟩) :
    Grows scopes journal (journal.noted happening) :=
  ⟨rfl, [_], rfl, .next moves tells (.done scopes)⟩

/-- What grows inside of a scope grows, with the opening and the closing of the scope, inside
    of what was open before. Only the stack may differ where the scope opens and closes. -/
theorem bracket {scope : Scope} {ending : Journal} (opening closing : Journal)
    (opened : opening.moments = before.moments)
    (starts : Moment.Tells (scope :: scopes) ⟨.opened scope, opening.state.visited⟩)
    (inside : Grows (scope :: scopes) (opening.noted (.opened scope)) ending)
    (closed : closing.moments = ending.moments)
    (ends : closing.state.visited = Scope.aggregates scopes)
    (visited : closing.state.visited = before.state.visited) :
    Grows scopes before (closing.noted (.closed scope)) := by
  obtain ⟨-, middle, added, account⟩ := inside
  have tells : Moment.Tells scopes ⟨.closed scope, closing.state.visited⟩ :=
    ⟨ends, by simp, by simp, by simp⟩
  refine ⟨visited, _ :: middle ++ [_], ?_,
    .next (.opened scope scopes) starts (account.snoc (.closed scope scopes) tells)⟩
  simp only [Journal.noted] at added ⊢
  rw [closed, added, opened]
  simp

end Grows

/-- The journalled step ends as the walk does, and wherever the stack agrees with the open
    scopes, its journal grows by an account. -/
def Keeps (step : Step Journal α) (walk : Walk α) : Prop :=
  ∀ journal scopes, journal.state.visited = Scope.aggregates scopes →
    Step.carry Journal.state (step journal) = walk journal.state ∧
      Grows scopes journal (Step.left (step journal))

namespace Keeps

variable {step : Step Journal α} {walk : Walk α}

/-- A result leaves nothing to write down. -/
theorem pure (result : α) : Keeps (Pure.pure result) (Pure.pure result) :=
  fun _ _ _ => ⟨rfl, .silent rfl rfl⟩

/-- A failure leaves nothing to write down. -/
theorem fail (error : Error) : Keeps (Step.fail error : Step Journal α) (Step.fail error) :=
  fun _ _ _ => ⟨rfl, .silent rfl rfl⟩

/-- A known outcome leaves nothing to write down. -/
theorem lift (outcome : Except Error α) : Keeps (Step.lift outcome) (Step.lift outcome) := by
  cases outcome with
  | ok result => exact pure result
  | error error => exact fail error

/-- A step that leaves the stack alone need not be written down. -/
theorem plain (still : ∀ state, (Step.left (walk state)).visited = state.visited) :
    Keeps (Journal.plain walk) walk := by
  intro journal scopes agrees
  have visited := still journal.state
  simp only [Journal.plain]
  cases ended : walk journal.state with
  | error error after =>
      rw [ended] at visited
      exact ⟨rfl, .silent visited rfl⟩
  | ok result after =>
      rw [ended] at visited
      exact ⟨rfl, .silent visited rfl⟩

/-- A succession keeps what both keep. -/
theorem bind {next : α → Step Journal β} {nextWalk : α → Walk β} (first : Keeps step walk)
    (second : ∀ result, Keeps (next result) (nextWalk result)) :
    Keeps (step >>= next) (walk >>= nextWalk) := by
  intro journal scopes agrees
  obtain ⟨carried, grows⟩ := first journal scopes agrees
  simp only [Step.bind_apply]
  cases ended : step journal with
  | error error after =>
      rw [ended] at carried grows
      rw [← carried]
      exact ⟨rfl, grows⟩
  | ok result after =>
      rw [ended] at carried grows
      rw [← carried]
      obtain ⟨carriedNext, growsNext⟩ := second result after scopes (grows.visited.trans agrees)
      exact ⟨carriedNext, grows.trans growsNext⟩

/-- Changing the result leaves nothing to write down. -/
theorem map (change : α → β) (keeps : Keeps step walk) :
    Keeps (change <$> step) (change <$> walk) := by
  rw [map_eq_pure_bind, map_eq_pure_bind]
  exact keeps.bind fun result => pure (change result)

/-- Naming the field of a failure leaves nothing to write down. -/
theorem inField (owner name : String) (keeps : Keeps step walk) :
    Keeps (Step.inField owner name step) (Step.inField owner name walk) := by
  intro journal scopes agrees
  obtain ⟨carried, grows⟩ := keeps journal scopes agrees
  simp only [Step.inField]
  cases ended : step journal with
  | error error after =>
      rw [ended] at carried grows
      rw [← carried]
      exact ⟨rfl, grows⟩
  | ok result after =>
      rw [ended] at carried grows
      rw [← carried]
      exact ⟨rfl, grows⟩

/-- A call opens a scope and closes it again, whether it succeeds or fails. The stack
    does not change with either. -/
theorem within {scope : Scope}
    (call : ∀ scopes, Scope.aggregates (scope :: scopes) = Scope.aggregates scopes)
    (keeps : Keeps step walk) : Keeps (Journal.within scope step) walk := by
  intro journal scopes agrees
  have inner : (journal.noted (.opened scope)).state.visited
      = Scope.aggregates (scope :: scopes) := agrees.trans (call scopes).symm
  obtain ⟨carried, grows⟩ := keeps (journal.noted (.opened scope)) (scope :: scopes) inner
  have starts : Moment.Tells (scope :: scopes) ⟨.opened scope, journal.state.visited⟩ := by
    refine ⟨inner, fun type opens => ?_, by simp, by simp⟩
    cases opens
    exact absurd (congrArg List.length (call scopes)) (by simp [Scope.aggregates])
  simp only [Journal.within]
  cases ended : step (journal.noted (.opened scope)) with
  | error error after =>
      rw [ended] at carried grows
      exact ⟨carried, .bracket journal after rfl starts grows rfl (grows.visited.trans agrees)
        grows.visited⟩
  | ok result after =>
      rw [ended] at carried grows
      exact ⟨carried, .bracket journal after rfl starts grows rfl (grows.visited.trans agrees)
        grows.visited⟩

/-- Descending opens the scope of a type that is not among the open ones and closes it
    again, or refuses a type that is among them. The stack follows both. -/
theorem descend (type : Ty) (keeps : Keeps step walk) :
    Keeps (Journal.descend type step) (Walk.descend type walk) := by
  intro journal scopes agrees
  by_cases circular : journal.state.visited.contains type = true
  · have among : type ∈ Scope.aggregates scopes := by
      rw [← agrees]
      exact List.contains_iff_mem.mp circular
    simp only [Journal.descend, Walk.descend, circular, if_true]
    refine ⟨rfl, .noted (.refused type scopes) ⟨agrees, by simp, by simp, fun other same => ?_⟩⟩
    cases same
    exact among
  · have absent : type ∉ Scope.aggregates scopes := by
      rw [← agrees]
      exact fun among => circular (List.contains_iff_mem.mpr among)
    let opening := { journal with state := journal.state.entered type }
    have inner : opening.state.visited = Scope.aggregates (.inside type :: scopes) :=
      congrArg (type :: ·) agrees
    have starts : Moment.Tells (.inside type :: scopes)
        ⟨.opened (.inside type), opening.state.visited⟩ := by
      refine ⟨inner, fun other same => ?_, by simp, by simp⟩
      cases same
      exact absent
    obtain ⟨carried, grows⟩ := keeps (opening.noted (.opened (.inside type)))
      (.inside type :: scopes) inner
    -- what is left behind is the stack that was found, under the type that was entered
    have returned {after : Journal}
        (same : after.state.visited = (opening.noted (.opened (.inside type))).state.visited) :
        after.state.returned.visited = journal.state.visited := congrArg List.tail same
    have walked : Walk.descend type walk journal.state
        = match walk opening.state with
          | .ok result after => .ok result after.returned
          | .error error after => .error error after.returned := by
      simp only [Walk.descend, circular]
      rfl
    have recorded : Journal.descend type step journal
        = match step (opening.noted (.opened (.inside type))) with
          | .ok result after => .ok result
              ({ after with state := after.state.returned }.noted (.closed (.inside type)))
          | .error error after => .error error
              ({ after with state := after.state.returned }.noted (.closed (.inside type))) := by
      simp only [Journal.descend, circular]
      rfl
    rw [walked, recorded]
    cases ended : step (opening.noted (.opened (.inside type))) with
    | error error after =>
        rw [ended] at carried grows
        have walks : walk opening.state = .error error after.state := carried.symm
        have back := returned grows.visited
        rw [walks]
        exact ⟨rfl, .bracket opening { after with state := after.state.returned } rfl starts grows
          rfl (back.trans agrees) back⟩
    | ok result after =>
        rw [ended] at carried grows
        have walks : walk opening.state = .ok result after.state := carried.symm
        have back := returned grows.visited
        rw [walks]
        exact ⟨rfl, .bracket opening { after with state := after.state.returned } rfl starts grows
          rfl (back.trans agrees) back⟩

/-- A program keeps what all its requests keep, whether it gives up after a failed one or goes
    on. -/
theorem run {serve : (request : Request) → Step Journal request.Answer}
    {walks : (request : Request) → Walk request.Answer}
    (served : ∀ request, Keeps (serve request) (walks request)) (program : Program α) :
    Keeps (program.run serve) (program.run walks) := by
  induction program with
  | done result => exact pure result
  | fail error => exact fail error
  | ask request next inductionHypothesis =>
      intro journal scopes agrees
      obtain ⟨carried, grows⟩ := served request journal scopes agrees
      simp only [Program.run]
      cases ended : serve request journal with
      | error error after =>
          rw [ended] at carried grows
          rw [← carried]
          obtain ⟨carriedNext, growsNext⟩ :=
            inductionHypothesis (.error error) after scopes (grows.visited.trans agrees)
          exact ⟨carriedNext, grows.trans growsNext⟩
      | ok result after =>
          rw [ended] at carried grows
          rw [← carried]
          obtain ⟨carriedNext, growsNext⟩ :=
            inductionHypothesis (.ok result) after scopes (grows.visited.trans agrees)
          exact ⟨carriedNext, grows.trans growsNext⟩

end Keeps

end Journal

/-! ## Walks -/

namespace Serializer

open Journal

/-- Looking a codec up leaves the stack alone. -/
theorem visited_codecFor (serializer : Serializer) (context : Context) (state : Walk.State) :
    (Step.left (serializer.codecFor context state)).visited = state.visited := by
  simp only [codecFor]
  split
  · rfl
  · split <;> rfl

/-- The fields of an aggregate keep what each of them keeps. -/
theorem keeps_encodeFields {step : Context → Step Journal Unit} {walk : Context → Walk Unit}
    (each : ∀ context, Keeps (step context) (walk context)) (owner : Ty) (value : Value)
    (index : Nat) (fields : List Field) :
    Keeps (encodeFields step owner value index fields)
      (encodeFields walk owner value index fields) := by
  induction fields generalizing index with
  | nil => exact .pure ()
  | cons field rest inductionHypothesis =>
      refine Keeps.bind (Keeps.inField _ _ ?_) fun _ => inductionHypothesis (index + 1)
      exact Keeps.bind (.lift _) fun child => each _

/-- The arguments of a constructor keep what each of them keeps. -/
theorem keeps_decodeArguments {step : Context → Step Journal Value} {walk : Context → Walk Value}
    (each : ∀ context, Keeps (step context) (walk context)) (owner : Ty)
    (constructor position : Nat) (parameters : List Parameter) :
    Keeps (decodeArguments step owner constructor position parameters)
      (decodeArguments walk owner constructor position parameters) := by
  induction parameters generalizing position with
  | nil => exact .pure []
  | cons parameter rest inductionHypothesis =>
      refine Keeps.bind (Keeps.inField _ _ (each _)) fun argument => ?_
      exact Keeps.bind (inductionHypothesis (position + 1)) fun others => .pure _

/-- Assigned fields keep what each of them keeps. -/
theorem keeps_assignFields {step : Context → Step Journal Value} {walk : Context → Walk Value}
    (each : ∀ context, Keeps (step context) (walk context)) (owner : Ty) (index : Nat)
    (fields : List Field) (value : Value) :
    Keeps (assignFields step owner index fields value)
      (assignFields walk owner index fields value) := by
  induction fields generalizing index value with
  | nil => exact .pure value
  | cons field rest inductionHypothesis =>
      refine Keeps.bind (Keeps.inField _ _ ?_) fun assigned =>
        inductionHypothesis (index + 1) assigned
      exact Keeps.bind (each _) fun decoded => .lift _

/-- An aggregate keeps what its parts keep, by either strategy and without one. -/
theorem keeps_rebuild {step : Context → Step Journal Value} {walk : Context → Walk Value}
    (each : ∀ context, Keeps (step context) (walk context)) (owner : Ty)
    (description : Aggregate) :
    Keeps (rebuild step owner description) (rebuild walk owner description) := by
  unfold rebuild
  cases description.strategy with
  | construct index constructor =>
      exact Keeps.bind (keeps_decodeArguments each owner index 0 _) fun arguments => .lift _
  | assign initial => exact keeps_assignFields each owner 0 _ initial
  | unavailable => exact .fail _

/-- Looking at the buffer is one moment, at any depth. -/
theorem keeps_look (serializer : Serializer) (depth : Nat) :
    Keeps (serializer.journalled depth .look) (serializer.serve depth .look) := by
  intro journal scopes agrees
  cases depth <;>
    exact ⟨rfl, .noted (.worked scopes) ⟨agrees, by simp, by simp, by simp⟩⟩

/-- Replacing the buffer is one moment, at any depth. -/
theorem keeps_replace (serializer : Serializer) (depth : Nat) (buffer : Buffer) :
    Keeps (serializer.journalled depth (.replace buffer))
      (serializer.serve depth (.replace buffer)) := by
  intro journal scopes agrees
  let replaced : Journal := { journal with state := { journal.state with buffer := buffer } }
  have worked : Grows scopes replaced (replaced.noted .worked) :=
    .noted (.worked scopes) ⟨agrees, by simp, by simp, by simp⟩
  have silent : Grows scopes journal replaced := .silent rfl rfl
  cases depth <;> exact ⟨rfl, silent.trans worked⟩

/-- Looking at the path is one moment, at any depth, and what is seen are the names of what
    encloses the place. -/
theorem keeps_path (serializer : Serializer) (depth : Nat) :
    Keeps (serializer.journalled depth .path) (serializer.serve depth .path) := by
  intro journal scopes agrees
  have seen : ∀ path, Happening.observed (journal.state.visited.reverse.map Ty.name)
      = .observed path → path = (Scope.aggregates scopes).reverse.map Ty.name := by
    intro path same
    cases same
    rw [agrees]
  cases depth <;>
    exact ⟨rfl, .noted (.observed _ scopes) ⟨agrees, by simp, seen, by simp⟩⟩

/-- Every request is journalled as it is served, and its journal grows by an account. The
    induction is on how deep requests may nest; each case hands its own requests to the
    level below. -/
theorem keeps_journalled (serializer : Serializer) (depth : Nat) (request : Request) :
    Keeps (serializer.journalled depth request) (serializer.serve depth request) := by
  induction depth generalizing request with
  | zero =>
      cases request with
      | look => exact serializer.keeps_look 0
      | replace buffer => exact serializer.keeps_replace 0 buffer
      | path => exact serializer.keeps_path 0
      | encode context => exact Keeps.within (fun _ => rfl) (.fail _)
      | decode context => exact Keeps.within (fun _ => rfl) (.fail _)
      | _ => exact Keeps.fail _
  | succ depth inductionHypothesis =>
      cases request with
      | look => exact serializer.keeps_look _
      | replace buffer => exact serializer.keeps_replace _ buffer
      | path => exact serializer.keeps_path _
      | encode context =>
          simp only [journalled, serve]
          refine Keeps.within (fun _ => rfl) ?_
          cases context.value with
          | none => exact .fail _
          | some value =>
              refine Keeps.bind (.plain (serializer.visited_codecFor context)) fun codec =>
                Keeps.bind (.lift _) fun inner => ?_
              exact Keeps.run inductionHypothesis (codec.encode inner)
      | decode context =>
          refine Keeps.within (fun _ => rfl) ?_
          refine Keeps.bind (.plain (serializer.visited_codecFor context)) fun codec =>
            Keeps.bind ?_ fun inner => .lift _
          exact Keeps.run inductionHypothesis codec.decode
      | encodeFields type description value =>
          exact Keeps.descend type (keeps_encodeFields
            (fun context => inductionHypothesis (.encode context)) type value 0 _)
      | decodeFields type description =>
          exact Keeps.descend type (keeps_rebuild
            (fun context => inductionHypothesis (.decode context)) type description)
      | encodeResolved context value =>
          simp only [journalled, serve]
          refine Keeps.bind (.lift _) fun found => ?_
          cases found with
          | none => exact .pure none
          | some codec => exact Keeps.map some (Keeps.run inductionHypothesis (codec.encode value))
      | decodeResolved context =>
          simp only [journalled, serve]
          refine Keeps.bind (.lift _) fun found => ?_
          cases found with
          | none => exact .pure none
          | some codec => exact Keeps.map some (Keeps.run inductionHypothesis codec.decode)

/-- The stack of a walk, read as open scopes, lists the types that it was read from. -/
theorem aggregates_inside (types : List Ty) :
    Scope.aggregates (types.map Scope.inside) = types := by
  induction types with
  | nil => rfl
  | cons type rest inductionHypothesis => exact congrArg (type :: ·) inductionHypothesis

/-- The stack is what it says it is. Whatever the codecs of a serializer do, every request is
    answered, with a result or with a failure, with the stack as it was found. A walk that starts
    with an empty stack is journalled as it takes place, and its journal is an account from no open
    scopes to none: calls return and types are left in the order in which they must, at every
    moment the stack lists the types whose fields enclose the place, each of them once, a codec that
    looks at the path sees their names from the outermost on, and a type is refused only inside of
    a value of the same type. -/
theorem visited_tells_enclosing (serializer : Serializer) :
    (∀ depth request state,
      (Step.left (serializer.serve depth request state)).visited = state.visited) ∧
    ∀ depth request buffer memory,
      let state : Walk.State := { buffer := buffer, memory := memory }
      let outcome := serializer.journalled depth request { state := state }
      Step.carry Journal.state outcome = serializer.serve depth request state ∧
        Account [] (Step.left outcome).moments [] ∧
        ∀ moment ∈ (Step.left outcome).moments, moment.stack.Nodup := by
  constructor
  · intro depth request state
    obtain ⟨carried, grows⟩ := serializer.keeps_journalled depth request ⟨state, []⟩ _
      (aggregates_inside state.visited).symm
    have visited := grows.visited
    rw [← carried]
    cases ended : serializer.journalled depth request ⟨state, []⟩ with
    | ok result after => rwa [ended] at visited
    | error error after => rwa [ended] at visited
  · intro depth request buffer memory state outcome
    obtain ⟨carried, -, added, moments, account⟩ :=
      serializer.keeps_journalled depth request ⟨state, []⟩ [] rfl
    have whole : (Step.left outcome).moments = added := moments
    rw [whole]
    exact ⟨carried, account, account.nodup List.nodup_nil⟩

end Serializer

end Wireform
