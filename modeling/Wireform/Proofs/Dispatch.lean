import Mathlib.Data.List.DropRight
import Wireform.Proofs.Frames
import Wireform.Proofs.Framing
import Wireform.Proofs.Restoring
import Wireform.Proofs.Stream

/-!
# What dispatching runs

Handlers are added and removed while packets are dispatched, some of them as they are and some in
the frames that they were read from. Dispatching leaves the handlers alone. So at any time the
handlers of a type are those that were added for it behind the last clearing, and it is they that
run, in order, on the packet and on what the context has become.

A frame that was read from what was written for a packet claims the type of the packet, because
its identifier is the one that was written and no other type is registered under it. It is therefore
dispatched to the handlers that the packet itself would be dispatched to. What they are given in
place of the packet is what is read again of it: members that do not travel are blank, and elements
and keys that differ in nothing else are one. Descriptions have to be as good as their word for this,
and writing must not reach back to the identifier.
-/

namespace Wireform

namespace Packet

variable {σ : Type}

/-! ## Changes and dispatches in turn -/

/-- Something that is done with a dispatcher, with the context that a dispatch is given. -/
inductive Act (σ : Type)
  | alter (change : Change σ)
  | dispatch (packet : Value) (context : σ)
  | dispatchFrame (frame : Frame) (context : σ)

namespace Act

/-- The change that is made, if one is. -/
def change? : Act σ → Option (Change σ)
  | .alter change => some change
  | _ => none

/-- Every handler is removed. -/
def clears : Act σ → Bool
  | .alter .clear => true
  | _ => false

/-- The handler that is added for the type, if one is. -/
def handler? (type : Ty) : Act σ → Option (Handler σ)
  | .alter (.on other handler) => if other = type then some handler else none
  | _ => none

/-- The handlers that are added for a type behind the last clearing, in order. -/
def registered (type : Ty) (acts : List (Act σ)) : List (Handler σ) :=
  (acts.rtakeWhile fun act => !act.clears).filterMap (handler? type)

/-- The handlers of a type that are kept by what is done are those that are added for it behind the
    last clearing. -/
theorem added_eq_registered (type : Ty) (acts : List (Act σ)) :
    Dispatcher.added type (acts.filterMap change?) = registered type acts := by
  induction acts using List.reverseRecOn with
  | nil => rfl
  | append_singleton acts act inductionHypothesis =>
      unfold Dispatcher.added registered at inductionHypothesis ⊢
      rw [List.filterMap_append, List.foldl_append, inductionHypothesis, List.rtakeWhile_concat]
      cases act with
      | alter change =>
          cases change with
          | clear => rfl
          | on other handler =>
              change Change.kept type _ (.on other handler)
                = List.filterMap (handler? type) (_ ++ [.alter (.on other handler)])
              rw [List.filterMap_append, Change.kept]
              by_cases own : other = type
              · simp only [if_pos own, List.filterMap_cons, handler?, List.filterMap_nil]
              · simp only [if_neg own, List.filterMap_cons, handler?, List.filterMap_nil,
                  List.append_nil]
      | dispatch packet context =>
          change _ = List.filterMap (handler? type) (_ ++ [.dispatch packet context])
          rw [List.filterMap_append]
          exact (List.append_nil _).symm
      | dispatchFrame frame context =>
          change _ = List.filterMap (handler? type) (_ ++ [.dispatchFrame frame context])
          rw [List.filterMap_append]
          exact (List.append_nil _).symm

end Act

namespace Dispatcher

/-- The dispatcher after something has been done with it, and what a dispatch has come to. -/
def perform (dispatcher : Dispatcher σ) : Act σ → Dispatcher σ × Option (Nat × σ × Event)
  | .alter change => (dispatcher.changed change, none)
  | .dispatch packet context => (dispatcher, some (dispatcher.dispatch packet context))
  | .dispatchFrame frame context => (dispatcher, some (dispatcher.dispatchFrame frame context))

/-- The dispatcher after a number of things have been done with it in turn, and what each dispatch
    has come to. -/
def run (dispatcher : Dispatcher σ) :
    List (Act σ) → Dispatcher σ × List (Option (Nat × σ × Event))
  | [] => (dispatcher, [])
  | act :: rest =>
      let next := dispatcher.perform act
      let last := run next.1 rest
      (last.1, next.2 :: last.2)

/-- Only changes matter to what becomes of the dispatcher. -/
theorem run_fst (dispatcher : Dispatcher σ) (acts : List (Act σ)) :
    (dispatcher.run acts).1 = (acts.filterMap Act.change?).foldl changed dispatcher := by
  induction acts generalizing dispatcher with
  | nil => rfl
  | cons act rest inductionHypothesis =>
      rw [run, inductionHypothesis]
      cases act <;> rfl

/-- What a dispatch comes to is up to the dispatcher that what was done before it has left. -/
theorem getElem?_run (dispatcher : Dispatcher σ) (acts : List (Act σ)) (index : Nat) (act : Act σ)
    (done : acts[index]? = some act) :
    (dispatcher.run acts).2[index]?
      = some ((dispatcher.run (acts.take index)).1.perform act).2 := by
  induction acts generalizing dispatcher index with
  | nil => cases done
  | cons first rest inductionHypothesis =>
      cases index with
      | zero =>
          cases done
          rfl
      | succ index => exact inductionHypothesis _ index done

/-- The handlers have run on the packet, each once and in order, each on the context that the one
    before it has left, and no others have, for their number is what was reported. -/
structure Ran (handlers : List (Handler σ)) (packet : Value) (context : σ)
    (report : Nat × σ × Event) : Prop where
  count : report.1 = handlers.length
  context : report.2.1 = handlers.foldl (fun context handler => handler packet context) context

/-- Whatever was done with a dispatcher that was new, the handlers that were added for a type behind
    the last clearing run on a packet of that type. -/
theorem ran_invoke (acts : List (Act σ)) (type : Ty) (name : String) (packet : Value)
    (own : packet.type = type) (context : σ) :
    Ran (Act.registered type acts) packet context
      ((run {} acts).1.invoke type name packet context) := by
  rw [run_fst, ← Act.added_eq_registered]
  obtain ⟨event, invoked⟩ := invoke_after (acts.filterMap Act.change?) type name packet context
  rw [if_pos own] at invoked
  exact ⟨congrArg Prod.fst invoked, congrArg (·.2.1) invoked⟩

/-- A new dispatcher counts the handlers that were added for a type behind the last clearing. -/
theorem count_run (acts : List (Act σ)) (type : Ty) :
    (run {} acts).1.count type = (Act.registered type acts).length := by
  rw [run_fst, ← Act.added_eq_registered]
  exact count_after _ type

end Dispatcher

/-! ## Frames of packets -/

namespace Registry

variable {schema : Schema} {config : Config} {domain : Ty → Value → Prop} {registry : Registry}
  {memory : Memory}

/-- The frame was read from what was written for the packet, whatever else the registry has been
    used for before and in between. -/
def Delivers (registry : Registry) (packet : Value) (frame : Frame) : Prop :=
  ∃ bytes,
    (∃ memory after, Reached registry memory ∧ registry.write packet memory = .ok bytes after) ∧
    ∃ memory after, Reached registry memory ∧ registry.read bytes memory = .ok frame after

/-- An identifier can be told from what follows it. -/
theorem eq_of_shortText (id other : String) (rest behind : Bytes)
    (fits : (Text.Utf8.encode id).length < 0x10000)
    (otherFits : (Text.Utf8.encode other).length < 0x10000)
    (same : Buffer.shortText id ++ rest = Buffer.shortText other ++ behind) :
    id = other ∧ rest = behind := by
  have one := @Buffer.reads_readShortString {} id fits rfl rest
  have two := @Buffer.reads_readShortString {} other otherFits rfl behind
  rw [same] at one
  cases one.symm.trans two
  exact ⟨rfl, rfl⟩

section
variable (built : registry.serializer = .build schema config)
  (coherent : (Serializer.build schema config).Coherent memory)

include built coherent

/-- What is written for a packet is an identifier under which its type is registered and then what
    is appended for the packet. -/
theorem split_of_write (packet : Value) (growing : schema.Throughout schema.Growing packet.type)
    (bytes : Bytes) (after : Memory) (written : registry.write packet memory = .ok bytes after) :
    ∃ id payload reversed, registry.idOf? packet.type = some id ∧
      (Text.Utf8.encode id).length < 0x10000 ∧ bytes = Buffer.shortText id ++ payload ∧
      (Serializer.build schema config).appending packet ⟨.written reversed, config⟩
        = .ok () ⟨.written (payload.reverse ++ reversed), config⟩ := by
  cases known : registry.idOf? packet.type with
  | none =>
      simp only [write, known] at written
      cases written
  | some id =>
      by_cases fits : (Text.Utf8.encode id).length < 0x10000
      · have header : Buffer.writeShortString id (Serializer.build schema config).writer
            = .ok () ⟨.written (Buffer.shortText id).reverse, config⟩ := by
          rw [← List.append_nil (Buffer.shortText id).reverse]
          exact Buffer.writes_writeShortString id fits [] config
        obtain ⟨later, _, same⟩ := Serializer.encodeInto_eq_appending
          (Serializer.builtin_static schema config) (Serializer.builtin_makes schema config) packet
          ⟨.written (Buffer.shortText id).reverse, config⟩ coherent
        simp only [write, known, built, header, same] at written
        cases ended : (Serializer.build schema config).appending packet
            ⟨.written (Buffer.shortText id).reverse, config⟩ with
        | error error stopped => rw [ended] at written; cases written
        | ok done left =>
            obtain ⟨payload, rfl⟩ := Serializer.grows_appending packet growing _ config left ended
            rw [ended] at written
            simp only [Step.carry, Buffer.finish, List.reverse_append, List.reverse_reverse]
              at written
            cases written
            exact ⟨id, payload, _, rfl, fits, rfl, ended⟩
      · simp only [write, known, Buffer.writeShortString_of_long id fits] at written
        cases written

/-- A frame is read from an identifier under which its type is registered and then from what is
    taken off as its packet. -/
theorem split_of_read (bytes : Bytes) (frame : Frame) (after : Memory)
    (read : registry.read bytes memory = .ok frame after) :
    ∃ rest left, registry.typeOf? frame.id = some frame.type ∧
      (Text.Utf8.encode frame.id).length < 0x10000 ∧ bytes = Buffer.shortText frame.id ++ rest ∧
      (Serializer.build schema config).taking frame.type (Buffer.reader rest config)
        = .ok frame.value left := by
  obtain ⟨known, buffer, state, header, decoded, -⟩ :=
    (registry.read_eq_ok bytes frame memory after).mp read
  rw [built] at header decoded
  obtain ⟨_, rest, rfl, rfl, rfl, fits, -⟩ :=
    Buffer.takes_readShortString bytes frame.id buffer header
  obtain ⟨later, _, same⟩ := Serializer.decodeType_eq_taking
    (Serializer.builtin_static schema config) (Serializer.builtin_makes schema config) frame.type
    (Buffer.reader rest config) coherent
  replace decoded := same.symm.trans decoded
  cases taken : (Serializer.build schema config).taking frame.type (Buffer.reader rest config) with
  | error error stopped => rw [taken] at decoded; cases decoded
  | ok value left =>
      rw [taken] at decoded
      cases decoded
      exact ⟨rest, left, known, fits, rfl, taken⟩

end

/-- A frame of a packet claims the type of the packet and holds what is read from what was appended
    for the packet. -/
theorem Delivers.claims (built : registry.serializer = .build schema config) (packet : Value)
    (growing : schema.Throughout schema.Growing packet.type) (frame : Frame)
    (delivers : registry.Delivers packet frame) :
    frame.type = packet.type ∧ ∃ payload reversed left,
      (Serializer.build schema config).appending packet ⟨.written reversed, config⟩
        = .ok () ⟨.written (payload.reverse ++ reversed), config⟩ ∧
      (Serializer.build schema config).taking packet.type (Buffer.reader payload config)
        = .ok frame.value left := by
  obtain ⟨bytes, ⟨memory, after, reached, written⟩, other, later, reachedToo, read⟩ := delivers
  obtain ⟨id, payload, reversed, known, fits, rfl, appended⟩ :=
    split_of_write built (coherent_of_reached built reached) packet growing bytes after written
  obtain ⟨rest, left, knownToo, fitsToo, same, taken⟩ :=
    split_of_read built (coherent_of_reached built reachedToo) _ frame later read
  obtain ⟨rfl, rfl⟩ := eq_of_shortText id frame.id payload rest fits fitsToo same
  have type : frame.type = packet.type := Option.some.inj
    (knownToo.symm.trans (((consistent_of_reached reached).typeOf?_iff_idOf? _ _).mpr known))
  rw [type] at taken
  exact ⟨type, payload, reversed, left, appended, taken⟩

/-- A frame that is read holds a packet of the type that it claims, if no rule but the built-in ones
    has a say in it. -/
theorem type_of_read (built : registry.serializer = .build schema config)
    (upright : schema.Upright) (reached : Reached registry memory) (bytes : Bytes) (frame : Frame)
    (after : Memory) (read : registry.read bytes memory = .ok frame after) :
    frame.value.type = frame.type := by
  have trusts : registry.serializer.Trusts := by
    rw [built]
    exact Serializer.trusts_build schema upright config [] [] schema.depth
      (fun _ listed => by cases listed) fun _ listed => by cases listed
  have uprightHere : registry.serializer.schema.Upright := by
    rw [built]
    exact upright
  have vouched : registry.serializer.Vouched memory :=
    keeps_of_reached reached (Serializer.vouched_of_reached trusts uprightHere)
      (fun memory event => Serializer.vouched_report memory event)
      fun call memory placed => Serializer.vouched_run trusts uprightHere call memory placed
  obtain ⟨-, buffer, state, -, decoded, -⟩ :=
    (registry.read_eq_ok bytes frame memory after).mp read
  exact Serializer.type_of_decodeType trusts uprightHere frame.type buffer memory vouched
    frame.value state decoded

/-- A frame of a packet holds what is to be read again of the packet, if the types of its parts are
    recoverable. -/
theorem Delivers.value_eq (built : registry.serializer = .build schema config) (packet : Value)
    (recoverable : schema.Throughout (schema.Recoverable config domain) packet.type)
    (formed : packet.Formed schema domain packet.type) (frame : Frame)
    (delivers : registry.Delivers packet frame) : frame.value = packet.renewed schema := by
  obtain ⟨-, payload, reversed, left, appended, taken⟩ :=
    delivers.claims built packet (recoverable.mono fun _ own => own.growing) frame
  rw [← List.append_nil payload] at taken
  exact (Serializer.recovers_appending packet recoverable formed reversed payload appended []
    frame.value left taken).1.same formed

/-- Every dispatch of a packet, whatever else is done with the dispatcher before it and after it,
    runs the handlers that were added for the type of the packet behind the last clearing, and
    reports as many as there are. So does every dispatch of a frame that was read from what was
    written for a packet without rules of a user's: it runs the handlers of the packet's type.
    Descriptions must make values of the types that they describe for this, and types that write
    themselves must leave alone what is in a buffer before them. If the parts of the type are
    recoverable, the handlers are given what is to be read again of the packet. This is the packet,
    but for members that do not travel, and elements and keys that differ in these only. -/
theorem dispatch_runs_registered (σ : Type) :
    (∀ (acts : List (Act σ)) (index : Nat) (packet : Value) (context : σ),
      acts[index]? = some (.dispatch packet context) →
        let before := acts.take index
        ∃ report, (Dispatcher.run {} acts).2[index]? = some (some report) ∧
          Dispatcher.Ran (Act.registered packet.type before) packet context report ∧
          report.1 = (Dispatcher.run {} before).1.count packet.type) ∧
    ∀ (schema : Schema) (config : Config) (registry : Registry) (packet : Value) (frame : Frame),
      registry.serializer = .build schema config → schema.Upright →
      schema.Throughout schema.Growing packet.type → registry.Delivers packet frame →
        (∀ (acts : List (Act σ)) (index : Nat) (context : σ),
          acts[index]? = some (.dispatchFrame frame context) →
            let before := acts.take index
            ∃ report, (Dispatcher.run {} acts).2[index]? = some (some report) ∧
              Dispatcher.Ran (Act.registered packet.type before) frame.value context report ∧
              report.1 = (Dispatcher.run {} before).1.count packet.type) ∧
        ∀ domain, schema.Throughout (schema.Recoverable config domain) packet.type →
          packet.Formed schema domain packet.type →
            frame.value = packet.renewed schema ∧
              (packet.Typed schema packet.type →
                (schema.Throughout schema.Keyed packet.type →
                  frame.value = packet.restored schema) ∧
                (schema.Whole packet.type → frame.value = packet)) := by
  constructor
  · intro acts index packet context done before
    have ran := Dispatcher.ran_invoke before packet.type packet.type.name packet rfl context
    exact ⟨_, Dispatcher.getElem?_run {} acts index _ done, ran,
      ran.count.trans (Dispatcher.count_run before packet.type).symm⟩
  · intro schema config registry packet frame built upright growing delivers
    obtain ⟨claims, -⟩ := delivers.claims built packet growing frame
    have own : frame.value.type = frame.type := by
      obtain ⟨bytes, -, memory, after, reached, read⟩ := delivers
      exact type_of_read built upright reached bytes frame after read
    constructor
    · intro acts index context done before
      have ran := Dispatcher.ran_invoke before frame.type frame.id frame.value own context
      rw [← claims]
      exact ⟨_, Dispatcher.getElem?_run {} acts index _ done, ran,
        ran.count.trans (Dispatcher.count_run before frame.type).symm⟩
    · intro domain recoverable formed
      have same := delivers.value_eq built packet recoverable formed frame
      have retains := recoverable.mono fun _ own => own.retains
      exact ⟨same, fun typed =>
        ⟨fun keyed => same.trans (Value.renewed_of_keyed typed retains keyed),
          fun whole => same.trans (Value.renewed_of_whole typed retains whole)⟩⟩

/-- What is done with a dispatcher of trees: three handlers are added, one of them for plots, a tree
    is dispatched, the handlers are removed, another one is added, and the tree is dispatched in a
    frame. -/
def felling (tree : Value) (frame : Frame) : List (Act (List String)) :=
  [.alter (.on (.named "Tree") fun _ log => log ++ ["first"]),
    .alter (.on (.named "Plot") fun _ log => log ++ ["plot"]),
    .alter (.on (.named "Tree") fun _ log => log ++ ["second"]),
    .dispatch tree [],
    .alter .clear,
    .alter (.on (.named "Tree") fun _ log => log ++ ["third"]),
    .dispatchFrame frame ["before"]]

/-- A tree that is dispatched runs the first two handlers for trees and no other, and in the frame
    that it comes back in, it runs the one that is left; only its depth is lost. -/
theorem dispatch_runs_registered_trees :
    let groves := Serializer.groves
    let registry := single (.build groves {}) (.named "Tree") "tree"
    let tree := Value.record (.named "Tree")
      [.string "oak", .u64 9, .sequence (.vector (.named "Tree")) []]
    ∃ frame, registry.1.Delivers tree frame ∧
      (∃ report, (Dispatcher.run {} (felling tree frame)).2[3]? = some (some report) ∧
        report.1 = 2 ∧ report.2.1 = ["first", "second"]) ∧
      (∃ report, (Dispatcher.run {} (felling tree frame)).2[6]? = some (some report) ∧
        report.1 = 1 ∧ report.2.1 = ["before", "third"]) ∧
      frame.value = .record (.named "Tree")
        [.string "oak", .u64 0, .sequence (.vector (.named "Tree")) []] := by
  intro groves registry tree
  have reached := reached_single (.build groves {}) (.named "Tree") "tree"
  obtain ⟨bytes, wrote⟩ := Option.isSome_iff_exists.mp
    (show (result? (registry.1.write tree registry.2)).isSome = true by decide +kernel)
  obtain ⟨between, written⟩ := exists_of_result? wrote
  have readable : (result? (registry.1.write tree registry.2)).bind
      (fun bytes => (result? (registry.1.read bytes registry.2)).map Frame.type)
        = some (.named "Tree") := by decide +kernel
  rw [wrote] at readable
  obtain ⟨frame, found, -⟩ := Option.map_eq_some_iff.mp readable
  obtain ⟨later, read⟩ := exists_of_result? found
  have delivers : registry.1.Delivers tree frame :=
    ⟨bytes, ⟨registry.2, between, reached, written⟩, registry.2, later, reached, read⟩
  have upright : groves.Upright := by
    intro entry listed
    simp only [groves, Serializer.groves, List.mem_cons, List.not_mem_nil, or_false] at listed
    obtain rfl | rfl := listed
    all_goals exact Catalogue.declared_upright _ _ _ _ _
  have recoverable : groves.Throughout (groves.Recoverable {} fun _ _ => True) tree.type :=
    (Serializer.groves_invertible (.named "Tree") (by decide)).mono fun _ own => own.1.recoverable
  have formed : tree.Formed groves (fun _ _ => True) tree.type :=
    (Serializer.grove_typed (.named "Tree", tree) List.mem_cons_self).formed
  obtain ⟨packets, frames⟩ := dispatch_runs_registered (List String)
  obtain ⟨handled, holds⟩ := frames groves {} registry.1 tree frame rfl upright
    (recoverable.mono fun _ own => own.growing) delivers
  obtain ⟨one, first, ranFirst, -⟩ := packets (felling tree frame) 3 tree [] rfl
  obtain ⟨two, second, ranSecond, -⟩ := handled (felling tree frame) 6 ["before"] rfl
  exact ⟨frame, delivers, ⟨one, first, ranFirst.count, ranFirst.context⟩,
    ⟨two, second, ranSecond.count, ranSecond.context⟩,
    (holds _ recoverable formed).1.trans (by rfl)⟩

/-- What the handlers below note of a packet: its type, and how it is spelled. -/
def note (packet : Value) : Ty × List Value.Token :=
  (packet.type, packet.spelling)

/-- What handlers have noted after a packet was dispatched as it is and then in the frame that it comes
    back in. There is one of them for each of the types, which are registered under the identifiers
    given with them. -/
def noted (schema : Schema) (types : List (Ty × String)) (packet : Value) :
    Option (List (Ty × List Value.Token)) := do
  let serializer := Serializer.build schema {}
  let start : Registry × Memory := ({ serializer }, serializer.start)
  let (registry, memory) := types.foldl (fun state entry =>
    state.1.registering entry.1 entry.2 state.2) start
  let dispatcher : Dispatcher (List (Ty × List Value.Token)) :=
    types.foldl (fun dispatcher entry =>
      dispatcher.on entry.1 fun packet notes => notes ++ [note packet]) {}
  let bytes ← result? (registry.write packet memory)
  let frame ← result? (registry.read bytes memory)
  return (dispatcher.dispatchFrame frame (dispatcher.dispatch packet []).2.1).2.1

/-- Types that are not read as they are written, each for a reason of its own. -/
def oddities : Schema where
  entries :=
    [ -- The constructor takes one argument of two.
      Catalogue.described "Clipped" [Catalogue.member "a" .i8, Catalogue.member "b" .i8]
        [(none, do return [← Arguments.take .i8, .i8 7])],
      -- Two members go by one name.
      Catalogue.enumerated "Twin" ["twin", "twin"],
      -- Another value is read than was written.
      { type := Catalogue.type "Fog", definition := .custom
          { write := fun _ => return ()
            read := return .record (Catalogue.type "Fog") [.i8 0] } },
      -- Elements of a set differ in what does not travel.
      Catalogue.declared (Catalogue.type "Visit")
        [Catalogue.member "place" .i8, Catalogue.skipped "count" .i8 (.i8 0)],
      Catalogue.declared (Catalogue.type "Journey")
        [Catalogue.member "visits" (.sequence .hashedSet (Catalogue.type "Visit"))],
      -- What is in the buffer is replaced by a frame of the type below.
      { type := Catalogue.type "Mask", definition := .custom
          { write := fun _ _ => .ok () ⟨.written (Buffer.shortText "face").reverse, {}⟩
            read := return .record (Catalogue.type "Mask") [] } },
      Catalogue.empty "Face" ]

/-- A frame can come back without its packet. What was not stored is lost, a member is taken for another
    one of its name, a type may read something else than it has written, and elements of a set that
    differ in nothing that travels are one. If a type writes over what is in the buffer before it, then
    even the handlers of another type are run. -/
theorem frames_of_other_packets :
    let named := Catalogue.type
    let noted := noted oddities [(named "Clipped", "clipped"), (named "Twin", "twin"),
      (named "Fog", "fog"), (named "Journey", "journey"), (named "Mask", "mask"),
      (named "Face", "face")]
    let clipped := fun b => Value.record (named "Clipped") [.i8 1, .i8 b]
    let twin := fun index => Value.member (named "Twin") index
    let fog := fun depth => Value.record (named "Fog") [.i8 depth]
    let visit := fun count => Value.record (named "Visit") [.i8 3, .i8 count]
    let journey := fun visits => Value.record (named "Journey")
      [.sequence (.sequence .hashedSet (named "Visit")) visits]
    let mask := Value.record (named "Mask") []
    let face := Value.record (named "Face") []
    noted (clipped 2) = some [note (clipped 2), note (clipped 7)] ∧
      noted (twin 1) = some [note (twin 1), note (twin 0)] ∧
      noted (fog 9) = some [note (fog 9), note (fog 0)] ∧
      noted (journey [visit 1, visit 2])
        = some [note (journey [visit 1, visit 2]), note (journey [visit 0])] ∧
      noted mask = some [note mask, note face] := by
  refine ⟨?_, ?_, ?_, ?_, ?_⟩
  all_goals decide +kernel

end Registry

end Packet

end Wireform
