import Wireform.Proofs.Blocks
import Wireform.Proofs.Frames
import Wireform.Proofs.Reports

/-!
# Compressed frames

A compressed frame stands between two limits, each of which is looked at in one direction of its own
account: the compressed bytes may not be too many when they are written and when they are read, the
frame in them may not be too large when it is read. Of the compressor it is only assumed that it
restores the frame at hand.

Compressed bytes that were written pass the first limit again, so the second one decides. A frame
within it is read from the compressed bytes exactly as from its own. One beyond it has been written
without complaint and is refused, however few bytes it was compressed to.
-/

namespace Wireform.Packet.Registry

variable (registry : Registry)

/-! ## Reading and memory -/

/-- What a frame is read as depends on the codecs that are remembered, and not on what has been
    reported. -/
theorem read_of_cache (bytes : Bytes) (memory other : Memory) (same : memory.cache = other.cache) :
    result? (registry.read bytes memory) = result? (registry.read bytes other) := by
  obtain ⟨cache, earlier⟩ := memory
  obtain ⟨_, later⟩ := other
  cases same
  unfold read
  cases Buffer.readShortString (registry.serializer.reader bytes) with
  | error cause buffer => rfl
  | ok id buffer =>
      simp only
      cases registry.typeOf? id with
      | none => rfl
      | some type =>
          -- Both memories hold what the one without events holds, and events of their own.
          have one := registry.serializer.decodeType_since earlier type buffer ⟨cache, []⟩
          have two := registry.serializer.decodeType_since later type buffer ⟨cache, []⟩
          simp only [Memory.since, List.nil_append] at one two
          simp only [one, two]
          cases registry.serializer.decodeType type buffer ⟨cache, []⟩ with
          | error cause state => rfl
          | ok value state =>
              simp only [Step.carry, Walk.State.since]
              cases state.buffer.ensureConsumed <;> rfl

/-! ## Both directions -/

/-- A compressed frame that is not too long is let through. -/
theorem checkCompressed_eq_ok (size : Nat) (small : size ≤ registry.limits.maxCompressed) :
    registry.checkCompressed size = .ok () := if_neg (Nat.not_lt.mpr small)

/-- Compressed bytes that are written are the compressed frame of the packet, and not too many. All
    that is remembered of it is how long the two are. -/
theorem writeCompressed_eq_ok (packet : Value) (compressed : Bytes) (memory after : Memory) :
    registry.writeCompressed packet memory = .ok compressed after ↔
      ∃ frame between, registry.write packet memory = .ok frame between ∧
        registry.compressor.compress frame = some compressed ∧
        compressed.length ≤ registry.limits.maxCompressed ∧
        after = ⟨between.cache,
          .compressedFrame frame.length compressed.length :: between.events⟩ := by
  change EStateM.bind (registry.write packet) _ memory = _ ↔ _
  unfold EStateM.bind
  cases ended : registry.write packet memory with
  | error error between => simp
  | ok frame between =>
      cases squeezed : registry.compressor.compress frame with
      | none =>
          simp only [squeezed]
          constructor
          · rintro ⟨⟩
          · rintro ⟨_, _, ⟨⟩, same, -⟩
            cases squeezed.symm.trans same
      | some bytes =>
          by_cases small : bytes.length ≤ registry.limits.maxCompressed
          · have admitted := registry.checkCompressed_eq_ok bytes.length small
            simp only [squeezed, admitted]
            constructor
            · rintro ⟨⟩
              exact ⟨frame, between, rfl, squeezed, small, rfl⟩
            · rintro ⟨_, _, ⟨⟩, same, -, rfl⟩
              cases squeezed.symm.trans same
              rfl
          · have refused : registry.checkCompressed bytes.length
                = .error (.oversized bytes.length registry.limits.maxCompressed) :=
              if_pos (Nat.lt_of_not_le small)
            simp only [squeezed, refused]
            constructor
            · rintro ⟨⟩
            · rintro ⟨_, _, ⟨⟩, same, allowed, -⟩
              cases squeezed.symm.trans same
              exact absurd allowed small

/-- Compressed bytes are read as what they are decompressed to, if neither is too much. -/
theorem readCompressed_apply (compressed : Bytes) (memory : Memory)
    (small : compressed.length ≤ registry.limits.maxCompressed) :
    registry.readCompressed compressed memory =
      match registry.compressor.decompress registry.limits.maxDecompressed compressed with
      | none => .error .compression memory
      | some frame => registry.read frame memory := by
  unfold readCompressed
  rw [registry.checkCompressed_eq_ok compressed.length small]
  cases registry.compressor.decompress registry.limits.maxDecompressed compressed <;> rfl

/-- What was compressed is read back exactly if the frame is within the limit of decompression: it
    is then read as the frame itself is, and otherwise refused, whatever is remembered. In
    particular, a frame that can be read right after it was written can also be read right after it
    was compressed, as the same packet under the same identifier. -/
theorem readCompressed_writeCompressed (packet : Value) (frame compressed : Bytes)
    (memory between after : Memory) (restores : registry.compressor.Restores frame)
    (written : registry.write packet memory = .ok frame between)
    (squeezed : registry.writeCompressed packet memory = .ok compressed after) :
    (∀ now, registry.readCompressed compressed now =
      if frame.length ≤ registry.limits.maxDecompressed then registry.read frame now
      else .error .compression now) ∧
      (frame.length ≤ registry.limits.maxDecompressed →
        ∀ found later, registry.read frame between = .ok found later →
          ∃ last, registry.readCompressed compressed after = .ok found last) := by
  obtain ⟨wrote, held, again, some, small, rfl⟩ :=
    (registry.writeCompressed_eq_ok packet compressed memory after).mp squeezed
  cases written.symm.trans again
  obtain ⟨_, only, decompresses⟩ := restores
  cases some.symm.trans only
  have reads (now : Memory) : registry.readCompressed compressed now =
      if frame.length ≤ registry.limits.maxDecompressed then registry.read frame now
      else .error .compression now := by
    rw [registry.readCompressed_apply compressed now small, decompresses]
    by_cases within : frame.length ≤ registry.limits.maxDecompressed
    · simp only [within, if_true]
    · simp only [within, if_false]
  constructor
  · exact reads
  · intro within found later read
    rw [reads, if_pos within]
    have same := registry.read_of_cache frame between ⟨between.cache,
      .compressedFrame frame.length compressed.length :: between.events⟩ rfl
    rw [read] at same
    exact exists_of_result? same.symm

/-- A registry for pings under some limits, and the memory it has then. -/
def pinging (limits : Limits) : Registry × Memory :=
  registering { serializer := .build pings {}, limits := limits } (.named "Ping") "ping"
    (Serializer.build pings {}).start

/-- A ping. -/
def ping : Value := .record (.named "Ping") [.i64 1]

/-- The frame of a ping: its identifier and its number. -/
def pingFrame : Bytes := [0, 4, 112, 105, 110, 103, 0, 0, 0, 0, 0, 0, 0, 1]

/-- What the frame of a ping is compressed to. It has no run that is worth a block. -/
def pingCompressed : Bytes := [40, 181, 47, 253, 32, 14, 113, 0, 0] ++ pingFrame

/-- A ping goes through compression where its frame and the compressed bytes are just as long as
    they may be. -/
theorem readCompressed_writeCompressed_ping :
    let (registry, memory) := pinging { maxCompressed := 23, maxDecompressed := 14 }
    ∃ between after found last,
      registry.compressor.Restores pingFrame ∧
        registry.write ping memory = .ok pingFrame between ∧
        registry.writeCompressed ping memory = .ok pingCompressed after ∧
        found.value.type = .named "Ping" ∧
        registry.readCompressed pingCompressed after = .ok found last := by
  let registry := (pinging { maxCompressed := 23, maxDecompressed := 14 }).1
  let memory := (pinging { maxCompressed := 23, maxDecompressed := 14 }).2
  have restores : registry.compressor.Restores pingFrame :=
    Zstandard.compressor_restores pingFrame (by decide)
  obtain ⟨between, written⟩ := exists_of_result?
    (show result? (registry.write ping memory) = some pingFrame by decide +kernel)
  obtain ⟨after, squeezed⟩ := exists_of_result?
    (show result? (registry.writeCompressed ping memory) = some pingCompressed by decide +kernel)
  obtain ⟨found, read, holds⟩ := Option.map_eq_some_iff.mp
    (show (result? (registry.read pingFrame (remembered (registry.write ping memory)))).map
        (fun found => found.value.type) = some (.named "Ping") by decide +kernel)
  obtain ⟨later, read⟩ := exists_of_result? read
  rw [written] at read
  obtain ⟨last, again⟩ := (registry.readCompressed_writeCompressed ping pingFrame pingCompressed
    memory between after restores written squeezed).2 (by decide) found later read
  exact ⟨between, after, found, last, restores, written, squeezed, holds, again⟩

/-- A ping that is written, read and compressed is not read from the compressed bytes where its
    frame is longer than may be decompressed. Nothing is wrong with the compressor, and nothing warns
    of it when the compressed bytes are written. -/
theorem compressed_beyond_limit :
    let (registry, memory) := pinging { maxDecompressed := 13 }
    Reached registry memory ∧ registry.compressor.Restores pingFrame ∧
      ∃ between found later after,
        registry.write ping memory = .ok pingFrame between ∧
        registry.read pingFrame between = .ok found later ∧ found.value.type = .named "Ping" ∧
        registry.writeCompressed ping memory = .ok pingCompressed after ∧
        registry.readCompressed pingCompressed after = .error .compression after := by
  let registry := (pinging { maxDecompressed := 13 }).1
  let memory := (pinging { maxDecompressed := 13 }).2
  have reached : Reached registry memory :=
    .register _ _ (.start (.build pings {}) { maxDecompressed := 13 } _ _ .start) _ _
  obtain ⟨between, written⟩ := exists_of_result?
    (show result? (registry.write ping memory) = some pingFrame by decide +kernel)
  obtain ⟨found, read, holds⟩ := Option.map_eq_some_iff.mp
    (show (result? (registry.read pingFrame (remembered (registry.write ping memory)))).map
        (fun found => found.value.type) = some (.named "Ping") by decide +kernel)
  obtain ⟨later, read⟩ := exists_of_result? read
  rw [written] at read
  obtain ⟨after, squeezed⟩ := exists_of_result?
    (show result? (registry.writeCompressed ping memory) = some pingCompressed by decide +kernel)
  have refused : registry.readCompressed pingCompressed after = .error .compression after := by
    rw [registry.readCompressed_apply pingCompressed after (by decide)]
    have beyond : registry.compressor.decompress 13 pingCompressed = none := by decide +kernel
    simp only [show registry.limits.maxDecompressed = 13 from rfl, beyond]
  exact ⟨reached, Zstandard.compressor_restores pingFrame (by decide), between, found, later, after,
    written, read, holds, squeezed, refused⟩

end Wireform.Packet.Registry
