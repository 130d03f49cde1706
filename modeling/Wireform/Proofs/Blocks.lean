import Wireform.Packet.Compression

/-!
# Compressed bytes are read again

Compressing cuts bytes into maximal runs, arranges these into blocks and puts a header in front that
tells how many bytes there are. Nothing gets lost on the way: the runs spell the bytes, the blocks
spell the runs, and the reader finds the header and every block as they were written. The reader
stops at the first block with which too many bytes would come out, and there is such a block exactly
if the limit is below the number of bytes.

A header has no room for sizes of more than eight octets, so all of this is about fewer bytes than
that.
-/

namespace Wireform.Packet

/-- Compressing the bytes succeeds, and what they are compressed to gives them back under every limit
    that admits so many, and fails under all others. -/
def Compressor.Restores (compressor : Compressor) (bytes : Bytes) : Prop :=
  ∃ compressed, compressor.compress bytes = some compressed ∧
    ∀ limit, compressor.decompress limit compressed
      = if bytes.length ≤ limit then some bytes else none

namespace Zstandard

/-! ## Octets -/

/-- A number in so many octets is so long. -/
@[simp] theorem length_littleEndian (width number : Nat) :
    (littleEndian width number).length = width := by
  simp [littleEndian, Bytes.length_bigEndian]

/-- A number that fits its octets is found in them. -/
theorem ofLittleEndian_littleEndian (width number : Nat) (fits : number < Bytes.capacity width) :
    ofLittleEndian (littleEndian width number) = number := by
  rw [ofLittleEndian, littleEndian, List.reverse_reverse, Bytes.ofBigEndian_bigEndian,
    Nat.mod_eq_of_lt fits]

/-- As many bytes are taken as there are in front. -/
theorem take?_append (count : Nat) (front rest : Bytes) (counted : front.length = count) :
    take? count (front ++ rest) = some (front, rest) := by
  subst counted
  simp [take?, List.splitAt_eq]

/-- A number in so many octets is taken. -/
theorem take?_littleEndian (width number : Nat) (rest : Bytes) :
    take? width (littleEndian width number ++ rest) = some (littleEndian width number, rest) :=
  take?_append width _ rest (length_littleEndian width number)

/-! ## Runs -/

/-- The bytes that runs spell. -/
def spelled (runs : List (UInt8 × Nat)) : Bytes :=
  runs.flatMap fun run => List.replicate run.2 run.1

/-- One more octet in front of runs is spelled in front. -/
theorem spelled_extend (octet : UInt8) (list : List (UInt8 × Nat)) :
    spelled (runs.extend octet list) = octet :: spelled list := by
  cases list with
  | nil => rfl
  | cons run others =>
      obtain ⟨next, count⟩ := run
      by_cases same : octet = next
      · simp [runs.extend, same, spelled, List.replicate_succ]
      · simp [runs.extend, same, spelled]

/-- The runs of bytes spell the bytes. -/
theorem spelled_runs (bytes : Bytes) : spelled (runs bytes) = bytes := by
  induction bytes with
  | nil => rfl
  | cons octet rest inductionHypothesis =>
      have extended : runs (octet :: rest) = runs.extend octet (runs rest) := rfl
      rw [extended, spelled_extend, inductionHypothesis]

/-! ## Blocks -/

namespace Block

/-- The bytes that a block stands for. -/
def content (block : Block) : Bytes :=
  if block.repeats then block.octets.flatMap (List.replicate block.size) else block.octets

/-- A block is no larger than blocks may be, and it has its own octets or one that is repeated. -/
structure Sound (block : Block) : Prop where
  small : block.size ≤ largestBlock
  octets : block.octets.length = if block.repeats then 1 else block.size

/-- A block stands for as many bytes as it says. -/
theorem Sound.length_content {block : Block} (sound : block.Sound) :
    block.content.length = block.size := by
  obtain ⟨repeats, size, octets⟩ := block
  have counted := sound.octets
  cases repeats with
  | true =>
      obtain ⟨octet, rfl⟩ := List.length_eq_one_iff.mp counted
      simp [content]
  | false => simpa [content] using counted

end Block

/-- The bytes that blocks stand for. -/
def contents (list : List Block) : Bytes := list.flatMap Block.content

/-- A run that is split into blocks is what they stand for, and the blocks are sound. -/
theorem split_spec (octet : UInt8) (fuel count : Nat) (enough : count ≤ fuel) :
    contents (split octet fuel count) = List.replicate count octet ∧
      ∀ block ∈ split octet fuel count, block.Sound := by
  induction fuel generalizing count with
  | zero =>
      obtain rfl : count = 0 := Nat.le_zero.mp enough
      exact ⟨rfl, List.forall_mem_nil _⟩
  | succ fuel inductionHypothesis =>
      by_cases none : count = 0
      · subst none
        exact ⟨rfl, List.forall_mem_nil _⟩
      · by_cases one : count ≤ largestBlock
        · simp only [split, none, one, if_true, if_false]
          refine ⟨by simp [contents, Block.content], fun block listed => ?_⟩
          cases List.mem_singleton.mp listed
          exact ⟨one, rfl⟩
        · have positive : 0 < largestBlock := by decide
          obtain ⟨spells, sound⟩ := inductionHypothesis (count - largestBlock) (by omega)
          simp only [split, none, one, if_false]
          constructor
          · have first (size : Nat) : Block.content ⟨true, size, [octet]⟩
                = List.replicate size octet := List.append_nil _
            rw [contents] at spells
            rw [contents, List.flatMap_cons, spells, first, List.replicate_append_replicate,
              Nat.add_sub_cancel' (by omega)]
          · exact List.forall_mem_cons.mpr ⟨⟨Nat.le_refl _, rfl⟩, sound⟩

/-- Gathered octets become a block unless there are none. -/
theorem flush_spec (pending : Bytes) (small : pending.length ≤ largestBlock) :
    let flushed : List Block :=
      if pending.length = 0 then [] else [⟨false, pending.length, pending.reverse⟩]
    contents flushed = pending.reverse ∧ ∀ block ∈ flushed, block.Sound := by
  intro flushed
  by_cases none : pending.length = 0
  · have empty : flushed = [] := if_pos none
    rw [empty, List.length_eq_zero_iff.mp none]
    exact ⟨rfl, List.forall_mem_nil _⟩
  · have one : flushed = [⟨false, pending.length, pending.reverse⟩] := if_neg none
    rw [one]
    refine ⟨List.append_nil _, fun block listed => ?_⟩
    cases List.mem_singleton.mp listed
    exact ⟨small, List.length_reverse⟩

/-- Runs that are arranged behind gathered octets are what the blocks stand for, and the blocks are
    sound. -/
theorem arrange_spec (pending : Bytes) (list : List (UInt8 × Nat))
    (small : pending.length ≤ largestBlock) :
    contents (arrange pending pending.length list) = pending.reverse ++ spelled list ∧
      ∀ block ∈ arrange pending pending.length list, block.Sound := by
  induction list generalizing pending with
  | nil =>
      obtain ⟨spells, sound⟩ := flush_spec pending small
      refine ⟨?_, sound⟩
      rw [arrange, spells]
      exact (List.append_nil _).symm
  | cons run rest inductionHypothesis =>
      obtain ⟨octet, length⟩ := run
      have bound : worthwhile ≤ largestBlock := by decide
      by_cases short : length < worthwhile
      · have room : (List.replicate length octet).length ≤ largestBlock := by
          rw [List.length_replicate]
          omega
        by_cases full : pending.length + length > largestBlock
        · obtain ⟨spells, sound⟩ := inductionHypothesis (List.replicate length octet) room
          rw [List.length_replicate] at spells sound
          simp only [arrange, short, full, if_true]
          constructor
          · rw [contents] at spells
            rw [contents, List.flatMap_cons, spells, List.reverse_replicate]
            rfl
          · exact List.forall_mem_cons.mpr ⟨⟨small, List.length_reverse⟩, sound⟩
        · obtain ⟨spells, sound⟩ := inductionHypothesis (List.replicate length octet ++ pending)
            (by rw [List.length_append, List.length_replicate]; omega)
          rw [List.length_append, List.length_replicate, Nat.add_comm] at spells sound
          simp only [arrange, short, full, if_true, if_false]
          refine ⟨?_, sound⟩
          rw [spells, List.reverse_append, List.reverse_replicate, List.append_assoc]
          rfl
      · obtain ⟨flushed, soundFlushed⟩ := flush_spec pending small
        obtain ⟨cut, soundCut⟩ := split_spec octet (length + 1) length (Nat.le_succ length)
        obtain ⟨spells, sound⟩ := inductionHypothesis [] (Nat.zero_le _)
        simp only [arrange, short, if_false]
        rw [contents] at flushed cut spells
        constructor
        · rw [contents, List.flatMap_append, List.flatMap_append, flushed, cut]
          rw [List.append_assoc]
          congr 2
        · intro block listed
          rw [List.mem_append, List.mem_append] at listed
          obtain (first | second) | third := listed
          · exact soundFlushed block first
          · exact soundCut block second
          · exact sound block third

/-! ## Reading -/

/-- The number in the header of a block. -/
def headerOf (last : Bool) (block : Block) : Nat :=
  block.size * 8 + (if block.repeats then 2 else 0) + last.toNat

/-- The header of a sound block fits in three octets and tells its size, its kind and whether it is
    the last one. -/
theorem header_spec (last : Bool) (block : Block) (sound : block.Sound) :
    headerOf last block < Bytes.capacity 3 ∧ headerOf last block / 8 = block.size ∧
      headerOf last block / 2 % 4 = block.repeats.toNat ∧
      (headerOf last block % 2 == 1) = last := by
  have small : block.size ≤ 0x20000 := sound.small
  have room : Bytes.capacity 3 = 0x1000000 := rfl
  unfold headerOf
  cases last <;> cases block.repeats <;> simp <;> omega

/-- The octets of a sound block are read as what it stands for. -/
theorem body_content (block : Block) (sound : block.Sound) (rest : Bytes) :
    body block.repeats.toNat block.size (block.octets ++ rest) = some (block.content, rest) := by
  have counted := sound.octets
  cases kind : block.repeats with
  | true =>
      rw [kind, if_pos rfl] at counted
      simp [body, take?_append 1 _ rest counted, Block.content, kind]
  | false =>
      rw [kind, if_neg (by decide)] at counted
      simp [body, take?_append _ _ rest counted, Block.content, kind]

/-- One sound block is read, if the limit admits it. -/
theorem blocks_one (limit fuel total : Nat) (reversed : Bytes) (last : Bool) (block : Block)
    (sound : block.Sound) (rest : Bytes) :
    blocks limit (fuel + 1) total reversed (render.one last block ++ rest)
      = if total + block.size ≤ limit then
          if last then some (total + block.size, block.content.reverse ++ reversed, rest)
          else blocks limit fuel (total + block.size) (block.content.reverse ++ reversed) rest
        else none := by
  obtain ⟨fits, size, kind, ends⟩ := header_spec last block sound
  have split : render.one last block ++ rest
      = littleEndian 3 (headerOf last block) ++ (block.octets ++ rest) := by
    simp [render.one, headerOf]
  rw [split]
  simp only [blocks, take?_littleEndian, ofLittleEndian_littleEndian 3 _ fits, size, kind, ends,
    Option.bind_eq_bind, Option.bind_some, body_content block sound, List.reverseAux_eq]
  by_cases admitted : total + block.size ≤ limit
  · simp [admitted, Nat.not_lt.mpr admitted]
  · simp [admitted, Nat.lt_of_not_le admitted]

/-- Rendered blocks are read, if the limit admits all that they stand for. -/
theorem blocks_render (limit : Nat) (list : List Block) (sound : ∀ block ∈ list, block.Sound)
    (fuel : Nat) (enough : list.length ≤ fuel) (total : Nat) (reversed rest : Bytes) :
    blocks limit (fuel + 1) total reversed (render list ++ rest)
      = if total + (contents list).length ≤ limit then
          some (total + (contents list).length, (contents list).reverse ++ reversed, rest)
        else none := by
  induction list generalizing fuel total reversed with
  | nil =>
      have empty : render [] ++ rest = render.one true ⟨false, 0, []⟩ ++ rest := by
        simp [render, render.one]
      rw [empty, blocks_one limit fuel total reversed true _ ⟨Nat.zero_le _, rfl⟩ rest]
      simp [contents, Block.content]
  | cons block others inductionHypothesis =>
      obtain ⟨first, later⟩ := List.forall_mem_cons.mp sound
      have counted := first.length_content
      cases others with
      | nil =>
          rw [render, blocks_one limit fuel total reversed true block first rest]
          simp [contents, counted]
      | cons next behind =>
          obtain ⟨fuel, rfl⟩ : ∃ less, fuel = less + 1 :=
            Nat.exists_eq_add_one_of_ne_zero (by simp at enough; omega)
          have whole : contents (block :: next :: behind)
              = block.content ++ contents (next :: behind) := rfl
          have further := inductionHypothesis later fuel (by simpa using enough)
            (total + block.size) (block.content.reverse ++ reversed)
          have marked : render (block :: next :: behind)
              = render.one false block ++ render (next :: behind) := rfl
          rw [marked, List.append_assoc,
            blocks_one limit (fuel + 1) total reversed false block first, further, whole,
            List.length_append, counted, ← Nat.add_assoc]
          by_cases admitted : total + block.size ≤ limit
          · simp [admitted]
          · have beyond : ¬ total + block.size + (contents (next :: behind)).length ≤ limit := by
              omega
            simp [admitted, beyond]

/-! ## Frames -/

/-- A header that gives a size in so many octets, and neither a window nor a dictionary, is read as
    that size. -/
theorem header_single (descriptor : UInt8) (flag : Nat)
    (spells : descriptor.toNat = flag * 64 + 32) (number : Nat)
    (fits : number < Bytes.capacity (sizeWidth true flag)) (rest : Bytes) :
    header (descriptor :: (littleEndian (sizeWidth true flag) number ++ rest))
      = some (some (number + if flag = 1 then 256 else 0), rest) := by
  have one (octet : UInt8) (bytes : Bytes) : take? 1 (octet :: bytes) = some ([octet], bytes) :=
    take?_append 1 [octet] bytes rfl
  have none (bytes : Bytes) : take? 0 bytes = some ([], bytes) := take?_append 0 [] bytes rfl
  have described : ofLittleEndian [descriptor] = flag * 64 + 32 := by
    simp [ofLittleEndian, Bytes.ofBigEndian, spells]
  have sized : (flag * 64 + 32) / 64 = flag := by omega
  have single : (flag * 64 + 32) / 32 % 2 = 1 := by omega
  have plain : (flag * 64 + 32) / 4 % 4 = 0 := by omega
  have known : (flag * 64 + 32) % 4 = 0 := by omega
  have free : dictionaryWidth 0 = 0 := rfl
  have empty : ofLittleEndian [] = 0 := rfl
  have wide : sizeWidth true flag ≠ 0 := by
    unfold sizeWidth
    split
    · decide
    · exact Nat.ne_of_gt (by rw [Nat.shiftLeft_eq, Nat.one_mul]; exact Nat.two_pow_pos flag)
  simp only [header, one, Option.bind_eq_bind, Option.bind_some, described, sized, single, plain,
    known, free, beq_self_eq_true, if_true, none, take?_littleEndian,
    ofLittleEndian_littleEndian _ number fits]
  simp [empty, wide]

/-- A header is read as the size that it was written for. -/
theorem header_sizeHeader (size : Nat) (small : size < Bytes.capacity 8) (rest : Bytes) :
    header (sizeHeader size ++ rest) = some (some size, rest) := by
  have two : Bytes.capacity 2 = 0x10000 := rfl
  unfold sizeHeader
  split
  · next fits => exact header_single 0x20 0 rfl size fits rest
  · next large =>
      split
      · next fits =>
          have read := header_single 0x60 1 rfl (size - 256)
            (show size - 256 < Bytes.capacity 2 by omega) rest
          rwa [if_pos rfl, Nat.sub_add_cancel (by omega)] at read
      · split
        · next fits => exact header_single 0xA0 2 rfl size fits rest
        · exact header_single 0xE0 3 rfl size small rest

/-- There are no more blocks than octets that they are written in. -/
theorem length_le_render (list : List Block) : list.length ≤ (render list).length := by
  induction list with
  | nil => exact Nat.zero_le _
  | cons block others inductionHypothesis =>
      cases others with
      | nil => simp [render, render.one]; omega
      | cons next behind =>
          have marked : render (block :: next :: behind)
              = render.one false block ++ render (next :: behind) := rfl
          rw [marked, List.length_append, render.one, List.length_append, length_littleEndian,
            List.length_cons]
          omega

/-- What is compressed is one frame, which is read if the limit admits its content. -/
theorem frame_compress (limit : Nat) (bytes : Bytes) (small : bytes.length < Bytes.capacity 8) :
    frame limit (sizeHeader bytes.length ++ render (arrange [] 0 (runs bytes)))
      = if bytes.length ≤ limit then some (bytes, []) else none := by
  obtain ⟨spells, sound⟩ := arrange_spec [] (runs bytes) (Nat.zero_le _)
  rw [spelled_runs] at spells
  have read := blocks_render limit (arrange [] 0 (runs bytes)) sound
    (render (arrange [] 0 (runs bytes))).length (length_le_render _) 0 [] []
  simp only [List.length_nil, List.reverse_nil, List.nil_append, List.append_nil, Nat.zero_add]
    at spells read
  rw [spells] at read
  simp only [frame, header_sizeHeader _ small, Option.bind_eq_bind, Option.bind_some, read]
  by_cases admitted : bytes.length ≤ limit
  · simp [admitted]
  · simp [admitted]

/-- Frames that start as such are read one after the other. -/
theorem frames_magic (limit fuel : Nat) (rest : Bytes) :
    frames limit (fuel + 1) (magic ++ rest)
      = (frame limit rest).bind fun first =>
          (frames (limit - first.1.length) fuel first.2).map (first.1 ++ ·) := by
  have kind : skippable magic = false := by decide
  have start : take? 4 (0x28 :: 0xB5 :: 0x2F :: 0xFD :: rest) = some (magic, rest) :=
    take?_append 4 magic rest rfl
  show frames limit (fuel + 1) (0x28 :: 0xB5 :: 0x2F :: 0xFD :: rest) = _
  simp only [frames, start, Option.bind_eq_bind, Option.bind_some, kind, Bool.false_eq_true,
    if_false, if_true, Option.map_eq_bind, Function.comp_def, Option.pure_def]

/-- Compressing fewer bytes than a header has room for loses none of them. -/
theorem compressor_restores (bytes : Bytes) (small : bytes.length < Bytes.capacity 8) :
    compressor.Restores bytes := by
  refine ⟨compress bytes, rfl, fun limit => ?_⟩
  simp only [compressor, compress, List.append_assoc, frames_magic, frame_compress limit bytes small]
  by_cases admitted : bytes.length ≤ limit
  · simp [admitted, frames]
  · simp [admitted]

end Zstandard

end Wireform.Packet
