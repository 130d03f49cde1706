import Wireform.Bytes

/-!
# Compression of frames

A compressor is a pair of functions on byte strings, of which the second takes the
most bytes that may come out. The one given here speaks a subset of the Zstandard
format: it reads frames of raw and run-length blocks without checksum, and it
writes such frames, with one run-length block for every maximal run that is long
enough to pay for its header and raw blocks for what is in between.
-/

namespace Wireform.Packet

/-- How frames are compressed. -/
structure Compressor where
  compress : Bytes → Option Bytes
  /-- Fails also when more than `limit` bytes would come out. -/
  decompress : (limit : Nat) → Bytes → Option Bytes

namespace Zstandard

/-- A number in `width` octets, least significant first. -/
def littleEndian (width number : Nat) : Bytes := (Bytes.bigEndian width number).reverse

/-- The number whose octets these are, least significant first. -/
def ofLittleEndian (bytes : Bytes) : Nat := Bytes.ofBigEndian bytes.reverse

/-- The octets that every frame starts with. -/
def magic : Bytes := [0x28, 0xB5, 0x2F, 0xFD]

/-- The most octets that are put into one block. -/
def largestBlock : Nat := 0x20000

/-- Takes exactly `count` bytes off the front. -/
def take? (count : Nat) (bytes : Bytes) : Option (Bytes × Bytes) :=
  let (front, rest) := bytes.splitAt count
  if front.length = count then some (front, rest) else none

/-- In how many octets the size of the content is given. -/
def sizeWidth (single : Bool) (sizeFlag : Nat) : Nat :=
  if sizeFlag = 0 then single.toNat else 1 <<< sizeFlag

/-- In how many octets a dictionary is given. -/
def dictionaryWidth (dictionaryFlag : Nat) : Nat :=
  if dictionaryFlag = 3 then 4 else dictionaryFlag

/-- Reads the header after the magic number: the size of the content, if it is
    given. Dictionaries, checksums, reserved features and windows of more than 31 bits
    are refused. -/
def header (bytes : Bytes) : Option (Option Nat × Bytes) := do
  let (descriptor, rest) ← take? 1 bytes
  let descriptor := ofLittleEndian descriptor
  let sizeFlag := descriptor / 64
  let single := descriptor / 32 % 2 == 1
  if descriptor / 4 % 4 != 0 then none
  else
    let (window, rest) ← take? (if single then 0 else 1) rest
    let (dictionary, rest) ← take? (dictionaryWidth (descriptor % 4)) rest
    if ofLittleEndian window / 8 > 21 || ofLittleEndian dictionary != 0 then none
    else
      let width := sizeWidth single sizeFlag
      let (size, rest) ← take? width rest
      let size := ofLittleEndian size + (if sizeFlag = 1 then 256 else 0)
      return (if width = 0 then none else some size, rest)

/-- What a block of a type yields: its own octets, or its one octet repeated. -/
def body (type size : Nat) (bytes : Bytes) : Option (Bytes × Bytes) :=
  match type with
  | 0 => take? size bytes
  | 1 => (take? 1 bytes).map fun taken => (taken.1.flatMap (List.replicate size), taken.2)
  | _ => none

/-- Reads blocks up to the last one. The fuel bounds their number; every block has
    a header, so the length of the input is enough. What has come out so far is kept
    newest octet first. -/
def blocks (limit : Nat) : (fuel : Nat) → (total : Nat) → (reversed : Bytes) →
    Bytes → Option (Nat × Bytes × Bytes)
  | 0, _, _, _ => none
  | fuel + 1, total, reversed, bytes => do
      let (head, rest) ← take? 3 bytes
      let head := ofLittleEndian head
      let size := head / 8
      if total + size > limit then none
      let (content, rest) ← body (head / 2 % 4) size rest
      let reversed := content.reverseAux reversed
      if head % 2 == 1 then return (total + size, reversed, rest)
      else blocks limit fuel (total + size) reversed rest

/-- Reads one frame after the magic number. A content size that is given must be
    met. -/
def frame (limit : Nat) (bytes : Bytes) : Option (Bytes × Bytes) := do
  let (content, rest) ← header bytes
  let (total, reversed, rest) ← blocks limit (rest.length + 1) 0 [] rest
  if content.any (· != total) then none else return (reversed.reverse, rest)

/-- Whether a frame with these first octets is to be passed over. -/
def skippable (start : Bytes) : Bool :=
  ofLittleEndian start / 16 == 0x184D2A5

/-- Passes over a frame after its first octets. -/
def skip (bytes : Bytes) : Option Bytes := do
  let (size, rest) ← take? 4 bytes
  let (_, rest) ← take? (ofLittleEndian size) rest
  return rest

/-- Reads frames until nothing is left. The fuel bounds their number. -/
def frames (limit : Nat) : (fuel : Nat) → Bytes → Option Bytes
  | _, [] => some []
  | 0, _ => none
  | fuel + 1, bytes => do
      let (start, rest) ← take? 4 bytes
      if skippable start then frames limit fuel (← skip rest)
      else if start = magic then
        let (content, rest) ← frame limit rest
        let others ← frames (limit - content.length) fuel rest
        return content ++ others
      else none

/-- A run-length block is shorter than a raw one from this length on. -/
def worthwhile : Nat := 8

/-- The maximal runs of a byte string: octets with the number of times they stand
    one after another. -/
def runs (bytes : Bytes) : List (UInt8 × Nat) :=
  bytes.foldr extend []
where
  /-- The runs with one more octet in front. -/
  extend (octet : UInt8) : List (UInt8 × Nat) → List (UInt8 × Nat)
  | [] => [(octet, 1)]
  | (next, count) :: others =>
      if octet = next then (next, count + 1) :: others
      else (octet, 1) :: (next, count) :: others

/-- A block of a frame: its kind, its size and its octets. -/
structure Block where
  repeats : Bool
  size : Nat
  octets : Bytes

/-- Splits a run into as many blocks as its length needs. The fuel bounds their
    number. -/
def split (octet : UInt8) : (fuel : Nat) → (count : Nat) → List Block
  | 0, _ => []
  | fuel + 1, count =>
      if count = 0 then []
      else if count ≤ largestBlock then [⟨true, count, [octet]⟩]
      else ⟨true, largestBlock, [octet]⟩ :: split octet fuel (count - largestBlock)

/-- Puts short runs together into raw blocks. The raw octets gathered so far are
    kept newest first. -/
def arrange : (pending : Bytes) → (count : Nat) → List (UInt8 × Nat) → List Block
  | pending, count, [] => if count = 0 then [] else [⟨false, count, pending.reverse⟩]
  | pending, count, (octet, length) :: rest =>
      if length < worthwhile then
        if count + length > largestBlock then
          ⟨false, count, pending.reverse⟩ :: arrange (List.replicate length octet) length rest
        else arrange (List.replicate length octet ++ pending) (count + length) rest
      else
        (if count = 0 then [] else [⟨false, count, pending.reverse⟩])
          ++ split octet (length + 1) length ++ arrange [] 0 rest

/-- The blocks of a frame, the last one marked. A frame has at least one. -/
def render : List Block → Bytes
  | [] => littleEndian 3 1
  | [block] => one true block
  | block :: rest => one false block ++ render rest
where
  /-- One block with its header. -/
  one (last : Bool) (block : Block) : Bytes :=
    littleEndian 3 (block.size * 8 + (if block.repeats then 2 else 0) + last.toNat)
      ++ block.octets

/-- The header of a frame without a window that gives the size of its content in as
    few octets as possible. -/
def sizeHeader (size : Nat) : Bytes :=
  if size < 256 then 0x20 :: littleEndian 1 size
  else if size < 256 + 0x10000 then 0x60 :: littleEndian 2 (size - 256)
  else if size < 0x100000000 then 0xA0 :: littleEndian 4 size
  else 0xE0 :: littleEndian 8 size

/-- Writes one frame. -/
def compress (bytes : Bytes) : Bytes :=
  magic ++ sizeHeader bytes.length ++ render (arrange [] 0 (runs bytes))

/-- The compressor of this format. -/
def compressor : Compressor where
  compress bytes := some (compress bytes)
  decompress limit bytes := frames limit (bytes.length + 1) bytes

end Zstandard

end Wireform.Packet
