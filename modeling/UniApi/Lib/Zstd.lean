/-
**The frames of a zstd stream.**

* `Block`: a three byte head (last bit, type, size) and a payload, one byte where the type is RLE;
* `SkippableFrame`, `StandardFrame`: what stands in a frame, and its bytes;
* `encodeFrames`, `maxWindow`: frames one after the other, and the largest window that they declare.

What a header of a standard frame declares is a parameter of all of this.
-/

import Mathlib.Data.Nat.Digits.Defs
import UniApi.Lib.Utf8

namespace UniApi.Lib.Zstd

/-- The number of some bytes, the least significant one first. -/
def little (bytes : Bytes) : ℕ := Nat.ofDigits 256 (bytes.map UInt8.toNat)

/-! ### Blocks -/

inductive BlockType where
  | raw
  | rle
  | compressed
  deriving DecidableEq

/-- Two bits. The type 3 is reserved. -/
def BlockType.code : BlockType → ℕ
  | .raw => 0
  | .rle => 1
  | .compressed => 2

/-- An RLE block holds one byte, however often it is repeated. -/
def BlockType.payloadLength (size : ℕ) : BlockType → ℕ
  | .raw => size
  | .rle => 1
  | .compressed => size

/-- The type of a code that is not reserved. -/
def BlockType.ofCode (code : ℕ) : BlockType :=
  if code = 0 then .raw else if code = 1 then .rle else .compressed

theorem BlockType.code_ofCode {code : ℕ} (known : code < 3) : (ofCode code).code = code := by
  match code, known with
  | 0, _ | 1, _ | 2, _ => rfl

theorem BlockType.code_lt (type : BlockType) : type.code < 3 := by
  cases type <;> decide

theorem BlockType.ofCode_code (type : BlockType) : ofCode type.code = type := by
  cases type <;> rfl

theorem BlockType.payloadLength_ofCode (size code : ℕ) :
    (ofCode code).payloadLength size = if code = 1 then 1 else size := by
  unfold ofCode
  split_ifs with raw rle rle
  · omega
  · rfl
  · rfl
  · rfl

structure Block where
  last : Bool
  type : BlockType
  size : ℕ
  head : Bytes
  payload : Bytes
  head_length : head.length = 3
  little_head : little head = last.toNat + 2 * type.code + 8 * size
  payload_length : payload.length = type.payloadLength size

theorem Block.fields (block : Block) : (little block.head % 2 = 1 ↔ block.last = true) ∧
    little block.head / 2 % 4 = block.type.code ∧ little block.head / 8 = block.size := by
  have known := block.type.code_lt
  rw [block.little_head]
  cases block.last with
  | false =>
    rw [Bool.toNat_false]
    exact ⟨⟨fun odd => by omega, nofun⟩, by omega, by omega⟩
  | true =>
    rw [Bool.toNat_true]
    exact ⟨⟨fun _ => rfl, fun _ => by omega⟩, by omega, by omega⟩

def Block.encode (block : Block) : Bytes := block.head ++ block.payload

/-- Blocks up to the one with the last bit. -/
structure Blocks where
  before : List Block
  final : Block
  before_last : ∀ block ∈ before, block.last = false
  final_last : final.last = true

def Blocks.encode (blocks : Blocks) : Bytes :=
  blocks.before.flatMap Block.encode ++ blocks.final.encode

/-- One block, with the last bit. -/
def Blocks.single (block : Block) (last : block.last = true) : Blocks := ⟨[], block, nofun, last⟩

/-- A block in front of blocks. -/
def Blocks.cons (block : Block) (more : block.last = false) (blocks : Blocks) : Blocks where
  before := block :: blocks.before
  final := blocks.final
  before_last := by
    intro other among
    rcases List.mem_cons.mp among with same | later
    · rw [same, more]
    · exact blocks.before_last other later
  final_last := blocks.final_last

theorem Blocks.encode_cons (block : Block) (more : block.last = false) (blocks : Blocks) :
    (cons block more blocks).encode = block.encode ++ blocks.encode := by
  rw [encode, encode, cons, List.flatMap_cons, List.append_assoc]

/-- **Induction on blocks**, from the last one. -/
theorem Blocks.induct {motive : Blocks → Prop} (single : ∀ block last, motive (single block last))
    (cons : ∀ block more blocks, motive blocks → motive (cons block more blocks))
    (blocks : Blocks) : motive blocks := by
  obtain ⟨before, final, before_last, final_last⟩ := blocks
  induction before with
  | nil => exact single final final_last
  | cons block before ih =>
    exact cons block (before_last block List.mem_cons_self) _
      (ih fun other among => before_last other (List.mem_cons_of_mem _ among))

/-! ### Frames -/

/-- What a header declares. -/
structure FrameParameters where
  windowSize : ℕ
  hasChecksum : Bool
  deriving DecidableEq

structure SkippableFrame where
  magic : Bytes
  size : Bytes
  payload : Bytes
  magic_length : magic.length = 4
  magic_range : 0x184D2A50 ≤ little magic ∧ little magic ≤ 0x184D2A5F
  size_length : size.length = 4
  payload_length : payload.length = little size

def SkippableFrame.encode (frame : SkippableFrame) : Bytes :=
  frame.magic ++ frame.size ++ frame.payload

/-- A header begins with the magic number. -/
structure StandardFrame (IsHeader : Bytes → FrameParameters → Prop) where
  header : Bytes
  parameters : FrameParameters
  blocks : Blocks
  checksum : Bytes
  header_magic : little (header.take 4) = 0xFD2FB528
  isHeader : IsHeader header parameters
  checksum_length : checksum.length = if parameters.hasChecksum then 4 else 0

variable {IsHeader : Bytes → FrameParameters → Prop}

def StandardFrame.encode (frame : StandardFrame IsHeader) : Bytes :=
  frame.header ++ frame.blocks.encode ++ frame.checksum

inductive Frame (IsHeader : Bytes → FrameParameters → Prop) where
  | skippable (frame : SkippableFrame)
  | standard (frame : StandardFrame IsHeader)

def Frame.encode : Frame IsHeader → Bytes
  | .skippable frame => frame.encode
  | .standard frame => frame.encode

/-- The window that a frame declares. A skippable one declares none. -/
def Frame.window : Frame IsHeader → ℕ
  | .skippable _ => 0
  | .standard frame => frame.parameters.windowSize

/-- **Frames one after the other.** -/
def encodeFrames (frames : List (Frame IsHeader)) : Bytes := frames.flatMap Frame.encode

/-- **The largest window** that the standard frames declare, `0` without any. -/
def maxWindow (frames : List (Frame IsHeader)) : ℕ := (frames.map Frame.window).foldr max 0

/-! ### Headers -/

/-- The fields of a frame header descriptor. -/
structure Descriptor where
  contentFlag : ℕ
  singleSegment : Bool
  reserved : Bool
  checksum : Bool
  dictionaryFlag : ℕ

def descriptor (byte : UInt8) : Descriptor where
  contentFlag := byte.toNat / 64
  singleSegment := byte.toNat / 32 % 2 = 1
  reserved := byte.toNat / 8 % 2 = 1
  checksum := byte.toNat / 4 % 2 = 1
  dictionaryFlag := byte.toNat % 4

def Descriptor.windowBytes (fields : Descriptor) : ℕ := if fields.singleSegment then 0 else 1

def Descriptor.dictionaryBytes (fields : Descriptor) : ℕ :=
  if fields.dictionaryFlag = 3 then 4 else fields.dictionaryFlag

def Descriptor.contentBytes (fields : Descriptor) : ℕ :=
  if fields.contentFlag = 0 then (if fields.singleSegment then 1 else 0) else 2 ^ fields.contentFlag

/-- The size of the header at the start of some bytes. -/
def headerSize (data : Bytes) : Option ℕ :=
  data[4]?.map fun byte =>
    5 + (descriptor byte).windowBytes + (descriptor byte).dictionaryBytes +
      (descriptor byte).contentBytes

/-- The window of a window descriptor: a power of two and so many eighths of it. -/
def windowOf (byte : UInt8) : Option ℕ :=
  let log := byte.toNat / 8 + 10
  if log > 31 then none else some (2 ^ log + 2 ^ log / 8 * (byte.toNat % 8))

/-- The content size of a single segment is its window. -/
def contentOf (field : Bytes) : ℕ := little field + if field.length = 2 then 256 else 0

/-- What a complete header declares. -/
def readHeader (header : Bytes) : Option FrameParameters := do
  let byte ← header[4]?
  let fields := descriptor byte
  if little (header.take 4) ≠ 0xFD2FB528 ∨ fields.reserved then none
  else if fields.singleSegment then
    return ⟨contentOf (header.drop (5 + fields.dictionaryBytes)), fields.checksum⟩
  else
    let window ← windowOf (← header[5]?)
    return ⟨window, fields.checksum⟩

/-- **The header** at the start of some bytes, if it is complete and valid. -/
def headerAt (data : Bytes) : Option (ℕ × FrameParameters) := do
  let size ← headerSize data
  if data.length < size then none
  else
    let parameters ← readHeader (data.take size)
    return (size, parameters)

/-- These bytes are a header that declares this. -/
def IsStandardHeader (header : Bytes) (parameters : FrameParameters) : Prop :=
  headerSize header = some header.length ∧ readHeader header = some parameters

theorem five_le_of_headerSize {data : Bytes} {size : ℕ} (isSize : headerSize data = some size) :
    5 ≤ size := by
  obtain ⟨byte, -, rfl⟩ := Option.map_eq_some_iff.mp isSize
  omega

theorem headerSize_append {header : Bytes} {size : ℕ} (isSize : headerSize header = some size)
    (rest : Bytes) : headerSize (header ++ rest) = some size := by
  obtain ⟨byte, fifth, same⟩ := Option.map_eq_some_iff.mp isSize
  have within := (List.getElem?_eq_some_iff.mp fifth).1
  rw [headerSize, List.getElem?_append_left within]
  exact isSize

/-- A header is read at the start of what begins with it. -/
theorem headerAt_append {header : Bytes} {parameters : FrameParameters}
    (isHeader : IsStandardHeader header parameters) (rest : Bytes) :
    headerAt (header ++ rest) = some (header.length, parameters) := by
  rw [headerAt, headerSize_append isHeader.1, Option.bind_eq_bind, Option.bind_some,
    if_neg (by rw [List.length_append]; omega), List.take_left, isHeader.2]
  rfl

theorem headerAt_eq_some {data : Bytes} {size : ℕ} {parameters : FrameParameters}
    (found : headerAt data = some (size, parameters)) :
    data = data.take size ++ data.drop size ∧ IsStandardHeader (data.take size) parameters := by
  refine ⟨(List.take_append_drop size data).symm, ?_⟩
  obtain ⟨declared, isSize, found⟩ := Option.bind_eq_some_iff.mp found
  split at found
  · cases found
  · rename_i complete
    obtain ⟨read, isRead, same⟩ := Option.bind_eq_some_iff.mp found
    cases same
    have five := five_le_of_headerSize isSize
    have length : (data.take size).length = size := by
      rw [List.length_take]
      omega
    refine ⟨?_, isRead⟩
    rw [length, ← isSize, headerSize, headerSize, List.getElem?_take_of_lt (by omega)]

end UniApi.Lib.Zstd
