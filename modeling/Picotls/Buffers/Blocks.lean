import Picotls.Buffers.Buffer
import Picotls.Wire

/-!
# Blocks behind their length

`ptls_buffer_push_block` writes a body and puts its length in front of it: in a fixed number of
octets for which room is left before the body is written, or in the variable-length form of QUIC,
for which one octet is left and the body is moved when the length needs more. The macro that reads a
block back is `ptls_decode_open_block`. What is written in the body is arbitrary code, so that
blocks can be nested.
-/

namespace Picotls.Buffers

open Foundation Procedure

/-- The largest `uint64_t`, which stands for a number that cannot be read. -/
abbrev uint64Max : ℕ := 2 ^ 64 - 1

/-- The capacity `(size_t)-1` asks for a length in the form of QUIC. -/
abbrev quicCapacity : ℕ := sizeMax

/-! ## Numbers in the form of QUIC -/

/-- The octets of a number above the lowest one, from a shift by `8 * count` on. -/
def shiftedOctets (v : ℕ) : ℕ → Bytes
  | 0 => []
  | count + 1 => UInt8.ofNat (v >>> (8 * (count + 1))) :: shiftedOctets v count

/-- The octets of a number in the form of QUIC. -/
def ptlsEncodeQuicint (v : ℕ) : Proc Bytes :=
  if 63 < v then
    if 16383 < v then
      if 1073741823 < v then do
        checkAssertion (v ≤ 4611686018427387903)
        return ((0xc0 : UInt8) ||| UInt8.ofNat (v >>> 56)) :: (shiftedOctets v 6 ++ [UInt8.ofNat v])
      else
        return ((0x80 : UInt8) ||| UInt8.ofNat (v >>> 24)) :: (shiftedOctets v 2 ++ [UInt8.ofNat v])
    else return [(0x40 : UInt8) ||| UInt8.ofNat ((v % 2 ^ 16) >>> 8), UInt8.ofNat v]
  else return [UInt8.ofNat v]

/-- Shift a number of octets into a number. -/
def shiftOctets (v : ℕ) : ℕ → Src → ℕ × Src
  | 0, src => (v, src)
  | count + 1, src =>
    match src.data with
    | [] => (v, src)
    | octet :: rest => shiftOctets (v <<< 8 ||| octet.toNat) count ⟨src.off + 1, rest⟩

/-- Read a number in the form of QUIC. -/
def ptlsDecodeQuicint (src : Src) : ℕ × Src :=
  match src.data with
  | [] => (uint64Max, src)
  | b :: rest =>
    if b ≤ 0x3f then (b.toNat, ⟨src.off + 1, rest⟩)
    else
      let bytesLeft := (1 <<< (b >>> 6).toNat) - 1
      if rest.length < bytesLeft then (uint64Max, ⟨src.off + 1, rest⟩)
      else shiftOctets (b &&& 0x3f).toNat bytesLeft ⟨src.off + 1, rest⟩

/-! ## Writing a block -/

/-- A difference of sizes. -/
def subSize (a b : ℕ) : Except Stop ℕ := if b ≤ a then .ok (a - b) else .error .wraps

/-- Store the length of a body in the octets in front of it. -/
def writeBodySize (bodyStart bodySize : ℕ) : ℕ → Proc Unit
  | 0 => pure ()
  | capacity + 1 => do
    let buf ← getBuf
    modifyMemory fun m => m.write (buf.base + (bodyStart - (capacity + 1)))
      [UInt8.ofNat (bodySize >>> (8 * capacity))]
    writeBodySize bodyStart bodySize capacity

/-- Move the body at the end of the buffer to make room for a length of `sizelen` octets in front of
it, where there is room for one. -/
def makeSizeRoom (bodySize sizelen : ℕ) : Proc Unit := do
  let buf ← getBuf
  ptlsBufferReserve (sizelen - 1) buf.direction
  let buf ← getBuf
  modifyMemory fun m => m.copy (buf.base + (buf.off - bodySize - 1) + sizelen)
    (buf.base + (buf.off - bodySize)) bodySize
  let off ← addSize buf.off (sizelen - 1)
  setBuf { buf with off }

/-- Put the length of the body at the end of the buffer in front of it, in the form of QUIC. -/
def ptlsBufferAdjustQuicBlocksize (bodySize : ℕ) : Proc Unit := do
  let sizebuf ← ptlsEncodeQuicint bodySize
  runIf (sizebuf.length ≠ 1) (makeSizeRoom bodySize sizebuf.length)
  let buf ← getBuf
  modifyMemory fun m => m.write (buf.base + (buf.off - bodySize - sizebuf.length)) sizebuf

/-- Put the length of a body in front of it. -/
def closeBlock (capacity bodyStart bodySize : ℕ) : Proc Unit :=
  if capacity ≠ quicCapacity then
    if capacity < 8 ∧ 2 ^ (capacity * 8) ≤ bodySize then fail (.code Error.blockOverflow)
    else writeBodySize bodyStart bodySize capacity
  else ptlsBufferAdjustQuicBlocksize bodySize

/-- Write a block. The octets that are left for its length are copied from a string of eight. -/
def ptlsBufferPushBlock (capacity : ℕ) (block : Proc Unit) : Proc Unit := do
  let room := if capacity ≠ quicCapacity then capacity else 1
  stopIf (8 < room) .undefined
  ptlsBufferDoPushv (zeros room)
  let start ← getBuf
  block
  let buf ← getBuf
  let bodySize ← subSize buf.off start.off
  closeBlock capacity start.off bodySize

/-! ## Reading a block -/

/-- Read the length of a body. -/
def decodeBlockSize (capacity : ℕ) (src : Src) : Except Fault (ℕ × Src) :=
  if capacity = quicCapacity then
    let (size, rest) := ptlsDecodeQuicint src
    if size = uint64Max then .error (.code Alert.decodeError) else .ok (size, rest)
  else if src.data.length < capacity then .error (.code Alert.decodeError)
  else .ok (shiftOctets 0 capacity src)

/-- Read a block, whose body has to be read to its end. -/
def ptlsDecodeOpenBlock {α : Type} (capacity : ℕ) (block : Src → Except Fault (α × Src))
    (src : Src) : Except Fault (α × Src) := do
  let (size, src) ← decodeBlockSize capacity src
  if src.data.length < size then .error (.code Alert.decodeError)
  else do
    let (value, body) ← block ⟨src.off, src.data.take size⟩
    body.assertBlockClose
    return (value, ⟨src.off + size, src.data.drop size⟩)

/-! ## Trees of blocks -/

/-- The forms of a length. -/
inductive Width where
  | one
  | two
  | three
  | quic
  deriving DecidableEq

/-- The capacity that is passed for a form of length. -/
def Width.capacity : Width → ℕ
  | .one => 1
  | .two => 2
  | .three => 3
  | .quic => quicCapacity

/-- What is written to a buffer: octets, and blocks of pieces. -/
inductive Piece where
  | field (octets : Bytes)
  | block (width : Width) (body : List Piece)

mutual

/-- Write a piece. -/
def pushPiece : Piece → Proc Unit
  | .field octets => ptlsBufferDoPushv octets
  | .block width body => ptlsBufferPushBlock width.capacity (pushPieces body)

/-- Write pieces one behind the other. -/
def pushPieces : List Piece → Proc Unit
  | [] => pure ()
  | piece :: pieces => do
    pushPiece piece
    pushPieces pieces

end

/-- What a reader knows of a piece: the length of its octets, or the form of the length of a block
and what is in it. -/
inductive Shape where
  | field (length : ℕ)
  | block (width : Width) (body : List Shape)

mutual

/-- What a reader knows of a piece. -/
def Piece.shape : Piece → Shape
  | .field octets => .field octets.length
  | .block width body => .block width (shapes body)

/-- What a reader knows of some pieces. -/
def shapes : List Piece → List Shape
  | [] => []
  | piece :: pieces => piece.shape :: shapes pieces

end

mutual

/-- Read a piece. -/
def readPiece : Shape → Src → Except Fault (Piece × Src)
  | .field length, src => do
    let (octets, src) ← src.decodeBytes length
    return (.field octets, src)
  | .block width body, src => do
    let (pieces, src) ← ptlsDecodeOpenBlock width.capacity (readPieces body) src
    return (.block width pieces, src)

/-- Read pieces one behind the other. -/
def readPieces : List Shape → Src → Except Fault (List Piece × Src)
  | [], src => return ([], src)
  | shape :: shapes, src => do
    let (piece, src) ← readPiece shape src
    let (pieces, src) ← readPieces shapes src
    return (piece :: pieces, src)

end

end Picotls.Buffers
