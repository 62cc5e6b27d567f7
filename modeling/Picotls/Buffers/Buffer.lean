import Picotls.Foundation.Memory
import Picotls.Foundation.Procedure
import Picotls.Protocol

/-!
# Buffers that grow

A `ptls_buffer_t` starts in memory that its user supplies and moves to memory of its own when it has
to grow. This is the pointer-level model of `ptls_buffer_reserve_aligned` and the functions around
it with the default allocator: addresses, capacities, the alignment that is on record, and memory
that is copied, cleared and released.
-/

namespace Picotls.Buffers

open Foundation Procedure

/-- The end of the address space. -/
abbrev addressLimit : ℕ := 2 ^ 64

/-- A buffer. Its origin is not used by the functions of the library. -/
structure PtlsBuffer where
  base : ℕ
  capacity : ℕ
  off : ℕ
  isAllocated : Bool
  alignBits : ℕ
  tx : Bool
  deriving DecidableEq

/-- The direction of a buffer as the number that callers pass. -/
def PtlsBuffer.direction (buf : PtlsBuffer) : ℤ := if buf.tx then 1 else 0

/-- Memory and the buffer that is worked on. -/
structure Store where
  heap : Heap
  buf : PtlsBuffer

/-- The allocator, and how the library was built. -/
structure Build where
  answer : ℕ → ℕ → ℕ → Option ℕ
  memoryDebug : Bool
  ndebug : Bool

/-- A procedure that works on a buffer. -/
abbrev Proc := Procedure Build Store Stop

/-- The buffer. -/
def getBuf : Proc PtlsBuffer := observe fun _ s => s.buf

/-- Replace the buffer. -/
def setBuf (buf : PtlsBuffer) : Proc Unit := update fun _ s => { s with buf }

/-- Change the contents of memory. -/
def modifyMemory (f : Memory → Memory) : Proc Unit :=
  update fun _ s => { s with heap := s.heap.store (f s.heap.memory) }

/-- Stop under a condition. -/
def stopIf (c : Prop) [Decidable c] (stop : Stop) : Proc Unit := runIf c (fail stop)

/-- An assertion, which is checked unless it is compiled away. -/
def checkAssertion (c : Prop) [Decidable c] : Proc Unit := do
  let ndebug ← observe fun build _ => build.ndebug
  stopIf (ndebug = false ∧ ¬ c) .assertion

/-- Ask the allocator for memory. -/
def allocateBlock (size alignment : ℕ) : Proc (Option ℕ) := fun build s =>
  let (p, heap) := s.heap.allocate addressLimit build.answer size alignment
  (.ok p, { s with heap })

/-- `malloc`. -/
def malloc (size : ℕ) : Proc (Option ℕ) := allocateBlock size 1

/-- `posix_memalign`, which refuses alignments below the size of a pointer. -/
def posixMemalign (alignment size : ℕ) : Proc (Option ℕ) :=
  if alignment < 8 then pure none else allocateBlock size alignment

/-- `free`. Releasing what is not an allocated block is undefined; nothing is released at the null
pointer. -/
def free (p : ℕ) : Proc Unit := fun _ s =>
  if p = 0 then (.ok (), s)
  else match s.heap.free p with
    | some heap => (.ok (), { s with heap })
    | none => (.error .undefined, s)

/-- A sum of sizes, if it fits. -/
def addSize (a b : ℕ) : Except Stop ℕ := if a + b ≤ sizeMax then .ok (a + b) else .error .wraps

/-- A product of sizes, if it fits. -/
def mulSize (a b : ℕ) : Except Stop ℕ := if a * b ≤ sizeMax then .ok (a * b) else .error .wraps

/-- Require that the buffer is used in its own direction. -/
def bufferRequireDirection (tx : ℤ) : Proc Unit := do
  let buf ← getBuf
  checkAssertion (tx = 0 ∨ tx = 1)
  runIf (buf.direction ≠ tx) do
    checkAssertion False
    fail (.code Error.library)

/-- A new block. The alignment that is asked for is computed as an `int`. -/
def newBlock (capacity alignBits : ℕ) : Proc (Option ℕ) :=
  if alignBits ≠ 0 then do
    stopIf (31 ≤ alignBits) .undefined
    posixMemalign (2 ^ alignBits) capacity
  else malloc capacity

/-- Move the contents of the buffer to a new block, clear the old one and release it if it came
from the allocator. -/
def moveBuffer (newp newCapacity alignBits : ℕ) (tx : Bool) : Proc Unit := do
  let buf ← getBuf
  runIf (buf.off ≠ 0) (modifyMemory fun m => m.copy newp buf.base buf.off)
  modifyMemory fun m => m.write buf.base (zeros buf.off)
  runIf buf.isAllocated (free buf.base)
  setBuf
    { base := newp, capacity := newCapacity, off := buf.off, isAllocated := true, alignBits, tx }

/-- The default allocator of buffers. -/
def bufferAlloc (newCapacity alignBits : ℕ) (tx : Bool) : Proc Unit := do
  match ← newBlock newCapacity alignBits with
  | none => fail (.code Error.noMemory)
  | some newp => moveBuffer newp newCapacity alignBits tx

/-- Double a capacity until it suffices, at most for a number of rounds; one that cannot be doubled
is replaced by what is required. -/
def growCapacity (required : ℕ) : ℕ → ℕ → Except Stop ℕ
  | 0, capacity => .ok capacity
  | rounds + 1, capacity =>
    if capacity < required then
      if sizeMax / 2 < capacity then .ok required
      else do
        let capacity ← mulSize capacity 2
        growCapacity required rounds capacity
    else .ok capacity

/-- The buffer has to be moved to hold `required` octets with the alignment. The shift that computes
the alignment has the width of an address. -/
def mustMove (required alignBits : ℕ) : Proc Bool := do
  let memoryDebug ← observe fun build _ => build.memoryDebug
  let buf ← getBuf
  if memoryDebug ∨ buf.capacity < required then return true
  else if buf.alignBits < alignBits then do
    stopIf (64 ≤ alignBits) .undefined
    return decide (buf.base % 2 ^ alignBits ≠ 0)
  else return false

/-- Make room for `delta` octets at an alignment. -/
def ptlsBufferReserveAligned (delta alignBits : ℕ) (tx : ℤ) : Proc Unit := do
  bufferRequireDirection tx
  let buf ← getBuf
  stopIf (buf.base = 0) (.code Error.noMemory)
  stopIf (sizeMax - buf.off < delta) (.code Error.noMemory)
  let required ← addSize buf.off delta
  let moves ← mustMove required alignBits
  runIf moves do
    let newCapacity ← growCapacity required 64 (max buf.capacity 1024)
    bufferAlloc newCapacity alignBits (decide (tx ≠ 0))

/-- Make room for `delta` octets. -/
def ptlsBufferReserve (delta : ℕ) (tx : ℤ) : Proc Unit := ptlsBufferReserveAligned delta 0 tx

/-- Append octets. -/
def ptlsBufferDoPushv (src : Bytes) : Proc Unit :=
  runIf (src.length ≠ 0) do
    let buf ← getBuf
    ptlsBufferReserve src.length buf.direction
    let buf ← getBuf
    modifyMemory fun m => m.write (buf.base + buf.off) src
    let off ← addSize buf.off src.length
    setBuf { buf with off }

/-- A new buffer in memory that its user supplies. -/
def ptlsBufferInit (smallbuf smallbufSize : ℕ) (tx : Bool) : PtlsBuffer :=
  { base := smallbuf, capacity := smallbufSize, off := 0, isAllocated := false, alignBits := 0, tx }

end Picotls.Buffers
