import Picotls.Buffers.Buffer

/-!
# Strings in the log

Before a string of the application is written into a line of the log, room is made for the worst
case: six octets for each octet of the string, and two quotes. The escaped string is then written
through a pointer, with a terminator behind it that the closing quote replaces. A store outside of
the buffer is undefined. If there is no memory, the line is given up by disposing of the buffer.
-/

namespace Picotls.Log

open Foundation Procedure Buffers

/-! ## Escapes -/

/-- The digits of a hexadecimal number. -/
def hexDigits : Bytes :=
  [0x30, 0x31, 0x32, 0x33, 0x34, 0x35, 0x36, 0x37, 0x38, 0x39, 0x61, 0x62, 0x63, 0x64, 0x65, 0x66]

def byteToHex (v : UInt8) : Bytes :=
  [hexDigits.getD (v >>> 4).toNat 0, hexDigits.getD (v &&& 0xf).toNat 0]

/-- The octets that have an escape of one letter, with the letter. -/
def letterEscapes : List (UInt8 × UInt8) :=
  [(0x22, 0x22), (0x5c, 0x5c), (0x2f, 0x2f), (0x08, 0x62), (0x0c, 0x66), (0x0a, 0x6e), (0x0d, 0x72),
    (0x09, 0x74)]

/-- What is written for an octet: a backslash and a letter, a backslash and four digits, or the
octet itself. -/
def escapeOctet (octet : UInt8) : Bytes :=
  match letterEscapes.lookup octet with
  | some letter => [0x5c, letter]
  | none =>
    if octet < 0x20 ∨ octet = 0x7f then [0x5c, 0x75, 0x30, 0x30] ++ byteToHex octet else [octet]

/-! ## The buffer of the log -/

/-- Store octets at an address in the buffer. -/
def storeOctets (p : ℕ) (octets : Bytes) : Buffers.Proc Unit := do
  let buf ← getBuf
  stopIf (¬ (buf.base ≤ p ∧ p + octets.length ≤ buf.base + buf.capacity)) .undefined
  modifyMemory fun m => m.write p octets

/-- Write an escaped string with a terminator, and return the address of the terminator. -/
def ptlsJsonescape : ℕ → Bytes → Buffers.Proc ℕ
  | dst, [] => do
    storeOctets dst [0]
    return dst
  | dst, octet :: src => do
    storeOctets dst (escapeOctet octet)
    ptlsJsonescape (dst + (escapeOctet octet).length) src

/-- Clear and release the memory of the buffer. -/
def ptlsBufferDispose : Buffers.Proc Unit := do
  let buf ← getBuf
  modifyMemory fun m => m.write buf.base (zeros buf.off)
  runIf buf.isAllocated (free buf.base)
  setBuf { base := 0, capacity := 0, off := 0, isAllocated := false, alignBits := 0, tx := false }

/-- Write octets into the room that was made, or give up the line if there is none. -/
def useRoom (pre : Bytes) : Except Stop Unit → Buffers.Proc Bool
  | .ok () => do
    let buf ← getBuf
    storeOctets (buf.base + buf.off) pre
    setBuf { buf with off := buf.off + pre.length }
    return true
  | .error (.code _) => do
    ptlsBufferDispose
    return false
  | .error stop => fail stop

/-- Make room behind some octets, which are written at once. -/
def expandLogbufOrInvalidate (pre : Bytes) (capacity : ℕ) : Buffers.Proc Bool := do
  let buf ← getBuf
  if buf.base = 0 then return false
  else do
    let size ← addSize pre.length capacity
    let reserved ← attempt (ptlsBufferReserve size 1)
    useRoom pre reserved

/-- Write a string in quotes. -/
def pushQuoted (s : Bytes) : Buffers.Proc Unit := do
  let buf ← getBuf
  storeOctets (buf.base + buf.off) [0x22]
  let dst ← ptlsJsonescape (buf.base + buf.off + 1) s
  storeOctets dst [0x22]
  setBuf { buf with off := dst + 1 - buf.base }

/-- Append a string of the application behind some octets that lead up to it. -/
def ptlsLogDoPushElementUnsafestr (pre s : Bytes) : Buffers.Proc Unit := do
  let escaped ← mulSize s.length 6
  let capacity ← addSize escaped 2
  let expanded ← expandLogbufOrInvalidate pre capacity
  runIf expanded (pushQuoted s)

end Picotls.Log
