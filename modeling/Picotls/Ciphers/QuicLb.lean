import Picotls.Connection
import Picotls.Foundation.Feistel
import Picotls.Foundation.Memory

/-!
# Encryption of connection identifiers

`picotls_quiclb_transform` encrypts 7 to 19 octets in four rounds. The two halves are kept in blocks
of sixteen octets; if the number of octets is odd, both have the octet in the middle, half of which
belongs to each of them. What is outside of the masks for the halves is carried along. AES is a
function on blocks.
-/

namespace Picotls.QuicLb

open Foundation

abbrev minBlockSize : ℕ := 7
abbrev maxBlockSize : ℕ := 19

/-- A block that starts with some octets and is filled with zeros. -/
def blockOf (octets : Bytes) : Block16 := fun i => octets.getD i.val 0

/-- An octet of a block. -/
def octetOf (b : Block16) (i : ℕ) : UInt8 := if h : i < 16 then b ⟨i, h⟩ else 0

/-- The masks for the two halves. -/
structure QuiclbMask where
  l : Block16
  r : Block16

/-- The masks, for 7 octets and more. -/
def masks : List QuiclbMask := [
  ⟨blockOf [0xff, 0xff, 0xff, 0xf0], blockOf [0x0f, 0xff, 0xff, 0xff]⟩,
  ⟨blockOf [0xff, 0xff, 0xff, 0xff], blockOf [0xff, 0xff, 0xff, 0xff]⟩,
  ⟨blockOf [0xff, 0xff, 0xff, 0xff, 0xf0], blockOf [0x0f, 0xff, 0xff, 0xff, 0xff]⟩,
  ⟨blockOf [0xff, 0xff, 0xff, 0xff, 0xff], blockOf [0xff, 0xff, 0xff, 0xff, 0xff]⟩,
  ⟨blockOf [0xff, 0xff, 0xff, 0xff, 0xff, 0xf0], blockOf [0x0f, 0xff, 0xff, 0xff, 0xff, 0xff]⟩,
  ⟨blockOf [0xff, 0xff, 0xff, 0xff, 0xff, 0xff], blockOf [0xff, 0xff, 0xff, 0xff, 0xff, 0xff]⟩,
  ⟨blockOf [0xff, 0xff, 0xff, 0xff, 0xff, 0xff, 0xf0],
    blockOf [0x0f, 0xff, 0xff, 0xff, 0xff, 0xff, 0xff]⟩,
  ⟨blockOf [0xff, 0xff, 0xff, 0xff, 0xff, 0xff, 0xff],
    blockOf [0xff, 0xff, 0xff, 0xff, 0xff, 0xff, 0xff]⟩,
  ⟨blockOf [0xff, 0xff, 0xff, 0xff, 0xff, 0xff, 0xff, 0xf0],
    blockOf [0x0f, 0xff, 0xff, 0xff, 0xff, 0xff, 0xff, 0xff]⟩,
  ⟨blockOf [0xff, 0xff, 0xff, 0xff, 0xff, 0xff, 0xff, 0xff],
    blockOf [0xff, 0xff, 0xff, 0xff, 0xff, 0xff, 0xff, 0xff]⟩,
  ⟨blockOf [0xff, 0xff, 0xff, 0xff, 0xff, 0xff, 0xff, 0xff, 0xf0],
    blockOf [0x0f, 0xff, 0xff, 0xff, 0xff, 0xff, 0xff, 0xff, 0xff]⟩,
  ⟨blockOf [0xff, 0xff, 0xff, 0xff, 0xff, 0xff, 0xff, 0xff, 0xff],
    blockOf [0xff, 0xff, 0xff, 0xff, 0xff, 0xff, 0xff, 0xff, 0xff]⟩,
  ⟨blockOf [0xff, 0xff, 0xff, 0xff, 0xff, 0xff, 0xff, 0xff, 0xff, 0xf0],
    blockOf [0x0f, 0xff, 0xff, 0xff, 0xff, 0xff, 0xff, 0xff, 0xff, 0xff]⟩]

/-- The masks for a number of octets. -/
def maskFor (len : ℕ) : QuiclbMask :=
  masks.getD (len - minBlockSize) ⟨fun _ => 0, fun _ => 0⟩

/-- The block that holds the number of octets and of the round. -/
def lenPass (len : ℕ) (rnd : UInt8) : Block16 :=
  fun i => if i.val = 14 then UInt8.ofNat len else if i.val = 15 then rnd else 0

/-- One round. -/
def picotlsQuiclbOneRound (aesecb : Block16 → Block16) (x y mask lenPass : Block16) : Block16 :=
  let dest : Block16 := fun i => (y i &&& mask i) ||| lenPass i
  let dest := aesecb dest
  fun i => dest i ^^^ x i

/-- The two halves of the octets at an address. -/
def picotlsQuiclbSplitInput (memory : Memory) (input len : ℕ) : Block16 × Block16 :=
  (fun i => if i.val < (len + 1) / 2 then memory (input + i.val) else 0,
    fun i => if i.val < (len + 1) / 2 then memory (input + (i.val + len / 2)) else 0)

/-- The octets that two halves come to. -/
def picotlsQuiclbMergeOutput (len : ℕ) (l r : Block16) : Bytes :=
  (List.range (len / 2)).map (octetOf l) ++
    if len % 2 = 0 then (List.range (len / 2)).map (octetOf r)
    else ((octetOf l (len / 2) &&& 0xf0) ||| (octetOf r 0 &&& 0x0f)) ::
      (List.range (len / 2)).map fun i => octetOf r (i + 1)

/-- Encrypt or decrypt the octets at one address and write the result to another. -/
def picotlsQuiclbTransform (aesecb : Block16 → Block16) (memory : Memory) (output input len : ℕ)
    (encrypt : Bool) : Except Fault Memory :=
  if minBlockSize ≤ len ∧ len ≤ maxBlockSize then
    let mask := maskFor len
    let round (rnd : UInt8) (x y mask : Block16) : Block16 :=
      picotlsQuiclbOneRound aesecb x y mask (lenPass len rnd)
    if encrypt then
      let (l0, r0) := picotlsQuiclbSplitInput memory input len
      let r1 := round 1 r0 l0 mask.l
      let l1 := round 2 l0 r1 mask.r
      let r2 := round 3 r1 l1 mask.l
      let l2 := round 4 l1 r2 mask.r
      .ok (memory.write output (picotlsQuiclbMergeOutput len l2 r2))
    else
      let (l2, r2) := picotlsQuiclbSplitInput memory input len
      let l1 := round 4 l2 r2 mask.r
      let r1 := round 3 r2 l1 mask.l
      let l0 := round 2 l1 r1 mask.r
      let r0 := round 1 r1 l0 mask.l
      .ok (memory.write output (picotlsQuiclbMergeOutput len l0 r0))
  else .error .assertion

end Picotls.QuicLb
