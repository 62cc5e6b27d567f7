import Picotls.Connection
import Picotls.Foundation.Feistel

/-!
# Encryption of blocks of any length

`ptls_ffx_setup_crypto` makes a cipher for blocks of 9 to 256 bits out of a stream cipher. The block
is cut into two halves of octets. Each pass takes one half for the initialization vector of the
stream cipher and adds the keystream to the other half; of the last octet of the right half only the
bits in a mask are used. The underlying cipher is the function from initialization vectors to the
first sixteen octets of keystream. The library is built with assertions.
-/

namespace Picotls.Ffx

open Foundation

/-! ## Contexts -/

/-- The masks for the last octet, by the number of bits in it. -/
def lastByteMask : List UInt8 := [0xFF, 0xFE, 0xFC, 0xF8, 0xF0, 0xE0, 0xC0, 0x80]

/-- A context for one key. -/
structure FfxContext where
  encCtx : Block16 → Block16
  nbRounds : ℤ
  isEnc : Bool
  byteLength : ℕ
  nbLeft : ℕ
  nbRight : ℕ
  maskLastByte : UInt8
  tweaks : Block16

/-- Set up a context with the underlying cipher. If that could not be made, the context is disposed
of, which trips over an assertion since it is not set up. -/
def ptlsFfxSetupCrypto (encCtx : Option (Block16 → Block16)) (isEnc : Bool) (nbRounds : ℤ)
    (bitLength : ℕ) : Except Fault FfxContext :=
  let len := (bitLength + 7) / 8
  if len ≤ 32 ∧ 2 ≤ len then
    match encCtx with
    | none => .error .assertion
    | some encCtx => .ok {
        encCtx := encCtx
        nbRounds := nbRounds
        isEnc := isEnc
        byteLength := len
        nbLeft := len / 2
        nbRight := len - len / 2
        maskLastByte := lastByteMask.get ⟨bitLength % 8, Nat.mod_lt bitLength (by decide)⟩
        tweaks := fun _ => 0 }
  else .error .assertion

/-- Set the tweak. -/
def ffxInit (ctx : FfxContext) (iv : Block16) : FfxContext := { ctx with tweaks := iv }

/-! ## Arrays -/

/-- Change one octet of an array. -/
def modifyAt (b : Block16) (n : ℕ) (f : UInt8 → UInt8) : Block16 :=
  fun i => if i.val = n then f (b i) else b i

/-- The loop that adds the first octets of an array to another one. -/
def xorFirst (n : ℕ) (b source : Block16) : Block16 :=
  fun i => if i.val < n then b i ^^^ source i else b i

/-- The first octets of an array, after which it is filled with zeros. -/
def copyFirst (n : ℕ) (octets : Bytes) : Block16 :=
  fun i => if i.val < n then octets.getD i.val 0 else 0

/-- The first octets of an array. -/
def firstOctets (n : ℕ) (b : Block16) : Bytes := (List.ofFn b).take n

/-! ## Encryption -/

/-- Add the keystream for one half to the other half. -/
def ptlsFfxOnePass (encCtx : Block16 → Block16) (source : Block16) (sourceSize : ℕ)
    (target : Block16) (targetSize : ℕ) (maskLastByte : UInt8) (tweaks : Block16)
    (round nbRounds : UInt8) : Block16 :=
  let iv := modifyAt tweaks (round &&& 15).toNat (· ^^^ nbRounds)
  let iv := xorFirst sourceSize iv source
  let confusion := encCtx iv
  let target := xorFirst (targetSize - 1) target confusion
  fun j => if j.val = targetSize - 1 then target j ^^^ (confusion j &&& maskLastByte) else target j

/-- The pass over the left half. -/
def passLeft (ctx : FfxContext) (round : ℤ) (left right : Block16) : Block16 :=
  ptlsFfxOnePass ctx.encCtx right ctx.nbRight left ctx.nbLeft 0xFF ctx.tweaks (.ofInt round)
    (.ofInt ctx.nbRounds)

/-- The pass over the right half. -/
def passRight (ctx : FfxContext) (round : ℤ) (left right : Block16) : Block16 :=
  ptlsFfxOnePass ctx.encCtx left ctx.nbLeft right ctx.nbRight ctx.maskLastByte ctx.tweaks
    (.ofInt round) (.ofInt ctx.nbRounds)

/-- The loop over the rounds when encrypting, with the number of iterations that are left. -/
def encryptLoop (ctx : FfxContext) : ℕ → ℤ → Block16 × Block16 → Block16 × Block16
  | 0, _, halves => halves
  | count + 1, i, (left, right) =>
    let left := passLeft ctx i left right
    let right := passRight ctx (i + 1) left right
    encryptLoop ctx count (i + 2) (left, right)

/-- The loop over the rounds when decrypting. -/
def decryptLoop (ctx : FfxContext) : ℕ → ℤ → Block16 × Block16 → Block16 × Block16
  | 0, _, halves => halves
  | count + 1, i, (left, right) =>
    let right := passRight ctx (ctx.nbRounds - 1 - i) left right
    let left := passLeft ctx (ctx.nbRounds - 2 - i) left right
    decryptLoop ctx count (i + 2) (left, right)

/-- How often a loop is gone through that counts by two up to the number of rounds. -/
def FfxContext.iterations (ctx : FfxContext) : ℕ := ((ctx.nbRounds + 1) / 2).toNat

/-- Encrypt or decrypt a block. -/
def ffxEncrypt (ctx : FfxContext) (input : Bytes) : Except Fault Bytes :=
  if input.length ≠ ctx.byteLength then .error .assertion
  else
    let left := copyFirst ctx.nbLeft input
    let right := copyFirst ctx.nbRight (input.drop ctx.nbLeft)
    let lastByte := (input.drop ctx.nbLeft).getD (ctx.nbRight - 1) 0
    let right := modifyAt right (ctx.nbRight - 1) (· &&& ctx.maskLastByte)
    let (left, right) :=
      if ctx.isEnc then encryptLoop ctx ctx.iterations 0 (left, right)
      else decryptLoop ctx ctx.iterations 0 (left, right)
    let right := modifyAt right (ctx.nbRight - 1) (· &&& ctx.maskLastByte)
    let right := modifyAt right (ctx.nbRight - 1) (· ||| (lastByte &&& ~~~ctx.maskLastByte))
    .ok (firstOctets ctx.nbLeft left ++ firstOctets ctx.nbRight right)

end Picotls.Ffx
