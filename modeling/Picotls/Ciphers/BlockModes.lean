import Picotls.Connection
import Picotls.Foundation.BlockStream
import Picotls.Foundation.Streams

/-!
# AES block by block

Three backends make ciphers of AES on single blocks, which is a parameter here. A context of the
ECB mode transforms blocks one by one; `ptls_cipher_encrypt` hands it the addresses of the output
and of the input and the number of octets. The functions of Windows that bcrypt calls for that are
parameters, too, and `BCrypt.Implements` says what is expected of them. The CTR mode of bcrypt
encrypts a counter and masks the text by what comes out. The library is built with assertions.
-/

namespace Picotls.BlockModes

open Foundation

abbrev blockSize : ℕ := 16
abbrev maxIvSize : ℕ := 32

/-- AES on one block, for the keys of one size. -/
structure Aes where
  encrypt : Bytes → Bytes → Bytes
  decrypt : Bytes → Bytes → Bytes
  encrypt_length : ∀ key block, (encrypt key block).length = blockSize
  decrypt_length : ∀ key block, (decrypt key block).length = blockSize
  decrypt_encrypt : ∀ key block, block.length = blockSize → decrypt key (encrypt key block) = block

/-- What a context for a direction does to a block. -/
def Aes.transform (aes : Aes) (isEnc : Bool) : Bytes → Bytes → Bytes :=
  if isEnc then aes.encrypt else aes.decrypt

theorem Aes.transform_length (aes : Aes) (isEnc : Bool) (key block : Bytes) :
    (aes.transform isEnc key block).length = blockSize := by
  cases isEnc
  · exact aes.decrypt_length key block
  · exact aes.encrypt_length key block

/-- A stand-in for AES that turns a block around and adds an octet of the key and one. -/
def Aes.sample : Aes where
  encrypt key block :=
    (((block ++ zeros blockSize).take blockSize).map (· + (key.headD 0 + 1))).reverse
  decrypt key block :=
    (((block ++ zeros blockSize).take blockSize).map (· - (key.headD 0 + 1))).reverse
  encrypt_length _ block := by simp
  decrypt_length _ block := by simp
  decrypt_encrypt _ block h := by simp [h, Function.comp_def]

/-- A number of blocks from an address on, each of which is transformed. -/
def ecbBlocks (f : Bytes → Bytes) (m : Memory) (input count : ℕ) : Bytes :=
  blocks (fun i => f (m.read (input + blockSize * i) blockSize)) count

/-- An assertion of the source. -/
def assertThat (c : Prop) [Decidable c] : Except Fault Unit :=
  if c then .ok () else .error .assertion

/-- A cipher context, of which only the function for the transformation matters. -/
structure CipherContext where
  doTransform : Memory → (output input len : ℕ) → Except Fault Memory

/-- Transform octets. -/
def ptlsCipherEncrypt (ctx : CipherContext) (m : Memory) (output input len : ℕ) :
    Except Fault Memory :=
  ctx.doTransform m output input len

/-! ## ECB of minicrypto -/

/-- Check the number of octets and transform the block at the input. -/
def aesecbTransform (f : Bytes → Bytes) (m : Memory) (output input len : ℕ) :
    Except Fault Memory := do
  assertThat (len % blockSize = 0)
  return m.write output (f (m.read input blockSize))

def aesecbEncrypt (aes : Aes) (key : Bytes) : Memory → ℕ → ℕ → ℕ → Except Fault Memory :=
  aesecbTransform (aes.encrypt key)

def aesecbDecrypt (aes : Aes) (key : Bytes) : Memory → ℕ → ℕ → ℕ → Except Fault Memory :=
  aesecbTransform (aes.decrypt key)

def aesecbSetupCrypto (aes : Aes) (isEnc : Bool) (key : Bytes) : CipherContext :=
  ⟨if isEnc then aesecbEncrypt aes key else aesecbDecrypt aes key⟩

/-! ## ECB of bcrypt -/

/-- A size that is cast to `ULONG`. -/
def ulong (size : ℕ) : ℕ := size % 2 ^ 32

/-- How a call of `BCryptEncrypt` or `BCryptDecrypt` ends. -/
structure BCryptResult where
  success : Bool
  cbResult : ℕ
  memory : Memory

/-- `BCryptEncrypt` and `BCryptDecrypt` without padding and IV: a key, the memory, the input and its
size, the output and its size. -/
structure BCrypt where
  encrypt : Bytes → Memory → (input cbInput output cbOutput : ℕ) → BCryptResult
  decrypt : Bytes → Memory → (input cbInput output cbOutput : ℕ) → BCryptResult

def BCrypt.transform (bcrypt : BCrypt) (isEnc : Bool) :
    Bytes → Memory → ℕ → ℕ → ℕ → ℕ → BCryptResult :=
  if isEnc then bcrypt.encrypt else bcrypt.decrypt

/-- The output takes the place of the input, or one apart from it. -/
def Placed (output input len : ℕ) : Prop :=
  output = input ∨ output + len ≤ input ∨ input + len ≤ output

/-- Calls for whole blocks succeed and transform every one of them by AES. -/
structure BCrypt.Implements (bcrypt : BCrypt) (aes : Aes) : Prop where
  transform_eq : ∀ isEnc key m {output input size}, blockSize ∣ size → Placed output input size →
    bcrypt.transform isEnc key m input size output size =
      ⟨true, size, m.write output (ecbBlocks (aes.transform isEnc key) m input (size / blockSize))⟩

/-- Transform octets, the number of which is cast to `ULONG`. -/
def ptlsBcryptCipherTransformEcb (bcrypt : BCrypt) (isEnc : Bool) (key : Bytes) (m : Memory)
    (output input len : ℕ) : Except Fault Memory := do
  assertThat (len % blockSize = 0)
  let ret := bcrypt.transform isEnc key m input (ulong len) output (ulong len)
  assertThat ret.success
  -- after the assertion the output is never cleared
  return if ret.success then ret.memory else ret.memory.write output (zeros ret.cbResult)

def ptlsBcryptCipherSetupCryptoAesEcb (bcrypt : BCrypt) (isEnc : Bool) (key : Bytes) :
    CipherContext :=
  ⟨ptlsBcryptCipherTransformEcb bcrypt isEnc key⟩

/-! ## ECB of fusion -/

/-- A context, which is not one of the library's cipher contexts. -/
structure FusionAesecbContext where
  key : Bytes

/-- Set up a context; there is none for decryption, nor for a key of another size. -/
def ptlsFusionAesecbInit (isEnc : Bool) (key : Bytes) : Except Fault FusionAesecbContext := do
  assertThat isEnc
  assertThat (key.length = 16 ∨ key.length = 32)
  return ⟨key⟩

/-- Encrypt the block at the source. -/
def ptlsFusionAesecbEncrypt (aes : Aes) (ctx : FusionAesecbContext) (m : Memory) (dst src : ℕ) :
    Memory :=
  m.write dst (aes.encrypt ctx.key (m.read src blockSize))

/-! ## The contexts for ECB -/

/-- The backends that have a context for ECB. -/
inductive Backend where
  | minicrypto
  | bcrypt
  | fusion
  deriving DecidableEq

/-- The context of a backend. That of fusion does not take the number of octets. -/
def Backend.ecb (aes : Aes) (library : BCrypt) (isEnc : Bool) (key : Bytes) :
    Backend → Except Fault CipherContext
  | minicrypto => .ok (aesecbSetupCrypto aes isEnc key)
  | bcrypt => .ok (ptlsBcryptCipherSetupCryptoAesEcb library isEnc key)
  | fusion => do
    let ctx ← ptlsFusionAesecbInit isEnc key
    return ⟨fun m output input _ => .ok (ptlsFusionAesecbEncrypt aes ctx m output input)⟩

/-! ## CTR of bcrypt -/

/-- The key of a context, and the IV, of which the first block is the counter. -/
structure SymmetricContext where
  hKey : Bytes
  iv : { octets : Bytes // octets.length = maxIvSize }

/-- Store the first octets of the IV. -/
def SymmetricContext.copyIv (ctx : SymmetricContext)
    (block : { octets : Bytes // octets.length = blockSize }) : SymmetricContext :=
  { ctx with iv := ⟨block.val ++ ctx.iv.val.drop blockSize, by
      rw [List.length_append, List.length_drop, block.property, ctx.iv.property]; rfl⟩ }

/-- Start a text with an IV, or with zeros if there is none. -/
def ptlsBcryptCipherInitCtr (ctx : SymmetricContext)
    (iv : Option { octets : Bytes // octets.length = blockSize }) : SymmetricContext :=
  ctx.copyIv (iv.getD ⟨zeros blockSize, zeros_length blockSize⟩)

/-- Add one to an octet of the IV. -/
def SymmetricContext.incrementAt (ctx : SymmetricContext) (i : ℕ) : SymmetricContext :=
  { ctx with iv := ⟨ctx.iv.val.set i (ctx.iv.val.getD i 0 + 1), by
      rw [List.length_set, ctx.iv.property]⟩ }

/-- The loop that adds one to the counter, with the number of octets up to the one that is next. The
index is unsigned: below the first octet it is the greatest `size_t`, and the octet there is outside
of the IV. -/
def incrementIv : ℕ → SymmetricContext → Except Fault SymmetricContext
  | 0, _ => .error .undefined
  | i + 1, ctx =>
    let ctx := ctx.incrementAt i
    if 0 < ctx.iv.val.getD i 0 then .ok ctx else incrementIv i ctx

/-- The loop that masks at most a block, with the number of octets that are done. -/
def maskLoop (output input len : ℕ) : Bytes → ℕ → Memory → ℕ × Memory
  | [], processed, m => (processed, m)
  | octet :: eiv, processed, m =>
    if processed < len then
      maskLoop output input len eiv (processed + 1)
        (m.write (output + processed) [m (input + processed) ^^^ octet])
    else (processed, m)

theorem le_maskLoop (output input len : ℕ) (eiv : Bytes) (processed : ℕ) (m : Memory) :
    processed ≤ (maskLoop output input len eiv processed m).1 := by
  induction eiv generalizing processed m with
  | nil => exact le_rfl
  | cons octet eiv ih =>
    rw [maskLoop]
    split
    · exact (Nat.le_succ processed).trans (ih _ _)
    · exact le_rfl

/-- A block masks at least one octet, if there is one. -/
theorem lt_maskLoop (output input : ℕ) {len : ℕ} {eiv : Bytes} {processed : ℕ} (m : Memory)
    (heiv : eiv.length = blockSize) (h : processed < len) :
    processed < (maskLoop output input len eiv processed m).1 := by
  cases eiv with
  | nil => cases heiv
  | cons octet eiv =>
    rw [maskLoop, if_pos h]
    exact le_maskLoop output input len eiv (processed + 1) _

/-- The loop over the blocks of a text. -/
def transformCtrLoop (aes : Aes) (output input len processed : ℕ) (ctx : SymmetricContext)
    (m : Memory) : Except Fault (SymmetricContext × Memory) :=
  if processed < len then
    let eiv := aes.encrypt ctx.hKey (ctx.iv.val.take blockSize)
    let masked := maskLoop output input len eiv processed m
    match incrementIv blockSize ctx with
    | .error fault => .error fault
    | .ok next => transformCtrLoop aes output input len masked.1 next masked.2
  else .ok (ctx, m)
termination_by len - processed
decreasing_by
  have hlt := lt_maskLoop output input m
    (aes.encrypt_length ctx.hKey (ctx.iv.val.take blockSize)) ‹processed < len›
  omega

/-- Encrypt or decrypt a text. -/
def ptlsBcryptCipherTransformCtr (aes : Aes) (ctx : SymmetricContext) (m : Memory)
    (output input len : ℕ) : Except Fault (SymmetricContext × Memory) :=
  transformCtrLoop aes output input len 0 ctx m

end Picotls.BlockModes
