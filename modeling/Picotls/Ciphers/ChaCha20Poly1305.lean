import Picotls.Crypto
import Picotls.Foundation.Memory
import Picotls.Foundation.Streams

/-!
# ChaCha20-Poly1305

`chacha20poly1305.h` makes an AEAD of a stream cipher and an authenticator that a provider has. The
first block of the stream is the key of the authenticator, the blocks behind it mask the text. What
is authenticated is fed to the authenticator while the text is encrypted, and the numbers of octets
are counted on the way. The providers mask octets as if all of them were read before the first is
written.
-/

namespace Picotls.ChaCha20Poly1305

open Foundation

abbrev blockSize : ℕ := 64
abbrev ivSize : ℕ := 12
abbrev chacha20IvSize : ℕ := 16
abbrev tagSize : ℕ := 16

/-- The algorithm. -/
def ptlsMinicryptoChacha20poly1305 : AeadAlgorithm :=
  { name := 20, keySize := 32, ivSize := ivSize, tagSize := tagSize, fixedIvSize := 12,
    recordIvSize := 0, keySize_le := by decide, eight_le_ivSize := by decide,
    tagSize_le := by decide, fixedIvSize_le := by decide }

/-! ## The construction -/

/-- A ChaCha20 cipher, whose IV has the number of the first block in front of the nonce, and
Poly1305; with the function that gives the blocks of a stream for a key, a number and a nonce. -/
structure Provider (κ μ : Type) where
  block : Bytes → ℕ → Bytes → Bytes
  chacha : StreamCipher κ
  /-- A context of the cipher for a key, if there is memory for it. -/
  cipherNew : Bytes → Option κ
  poly1305 : Authenticator μ
  block_length : ∀ key counter nonce, (block key counter nonce).length = blockSize
  key_cipherNew : ∀ key context, cipherNew key = some context → chacha.key context = key
  tag_length : ∀ key octets, (poly1305.tag key octets).length = tagSize
  stream_eq : ∀ key nonce i, nonce.length = ivSize →
    chacha.stream key (zeros (chacha20IvSize - ivSize) ++ nonce) i =
      (block key (i / blockSize) nonce).getD (i % blockSize) 0

/-- The provider that computes the blocks and tags of given functions. -/
def Provider.ofFunctions (block : Bytes → ℕ → Bytes → Bytes) (tag : Bytes → Bytes → Bytes)
    (hblock : ∀ key counter nonce, (block key counter nonce).length = blockSize)
    (htag : ∀ key octets, (tag key octets).length = tagSize) :
    Provider (Bytes × Bytes × ℕ) (Bytes × Bytes) where
  block := block
  chacha := StreamCipher.positional fun key iv i =>
    (block key (ofBE (iv.take (chacha20IvSize - ivSize)).reverse + i / blockSize)
      (iv.drop (chacha20IvSize - ivSize))).getD (i % blockSize) 0
  cipherNew key := some (key, [], 0)
  poly1305 := Authenticator.collecting tag
  block_length := hblock
  key_cipherNew := by
    rintro key context ⟨⟩
    rfl
  tag_length := htag
  stream_eq key nonce i _ := by
    have hcounter : 0 + i / blockSize = i / blockSize := Nat.zero_add _
    rw [← hcounter]
    rfl

section Construction

variable {κ μ : Type} (P : Provider κ μ)

/-- Text masked by the blocks of a key and a nonce from a number on. -/
def Provider.chacha20 (key : Bytes) (counter : ℕ) (nonce text : Bytes) : Bytes :=
  mask (fun i => (P.block key (counter + i / blockSize) nonce).getD (i % blockSize) 0) 0 text

/-- The key of the authenticator for a nonce. -/
def Provider.oneTimeKey (key nonce : Bytes) : Bytes := (P.block key 0 nonce).take 32

/-- The zeros that fill the last block of sixteen octets. -/
def pad16 (octets : Bytes) : Bytes := zeros ((16 - octets.length % 16) % 16)

/-- A number in eight octets, the least significant first. -/
def le64 (n : ℕ) : Bytes := (toBE 8 n).reverse

/-- What is authenticated. -/
def macData (aad ciphertext : Bytes) : Bytes :=
  aad ++ pad16 aad ++ ciphertext ++ pad16 ciphertext ++ le64 aad.length ++ le64 ciphertext.length

/-- The tag of a ciphertext. -/
def Provider.tagOf (key nonce aad ciphertext : Bytes) : Bytes :=
  P.poly1305.tag (P.oneTimeKey key nonce) (macData aad ciphertext)

/-- The ciphertext of a plaintext, with its tag behind it. -/
def Provider.sealed (key nonce aad plaintext : Bytes) : Bytes :=
  let ciphertext := P.chacha20 key 1 nonce plaintext
  ciphertext ++ P.tagOf key nonce aad ciphertext

end Construction

/-! ## The code -/

/-- A context. -/
structure Context (κ μ : Type) where
  chacha : κ
  staticIv : { iv : Bytes // iv.length = ivSize }
  aadlen : ℕ
  textlen : ℕ
  poly1305 : μ

/-- A number as it is written octet by octet. -/
def chacha20poly1305WriteU64 (v : ℕ) : Bytes :=
  [UInt8.ofNat v, UInt8.ofNat (v >>> 8), UInt8.ofNat (v >>> 16), UInt8.ofNat (v >>> 24),
    UInt8.ofNat (v >>> 32), UInt8.ofNat (v >>> 40), UInt8.ofNat (v >>> 48), UInt8.ofNat (v >>> 56)]

/-- Whether octets are equal, found out in a time that does not depend on them. -/
def memEqual (x y : Bytes) : Bool := (List.zipWith (· ^^^ ·) x y).foldl (· ||| ·) 0 = 0

section Code

variable {κ μ : Type} (P : Provider κ μ)

/-- Give octets to the authenticator. -/
def Context.absorb (ctx : Context κ μ) (octets : Bytes) : Context κ μ :=
  { ctx with poly1305 := P.poly1305.update ctx.poly1305 octets }

/-- Fill the last block of the octets that were authenticated. -/
def chacha20poly1305EncryptPad (ctx : Context κ μ) (n : ℕ) : Context κ μ :=
  if n % 16 ≠ 0 then ctx.absorb P (zeros (16 - n % 16)) else ctx

/-- Authenticate the numbers of octets and compute the tag. -/
def chacha20poly1305Finalize (ctx : Context κ μ) : Bytes × Context κ μ :=
  let ctx := chacha20poly1305EncryptPad P ctx ctx.textlen
  let lenbuf := chacha20poly1305WriteU64 ctx.aadlen ++ chacha20poly1305WriteU64 ctx.textlen
  let ctx := ctx.absorb P lenbuf
  let (tag, poly1305) := P.poly1305.finish ctx.poly1305
  (tag, { ctx with poly1305 })

/-- Set the cipher to the nonce of a sequence number and the authenticator to its key. -/
def initCiphers (ctx : Context κ μ) (seq : ℕ) : Context κ μ :=
  let nonce := buildIv ptlsMinicryptoChacha20poly1305 ctx.staticIv.val seq
  let chacha := P.chacha.init ctx.chacha (zeros (chacha20IvSize - ivSize) ++ nonce)
  let (tmpbuf, chacha) := P.chacha.encrypt chacha (zeros blockSize)
  { ctx with chacha, poly1305 := P.poly1305.init (tmpbuf.take 32) }

/-- Authenticate the associated data, if there is any. -/
def absorbAad (ctx : Context κ μ) (aad : Bytes) : Context κ μ :=
  if aad.length ≠ 0 then chacha20poly1305EncryptPad P (ctx.absorb P aad) aad.length else ctx

/-- Prepare a context for a text. -/
def chacha20poly1305Init (ctx : Context κ μ) (seq : ℕ) (aad : Bytes) : Context κ μ :=
  { absorbAad P (initCiphers P ctx seq) aad with aadlen := aad.length, textlen := 0 }

/-- Encrypt a piece of a text. -/
def chacha20poly1305EncryptUpdate (ctx : Context κ μ) (input : Bytes) : Bytes × Context κ μ :=
  let (output, chacha) := P.chacha.encrypt ctx.chacha input
  let ctx := { ctx with chacha }.absorb P output
  (output, { ctx with textlen := (ctx.textlen + input.length) % 2 ^ 64 })

/-- Compute the tag of a text. -/
def chacha20poly1305EncryptFinal (ctx : Context κ μ) : Bytes × Context κ μ :=
  chacha20poly1305Finalize P ctx

/-- Prepare a context, encrypt the pieces of a text and compute its tag. The outputs together. -/
def encryptInPieces (ctx : Context κ μ) (seq : ℕ) (aad : Bytes) (pieces : List Bytes) :
    Bytes × Context κ μ :=
  let ctx := chacha20poly1305Init P ctx seq aad
  let (ciphertext, ctx) := encryptPieces (chacha20poly1305EncryptUpdate P) ctx pieces
  let (tag, ctx) := chacha20poly1305EncryptFinal P ctx
  (ciphertext ++ tag, ctx)

/-- A part of the memory that holds octets of a text. -/
structure Iovec where
  base : ℕ
  len : ℕ

/-- The loop over the vectors: where the next output goes. -/
def encryptVectors : Context κ μ → Memory → ℕ → List Iovec → ℕ × Context κ μ × Memory
  | ctx, mem, output, [] => (output, ctx, mem)
  | ctx, mem, output, vector :: vectors =>
    let (octets, ctx) := chacha20poly1305EncryptUpdate P ctx (mem.read vector.base vector.len)
    encryptVectors ctx (mem.write output octets) (output + vector.len) vectors

/-- Encrypt a text that is given in vectors. -/
def ptlsAeadDoEncryptV (ctx : Context κ μ) (mem : Memory) (output : ℕ) (input : List Iovec)
    (seq aad aadlen : ℕ) : Context κ μ × Memory :=
  let ctx := chacha20poly1305Init P ctx seq (mem.read aad aadlen)
  let (output, ctx, mem) := encryptVectors P ctx mem output input
  let (tag, ctx) := chacha20poly1305EncryptFinal P ctx
  (ctx, mem.write output tag)

/-- Decrypt a text that was authenticated, if its tag is right. -/
def decryptAuthenticated (ctx : Context κ μ) (mem : Memory) (output input inlen : ℕ) :
    ℕ × Context κ μ × Memory :=
  let (tag, ctx) := chacha20poly1305Finalize P ctx
  if memEqual tag (mem.read (input + inlen - tagSize) tagSize) then
    let (octets, chacha) := P.chacha.encrypt ctx.chacha (mem.read input (inlen - tagSize))
    (inlen - tagSize, { ctx with chacha }, mem.write output octets)
  else (sizeMax, ctx, mem)

/-- Decrypt a text, if its tag is right. -/
def chacha20poly1305Decrypt (ctx : Context κ μ) (mem : Memory)
    (output input inlen seq aad aadlen : ℕ) : ℕ × Context κ μ × Memory :=
  if inlen < tagSize then (sizeMax, ctx, mem)
  else
    let ctx := chacha20poly1305Init P ctx seq (mem.read aad aadlen)
    let ctx := { ctx.absorb P (mem.read input (inlen - tagSize)) with textlen := inlen - tagSize }
    decryptAuthenticated P ctx mem output input inlen

/-- Set up a context, which has not been written to before. -/
def chacha20poly1305SetupCrypto (ctx : Context κ μ) (key : Bytes)
    (iv : { iv : Bytes // iv.length = ivSize }) : Except Code (Context κ μ) :=
  match P.cipherNew key with
  | none => .error Error.library
  | some chacha => .ok { ctx with chacha, staticIv := iv }

/-- Set the static IV. -/
def chacha20poly1305SetIv (ctx : Context κ μ) (iv : { iv : Bytes // iv.length = ivSize }) :
    Context κ μ :=
  { ctx with staticIv := iv }

end Code

end Picotls.ChaCha20Poly1305
