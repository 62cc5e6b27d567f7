import Picotls.Protocol

/-!
# Cryptographic primitives and the functions built on them

Hash functions and AEAD ciphers come from a crypto backend. They are a parameter of the whole
development: a class with the laws that the backends document, namely that digests have the
digest size, that ciphertexts are longer than plaintexts by the tag size, that opening inverts
sealing, and that it does not matter in which pieces a plaintext is given. HMAC, HKDF,
HKDF-Expand-Label, and the construction of nonces are the library's own and are defined here.
-/

namespace Picotls

open Foundation

/-- A hash algorithm, compared by identity as the library compares pointers. -/
structure HashAlgorithm where
  name : ℕ
  digestSize : ℕ
  blockSize : ℕ
  digestSize_pos : 0 < digestSize
  digestSize_le : digestSize ≤ maxDigestSize
  deriving DecidableEq

/-- An AEAD algorithm and its sizes; the last two sizes are those of TLS 1.2. -/
structure AeadAlgorithm where
  name : ℕ
  keySize : ℕ
  ivSize : ℕ
  tagSize : ℕ
  fixedIvSize : ℕ
  recordIvSize : ℕ
  keySize_le : keySize ≤ maxSecretSize
  eight_le_ivSize : 8 ≤ ivSize
  /-- The largest record with its content type and tag fits the record size limit. -/
  tagSize_le : tagSize ≤ 255
  fixedIvSize_le : fixedIvSize ≤ ivSize
  deriving DecidableEq

/-- An AEAD key with its static IV, which has the size the algorithm asks for. -/
structure AeadContext where
  algo : AeadAlgorithm
  key : Bytes
  iv : Bytes
  iv_length : iv.length = algo.ivSize
  deriving DecidableEq

/-- The nonce of a sequence number: the static IV with its last eight octets masked by it. -/
def buildIv (algo : AeadAlgorithm) (staticIv : Bytes) (seq : ℕ) : Bytes :=
  staticIv.take (algo.ivSize - 8) ++
    List.zipWith (· ^^^ ·) (staticIv.drop (algo.ivSize - 8)) (toBE 8 seq)

/-- The hash functions and AEAD ciphers of a backend, with the laws they document. -/
class Crypto where
  hash : HashAlgorithm → Bytes → Bytes
  hash_length : ∀ algo message, (hash algo message).length = algo.digestSize
  aeadSeal : AeadAlgorithm → (key nonce aad plaintext : Bytes) → Bytes
  aeadOpen : AeadAlgorithm → (key nonce aad ciphertext : Bytes) → Option Bytes
  /-- Sealing of a plaintext that is given in pieces. -/
  aeadSealVectors : AeadAlgorithm → (key nonce aad : Bytes) → List Bytes → Bytes
  aeadSeal_length : ∀ algo key nonce aad plaintext,
    (aeadSeal algo key nonce aad plaintext).length = plaintext.length + algo.tagSize
  aeadOpen_length : ∀ algo key nonce aad ciphertext plaintext,
    aeadOpen algo key nonce aad ciphertext = some plaintext →
      ciphertext.length = plaintext.length + algo.tagSize
  aeadOpen_aeadSeal : ∀ algo key nonce aad plaintext,
    aeadOpen algo key nonce aad (aeadSeal algo key nonce aad plaintext) = some plaintext
  aeadSealVectors_eq : ∀ algo key nonce aad vectors,
    aeadSealVectors algo key nonce aad vectors = aeadSeal algo key nonce aad vectors.flatten

variable [Crypto]

/-! ## HMAC and HKDF -/

/-- The HMAC key, padded with zeros to the block size and masked by a pad octet. -/
def hmacApplyKey (algo : HashAlgorithm) (key : Bytes) (pad : UInt8) : Bytes :=
  ((key ++ zeros algo.blockSize).take algo.blockSize).map (· ^^^ pad)

/-- HMAC over a backend's hash function. -/
def hmac (algo : HashAlgorithm) (key message : Bytes) : Bytes :=
  Crypto.hash algo (hmacApplyKey algo key 0x5c ++
    Crypto.hash algo (hmacApplyKey algo key 0x36 ++ message))

@[simp] theorem hmac_length (algo : HashAlgorithm) (key message : Bytes) :
    (hmac algo key message).length = algo.digestSize := Crypto.hash_length _ _

/-- HKDF-Extract; an empty salt stands for a digest-sized run of zeros. -/
def hkdfExtractDigest (algo : HashAlgorithm) (salt ikm : Bytes) : Bytes :=
  hmac algo (if salt.length = 0 then zeros algo.digestSize else salt) ikm

/-- The output blocks of HKDF-Expand from block `i` on, chained through the previous digest. -/
def hkdfExpandBlocks (algo : HashAlgorithm) (prk info : Bytes) : ℕ → ℕ → Bytes → Bytes
  | 0, _, _ => []
  | n + 1, i, prev =>
    let digest := hmac algo prk (prev ++ info ++ [UInt8.ofNat (i + 1)])
    digest ++ hkdfExpandBlocks algo prk info n (i + 1) digest

/-- HKDF-Expand: as many blocks as the output needs, cut to the output length. -/
def hkdfExpandDigest (algo : HashAlgorithm) (outlen : ℕ) (prk info : Bytes) : Bytes :=
  (hkdfExpandBlocks algo prk info ((outlen + algo.digestSize - 1) / algo.digestSize) 0 []).take
    outlen

theorem hkdfExpandBlocks_length (algo : HashAlgorithm) (prk info : Bytes) (n i : ℕ)
    (prev : Bytes) : (hkdfExpandBlocks algo prk info n i prev).length = n * algo.digestSize := by
  induction n generalizing i prev with
  | zero => simp [hkdfExpandBlocks]
  | succ n ih => simp [hkdfExpandBlocks, ih, Nat.succ_mul, Nat.add_comm]

@[simp] theorem hkdfExpandDigest_length (algo : HashAlgorithm) (outlen : ℕ) (prk info : Bytes) :
    (hkdfExpandDigest algo outlen prk info).length = outlen := by
  have hpos := algo.digestSize_pos
  have hdiv := Nat.div_add_mod (outlen + algo.digestSize - 1) algo.digestSize
  have hmod := Nat.mod_lt (outlen + algo.digestSize - 1) hpos
  simp only [hkdfExpandDigest, List.length_take, hkdfExpandBlocks_length]
  rw [Nat.mul_comm]
  omega

/-- The label structure that HKDF-Expand-Label expands. -/
def hkdfLabel (outlen : ℕ) (labelPrefix label context : Bytes) : Bytes :=
  toBE 2 outlen ++ [UInt8.ofNat (labelPrefix ++ label).length] ++ (labelPrefix ++ label) ++
    [UInt8.ofNat context.length] ++ context

/-- HKDF-Expand-Label on octet strings. -/
def hkdfExpandLabelDigest (algo : HashAlgorithm) (outlen : ℕ) (secret : Bytes) (label : Label)
    (context labelPrefix : Bytes) : Bytes :=
  hkdfExpandDigest algo outlen secret (hkdfLabel outlen labelPrefix label.text context)

@[simp] theorem hkdfExpandLabelDigest_length (algo : HashAlgorithm) (outlen : ℕ) (secret : Bytes)
    (label : Label) (context labelPrefix : Bytes) :
    (hkdfExpandLabelDigest algo outlen secret label context labelPrefix).length = outlen :=
  hkdfExpandDigest_length _ _ _ _

/-- The prefix of every TLS 1.3 label. -/
def hkdfExpandLabelPrefix : Bytes := ascii "tls13 "

/-! ## Encryption under an AEAD context -/

/-- Encrypt under the nonce of a sequence number. -/
def AeadContext.encrypt (ctx : AeadContext) (input : Bytes) (seq : ℕ) (aad : Bytes) : Bytes :=
  Crypto.aeadSeal ctx.algo ctx.key (buildIv ctx.algo ctx.iv seq) aad input

/-- Encrypt vectors under the nonce of a sequence number. -/
def AeadContext.encryptVectors (ctx : AeadContext) (input : List Bytes) (seq : ℕ) (aad : Bytes) :
    Bytes :=
  Crypto.aeadSealVectors ctx.algo ctx.key (buildIv ctx.algo ctx.iv seq) aad input

/-- Decrypt under the nonce of a sequence number. -/
def AeadContext.decrypt (ctx : AeadContext) (input : Bytes) (seq : ℕ) (aad : Bytes) :
    Option Bytes :=
  Crypto.aeadOpen ctx.algo ctx.key (buildIv ctx.algo ctx.iv seq) aad input

@[simp] theorem AeadContext.encryptVectors_eq (ctx : AeadContext) (input : List Bytes) (seq : ℕ)
    (aad : Bytes) : ctx.encryptVectors input seq aad = ctx.encrypt input.flatten seq aad :=
  Crypto.aeadSealVectors_eq _ _ _ _ _

@[simp] theorem AeadContext.decrypt_encrypt (ctx : AeadContext) (input : Bytes) (seq : ℕ)
    (aad : Bytes) : ctx.decrypt (ctx.encrypt input seq aad) seq aad = some input :=
  Crypto.aeadOpen_aeadSeal _ _ _ _ _

end Picotls
