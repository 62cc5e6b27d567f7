import Picotls.Ech

/-!
# Setting up HPKE contexts

The sender of HPKE runs a key exchange with the receiver's public key, derives a shared secret from
it, and from that the key and the base nonce of an AEAD context; the receiver does the same with the
public key it is sent. Every piece that is put into a buffer may need memory, and so does every
HMAC context and the AEAD context.
-/

namespace Picotls.Hpke

open Foundation Procedure

variable [Crypto]

/-- A code that stands for a failure. -/
abbrev FailureCode := { c : Code // c ≠ 0 }

/-- What lies outside of HPKE: which requests for memory are granted, whether AEAD contexts for
encryption and for decryption can be made, and the key exchange. -/
structure Host where
  alloc : ℕ → Bool
  aeadNew : (isEnc : Bool) → Bool
  exchange : KeyExchangeAlgorithm → (peerkey : Bytes) → Except FailureCode (Bytes × Bytes)
  onExchange : KeyExchangeContext → (peerkey : Bytes) → Except FailureCode Bytes

/-- The variables that the caller provides, with the number of requests for memory so far and of
what has failed. -/
structure State where
  requests : ℕ
  failures : ℕ
  pkS : Bytes
  ctx : Option AeadContext

/-- A step of HPKE. -/
abbrev Proc := Procedure Host State Stop

/-- A request for memory. -/
def request : Proc Unit := fun host s =>
  if host.alloc s.requests then (.ok (), { s with requests := s.requests + 1 })
  else (.error (.code Error.noMemory),
    { s with requests := s.requests + 1, failures := s.failures + 1 })

/-- The answer of a key exchange. -/
def ofExchange {α : Type} (answer : Host → Except FailureCode α) : Proc α := fun host s =>
  match answer host with
  | .ok a => (.ok a, s)
  | .error c => (.error (.code c), { s with failures := s.failures + 1 })

/-- Set the encapsulated key. -/
def setPkS (pkS : Bytes) : Proc Unit := update fun _ s => { s with pkS }

/-- Set the context. -/
def setCtx (ctx : Option AeadContext) : Proc Unit := update fun _ s => { s with ctx }

/-- Perform a step and undo the encapsulated key if it fails. -/
def orForget {α : Type} (m : Proc α) : Proc α := do
  match ← attempt m with
  | .ok a => pure a
  | .error stop => do
    setPkS []
    fail stop

/-- Stop at an assertion that does not hold. -/
def assertThat (c : Prop) [Decidable c] : Proc Unit := if c then pure () else fail .assertion

/-! ## Labeled derivations -/

/-- Append octets to a buffer. -/
def pushv (buf octets : Bytes) : Proc Bytes :=
  if octets = [] then pure buf else do
    request
    return buf ++ octets

abbrev hpkeV1Label : Bytes := ascii "HPKE-v1"

/-- Append the identifier of the suite, or of the KEM alone. -/
def buildSuiteId (buf : Bytes) (kem : HpkeKem) (cipher : Option HpkeCipherSuite) : Proc Bytes :=
  match cipher with
  | none => do
    let buf ← pushv buf (ascii "KEM")
    pushv buf (toBE 2 kem.id)
  | some cipher => do
    let buf ← pushv buf (ascii "HPKE")
    let buf ← pushv buf (toBE 2 kem.id)
    let buf ← pushv buf (toBE 2 cipher.kdf)
    pushv buf (toBE 2 cipher.aeadId)

/-- The hash of the suite, or of the KEM alone. -/
def suiteHash (kem : HpkeKem) (cipher : Option HpkeCipherSuite) : HashAlgorithm :=
  match cipher with
  | none => kem.hash
  | some cipher => cipher.hash

/-- A new HMAC context, which consists of two objects. -/
def hmacCreate (algo : HashAlgorithm) (key : Bytes) : Proc Unit := do
  assertThat (key.length ≤ algo.blockSize)
  request
  request

/-- Octets of a number that is known. -/
abbrev Octets (n : ℕ) := { octets : Bytes // octets.length = n }

/-- HKDF-Extract. -/
def hkdfExtract (algo : HashAlgorithm) (salt ikm : Bytes) : Proc (Octets algo.digestSize) := do
  hmacCreate algo (if salt.length = 0 then zeros algo.digestSize else salt)
  return ⟨hkdfExtractDigest algo salt ikm, hmac_length _ _ _⟩

/-- HKDF-Expand needs no HMAC context if there is nothing to be expanded. -/
def expandCreate (algo : HashAlgorithm) (outlen : ℕ) (prk : Bytes) : Proc Unit :=
  if outlen = 0 then pure () else hmacCreate algo prk

/-- HKDF-Expand. -/
def hkdfExpand (algo : HashAlgorithm) (outlen : ℕ) (prk info : Bytes) : Proc (Octets outlen) := do
  expandCreate algo outlen prk
  return ⟨hkdfExpandDigest algo outlen prk info, hkdfExpandDigest_length algo outlen prk info⟩

/-- Extract with a label. -/
def labeledExtract (kem : HpkeKem) (cipher : Option HpkeCipherSuite) (salt label ikm : Bytes) :
    Proc (Octets (suiteHash kem cipher).digestSize) := do
  let labeledIkm ← pushv [] hpkeV1Label
  let labeledIkm ← buildSuiteId labeledIkm kem cipher
  let labeledIkm ← pushv labeledIkm label
  let labeledIkm ← pushv labeledIkm ikm
  hkdfExtract (suiteHash kem cipher) salt labeledIkm

/-- Expand with a label. -/
def labeledExpand (kem : HpkeKem) (cipher : Option HpkeCipherSuite) (outlen : ℕ)
    (prk label info : Bytes) : Proc (Octets outlen) := do
  assertThat (outlen < 65535)
  let labeledInfo ← pushv [] (toBE 2 outlen)
  let labeledInfo ← pushv labeledInfo hpkeV1Label
  let labeledInfo ← buildSuiteId labeledInfo kem cipher
  let labeledInfo ← pushv labeledInfo label
  let labeledInfo ← pushv labeledInfo info
  hkdfExpand (suiteHash kem cipher) outlen prk labeledInfo

/-! ## The KEM -/

/-- The shared secret of a KEM. -/
def extractAndExpand (kem : HpkeKem) (secretLen : ℕ) (pkS pkR dh : Bytes) :
    Proc (Octets secretLen) := do
  let kemContext ← pushv [] pkS
  let kemContext ← pushv kemContext pkR
  let eaePrk ← labeledExtract kem none [] (ascii "eae_prk") dh
  labeledExpand kem none secretLen eaePrk.1 (ascii "shared_secret") kemContext

/-- The shared secret has the size of a digest. -/
def dhDerive (kem : HpkeKem) (pkS pkR dh : Bytes) : Proc (Octets kem.hash.digestSize) :=
  extractAndExpand kem kem.hash.digestSize pkS pkR dh

/-- Encapsulate: the shared secret, with the public key that is sent to the receiver. -/
def dhEncap (kem : HpkeKem) (pkR : Bytes) : Proc (Octets kem.hash.digestSize) := do
  setPkS []
  let (pkS, dh) ← ofExchange fun host => host.exchange kem.keyex pkR
  setPkS pkS
  orForget (dhDerive kem pkS pkR dh)

/-- Decapsulate: the shared secret for a public key that was received. -/
def dhDecap (kem : HpkeKem) (keyex : KeyExchangeContext) (pkS pkR : Bytes) :
    Proc (Octets kem.hash.digestSize) := do
  let dh ← ofExchange fun host => host.onExchange keyex pkS
  dhDerive kem pkS pkR dh

/-! ## The key schedule -/

/-- A new AEAD context, or none. -/
def aeadNewDirect (algo : AeadAlgorithm) (isEnc : Bool) (key : Bytes) (iv : Octets algo.ivSize) :
    Proc Unit := fun host s =>
  if host.aeadNew isEnc then (.ok (), { s with ctx := some ⟨algo, key, iv.1, iv.2⟩ })
  else (.ok (), { s with ctx := none, failures := s.failures + 1 })

/-- The key and the base nonce. -/
def deriveKeys (kem : HpkeKem) (cipher : HpkeCipherSuite) (sharedSecret info : Bytes) :
    Proc (Octets cipher.aead.keySize × Octets cipher.aead.ivSize) := do
  let context ← pushv [] [0]
  request
  let pskIdHash ← labeledExtract kem (some cipher) [] (ascii "psk_id_hash") []
  let context := context ++ pskIdHash.1
  request
  let infoHash ← labeledExtract kem (some cipher) [] (ascii "info_hash") info
  let context := context ++ infoHash.1
  let secret ← labeledExtract kem (some cipher) sharedSecret (ascii "secret") []
  let key ← labeledExpand kem (some cipher) cipher.aead.keySize secret.1 (ascii "key") context
  let baseNonce ←
    labeledExpand kem (some cipher) cipher.aead.ivSize secret.1 (ascii "base_nonce") context
  return (key, baseNonce)

/-- Set up the context. That there is none at the end does not change the return code. -/
def keySchedule (kem : HpkeKem) (cipher : HpkeCipherSuite) (isEnc : Bool)
    (sharedSecret info : Bytes) : Proc Unit := do
  setCtx none
  let (key, baseNonce) ← deriveKeys kem cipher sharedSecret info
  aeadNewDirect cipher.aead isEnc key.1 baseNonce

/-- `ptls_hpke_setup_base_s`. -/
def ptlsHpkeSetupBaseS (kem : HpkeKem) (cipher : HpkeCipherSuite) (pkR info : Bytes) :
    Proc Unit := do
  setPkS []
  orForget do
    let secret ← dhEncap kem pkR
    keySchedule kem cipher true secret.1 info

/-- `ptls_hpke_setup_base_r`. -/
def ptlsHpkeSetupBaseR (kem : HpkeKem) (cipher : HpkeCipherSuite) (keyex : KeyExchangeContext)
    (pkS info : Bytes) : Proc Unit := do
  let secret ← dhDecap kem keyex pkS keyex.pubkey
  keySchedule kem cipher false secret.1 info

/-- Variables as a caller initializes them. -/
def State.initial : State := ⟨0, 0, [], none⟩

/-- The environment of a client answers as the code of HPKE does, with the AEAD contexts that can be
made. -/
def Answers (env : Environment) (aeadNew : Bool → Bool) : Prop :=
  ∀ tick kem cipher pkR info, ∃ host : Host, host.aeadNew = aeadNew ∧
    match ptlsHpkeSetupBaseS kem cipher pkR info host .initial with
    | (.ok (), t) => env.hpkeSetupBaseS tick kem cipher pkR info = .ok (t.pkS, t.ctx)
    | (.error (.code c), _) => env.hpkeSetupBaseS tick kem cipher pkR info = .error c
    | (.error _, _) => True

end Picotls.Hpke
