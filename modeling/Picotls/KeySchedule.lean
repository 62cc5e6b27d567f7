import Picotls.Connection

/-!
# Key schedule and traffic keys

The client starts its key schedule before the server has chosen a hash function, so the schedule
holds one transcript hash for every hash the client offers. Selecting a cipher suite keeps the
transcript of one hash, and recomputes the early secret if that hash is not the one the early
secret was computed with.
-/

namespace Picotls

open Foundation

variable [Crypto]

/-! ## Derivation of secrets -/

/-- HKDF-Extract, which allocates an HMAC context. -/
def hkdfExtract (algo : HashAlgorithm) (salt ikm : Bytes) : Proc Bytes := do
  allocate
  return hkdfExtractDigest algo salt ikm

/-- HKDF-Expand-Label; the label structure holds its label and its context in one-octet blocks. -/
def hkdfExpandLabel (algo : HashAlgorithm) (outlen : ℕ) (secret : Bytes) (label : Label)
    (context : Bytes) (labelPrefix : Option Bytes) : Proc Bytes := do
  let labelPrefix := labelPrefix.getD hkdfExpandLabelPrefix
  allocate
  throwIf (256 ≤ (labelPrefix ++ label.text).length) Error.blockOverflow
  throwIf (256 ≤ context.length) Error.blockOverflow
  let output := hkdfExpandLabelDigest algo outlen secret label context labelPrefix
  emitEvent (.derive (.schedule algo secret label context) output)
  return output

/-! ## The key schedule -/

/-- The key schedule of the connection. -/
def getKeySchedule : Proc KeySchedule := do
  let tls ← getTls
  deref tls.keySchedule

/-- Replace the key schedule of the connection. -/
def setKeySchedule (sched : KeySchedule) : Proc Unit :=
  modifyTls fun tls => { tls with keySchedule := some sched }

/-- The transcript hash in use, the first of the schedule. -/
def firstHash : Proc HashSlot := do
  let sched ← getKeySchedule
  deref sched.hashes.head?

/-- The hash from which the next keys of a connection are derived. -/
def Tls.firstAlgo (tls : Tls) : Option HashAlgorithm :=
  tls.keySchedule.bind fun sched => sched.hashes.head?.map HashSlot.algo

/-- Update every transcript hash of the schedule. -/
def mapHashes (f : HashSlot → HashSlot) : Proc Unit := do
  let sched ← getKeySchedule
  setKeySchedule { sched with hashes := sched.hashes.map f }

/-- Update the transcript hash in use. -/
def modifyFirstHash (f : HashSlot → HashSlot) : Proc Unit := do
  let sched ← getKeySchedule
  setKeySchedule { sched with hashes := sched.hashes.modifyHead f }

/-- The hashes of the offered suites that are neither the preferred hash nor a repetition. -/
def offeredHashes (preferred : Option HashAlgorithm) :
    (seen : List HashAlgorithm) → List CipherSuite → List HashAlgorithm
  | _, [] => []
  | seen, cs :: rest =>
    if preferred ≠ some cs.hash ∧ cs.hash ∉ seen then
      cs.hash :: offeredHashes preferred (seen ++ [cs.hash]) rest
    else
      offeredHashes preferred (seen ++ [cs.hash]) rest

/-- The hashes a new key schedule follows: the preferred one, then the others as offered. -/
def keyScheduleHashes (preferred : Option CipherSuite) (offered : Option (List CipherSuite)) :
    List HashAlgorithm :=
  (preferred.map CipherSuite.hash).toList ++
    offeredHashes (preferred.map CipherSuite.hash) [] (offered.getD [])

/-- A fresh key schedule. -/
def keyScheduleNew (preferred : Option CipherSuite) (offered : Option (List CipherSuite))
    (useOuter : Bool) : Proc KeySchedule := do
  allocate
  return {
    hashes := (keyScheduleHashes preferred offered).map fun algo =>
      { algo := algo, ctxOuter := if useOuter then some [] else none } }

/-- From the second extraction on, the salt is derived from the previous secret. -/
def keyScheduleDeriveSalt (algo : HashAlgorithm) : Proc Unit := do
  let sched ← getKeySchedule
  runIf (sched.generation ≠ 0) do
    let derived ← hkdfExpandLabel algo algo.digestSize (sched.secret.take algo.digestSize) .derived
      (Crypto.hash algo []) none
    setKeySchedule { sched with secret := derived }

/-- Advance the schedule by extracting from new key material; absent material stands for zeros. -/
def keyScheduleExtract (ikm : Option Bytes) : Proc Unit := do
  let slot ← firstHash
  let size := slot.algo.digestSize
  keyScheduleDeriveSalt slot.algo
  let sched ← getKeySchedule
  setKeySchedule { sched with generation := sched.generation + 1 }
  let secret ← hkdfExtract slot.algo (sched.secret.take size) (ikm.getD (zeros size))
  let sched ← getKeySchedule
  setKeySchedule { sched with secret := secret }

/-- Note that the handshake secret was extracted. -/
def noteHandshakeSecret (early : KeySchedule) (shared : Option Bytes) : Proc Unit := do
  let tls ← getTls
  emitEvent (.deriveHandshake tls.isPskHandshake early shared
    (tls.keySchedule.map KeySchedule.secret))

/-- Keep the transcript of the suite's hash. When that is not the first slot, or on demand, the
early secret is computed again from the given key material. -/
def keyScheduleSelectCipher (cs : CipherSuite) (reset : Bool) (resetIkm : Option Bytes) :
    Proc Unit := do
  let sched ← getKeySchedule
  assert (sched.generation = 1)
  let found := sched.hashes.filter (·.algo = cs.hash)
  emitEvent (.selectCipher sched.hashes cs found)
  match found with
  | [] => Procedure.fail .undefined  -- reads the slot at index `SIZE_MAX`
  | [slot] =>
    let reset := reset || decide ((sched.hashes.head?.map HashSlot.algo) ≠ some cs.hash)
    setKeySchedule { sched with hashes := [slot] }
    runIf reset do
      setKeySchedule { generation := 0, secret := zeros maxDigestSize, hashes := [slot] }
      keyScheduleExtract resetIkm
  | _ => Procedure.fail .assertion

/-- The slot with the transcript of the outer ClientHello in place of the inner one. -/
def HashSlot.adoptOuter (slot : HashSlot) : HashSlot :=
  { slot with ctx := slot.ctxOuter.getD [], ctxOuter := none }

/-- Continue with the transcript of the outer ClientHello. -/
def keyScheduleSelectOuter : Proc Unit := do
  let sched ← getKeySchedule
  assert (sched.generation = 1)
  assert (sched.hashes.length = 1)
  let slot ← firstHash
  assert slot.ctxOuter.isSome
  modifyFirstHash HashSlot.adoptOuter

/-- Absorb a message into one slot. -/
def HashSlot.absorb (msg : Bytes) (useOuter : Bool) (slot : HashSlot) : HashSlot :=
  if useOuter then { slot with ctxOuter := slot.ctxOuter.map (· ++ msg) }
  else { slot with ctx := slot.ctx ++ msg }

/-- Absorb a message into the transcripts. -/
def keyScheduleUpdateHash (msg : Bytes) (useOuter : Bool) : Proc Unit := do
  let sched ← getKeySchedule
  runIf (useOuter && sched.hashes.any (·.ctxOuter.isNone)) (Procedure.fail .undefined)
  mapHashes (HashSlot.absorb msg useOuter)

/-- Absorb a message of the peer. -/
def absorbMessage (message : Bytes) : Proc Unit := do
  keyScheduleUpdateHash message false
  emitEvent (.absorbMessage message)

/-- The header of the synthetic message that stands for the first ClientHello after a retry. -/
def messageHashHeader (algo : HashAlgorithm) : Bytes :=
  [HandshakeType.messageHash, 0, 0, UInt8.ofNat algo.digestSize]

/-- Absorb the header of the synthetic message. -/
def keyScheduleUpdateCh1hashPrefix : Proc Unit := do
  let slot ← firstHash
  keyScheduleUpdateHash (messageHashHeader slot.algo) false

/-- Take the digest of the first ClientHello and restart the transcript. -/
def keyScheduleExtractCh1hash : Proc Bytes := do
  let slot ← firstHash
  assert slot.ctxOuter.isNone
  modifyFirstHash fun slot => { slot with ctx := [] }
  return Crypto.hash slot.algo slot.ctx

/-- The synthetic message that replaces a transcript. -/
def ch1hashMessage (algo : HashAlgorithm) (ctx : Bytes) : Bytes :=
  messageHashHeader algo ++ Crypto.hash algo ctx

/-- Replace the transcripts of the first slot by the synthetic message. -/
def keyScheduleTransformPostCh1hash : Proc Unit := do
  let _ ← firstHash
  modifyFirstHash fun slot => { slot with
    ctx := ch1hashMessage slot.algo slot.ctx
    ctxOuter := slot.ctxOuter.map (ch1hashMessage slot.algo) }

/-- Derive a secret from the schedule's secret, a label, and a transcript hash. -/
def deriveSecretWithHash (label : Label) (hash : Bytes) : Proc Bytes := do
  let slot ← firstHash
  let sched ← getKeySchedule
  hkdfExpandLabel slot.algo slot.algo.digestSize (sched.secret.take slot.algo.digestSize) label
    hash none

/-- Derive a secret over the current transcript. -/
def deriveSecret (label : Label) : Proc Bytes := do
  let slot ← firstHash
  deriveSecretWithHash label (Crypto.hash slot.algo slot.ctx)

/-- Derive a secret over the empty transcript. -/
def deriveSecretWithEmptyDigest (label : Label) : Proc Bytes := do
  let slot ← firstHash
  deriveSecretWithHash label (Crypto.hash slot.algo [])

/-- Derive and keep an exporter secret, if the application asked for exporters. -/
def deriveExporterSecret (isEarly : Bool) : Proc Unit := do
  let tls ← getTls
  runIf tls.ctx.useExporter (if isEarly then do
      assert tls.exporterMasterSecretEarly.isNone
      allocate
      modifyTls fun tls => { tls with exporterMasterSecretEarly := some [] }
      let secret ← deriveSecret .earlyExporterMaster
      modifyTls fun tls => { tls with exporterMasterSecretEarly := some secret }
    else do
      assert tls.exporterMasterSecretOneRtt.isNone
      allocate
      modifyTls fun tls => { tls with exporterMasterSecretOneRtt := some [] }
      let secret ← deriveSecret .exporterMaster
      modifyTls fun tls => { tls with exporterMasterSecretOneRtt := some secret })

/-- The pre-shared key of a ticket: the resumption secret expanded with the ticket's nonce. -/
def deriveResumptionSecret (nonce : Bytes) : Proc Bytes := do
  let slot ← firstHash
  let master ← deriveSecret .resumptionMaster
  hkdfExpandLabel slot.algo slot.algo.digestSize master .resumption nonce none

/-- The verification tag of a base secret over the current transcript. -/
def calcVerifyData (secret : Bytes) : Proc Bytes := do
  let slot ← firstHash
  let key ← hkdfExpandLabel slot.algo slot.algo.digestSize secret .finished [] none
  allocate
  let output := hmac slot.algo key (Crypto.hash slot.algo slot.ctx)
  emitEvent (.finishedMac slot.algo secret slot.ctx output)
  return output

/-! ## Traffic keys -/

/-- The AEAD context that a traffic secret determines. -/
def AeadContext.ofSecret (aead : AeadAlgorithm) (hash : HashAlgorithm) (secret : Bytes)
    (labelPrefix : Option Bytes) : AeadContext where
  algo := aead
  key := hkdfExpandLabelDigest hash aead.keySize secret .key []
    (labelPrefix.getD hkdfExpandLabelPrefix)
  iv := hkdfExpandLabelDigest hash aead.ivSize secret .iv []
    (labelPrefix.getD hkdfExpandLabelPrefix)
  iv_length := hkdfExpandLabelDigest_length _ _ _ _ _ _

/-- Derive the traffic keys of a secret and set up the AEAD. -/
def aeadNew (aead : AeadAlgorithm) (hash : HashAlgorithm) (secret : Bytes)
    (labelPrefix : Option Bytes) : Proc AeadContext := do
  let _ ← hkdfExpandLabel hash aead.keySize secret .key [] labelPrefix
  let _ ← hkdfExpandLabel hash aead.ivSize secret .iv [] labelPrefix
  allocate
  return .ofSecret aead hash secret labelPrefix

/-- One direction of the connection's record protection. -/
def Tls.protection (tls : Tls) (isEnc : Bool) : TrafficProtection :=
  if isEnc then tls.enc else tls.dec

/-- Update one direction of the connection's record protection. -/
def modifyProtection (isEnc : Bool) (f : TrafficProtection → TrafficProtection) : Proc Unit :=
  modifyTls fun tls =>
    if isEnc then { tls with enc := f tls.enc } else { tls with dec := f tls.dec }

omit [Crypto] in
theorem modifyProtection_bind {β : Type} (isEnc : Bool) (g : TrafficProtection → TrafficProtection)
    (f : Unit → Proc β) (env : Environment) (s : Session) :
    (modifyProtection isEnc g >>= f) env s = f () env { s with
      tls := if isEnc then { s.tls with enc := g s.tls.enc }
        else { s.tls with dec := g s.tls.dec } } := rfl

/-- Put a traffic key into use. -/
def installKey (isEnc : Bool) (aead : AeadContext) (seq : ℕ) : Proc Unit := do
  modifyProtection isEnc fun tp => { tp with aead := some aead, seq := seq }
  let tls ← getTls
  runIf isEnc (emitEvent (.installEnc tls.enc.secret aead))

/-- Derive the traffic key of the current secret and put it into use. -/
def renewTrafficKey (isEnc : Bool) (seq : ℕ) : Proc Unit := do
  let tls ← getTls
  let suite ← deref tls.cipherSuite
  modifyProtection isEnc fun tp => { tp with aead := none }
  let aead ← Procedure.attempt (aeadNew suite.aead suite.hash (tls.protection isEnc).secret
    tls.ctx.hkdfLabelPrefixObsolete)
  match aead with
  | .ok aead => installKey isEnc aead seq
  | .error _ => throwCode Error.noMemory

/-- Note the use of a new secret for receiving. -/
def noteKeyChange (isEnc : Bool) : Proc Unit := runIf (!isEnc) (emitEvent .changeReceiveKey)

omit [Crypto] in
theorem noteKeyChange_true : noteKeyChange true = pure () := rfl

/-- Install the traffic key of a secret, which is derived first when a label is given. -/
def setupTrafficProtection (isEnc : Bool) (secretLabel : Option Label) (epoch seq : ℕ)
    (skipNotify : Bool) : Proc Unit := do
  whenSome secretLabel fun label => do
    let secret ← deriveSecret label
    modifyProtection isEnc fun tp => { tp with secret := secret }
  modifyProtection isEnc fun tp => { tp with epoch := epoch }
  noteKeyChange isEnc
  let _ ← firstHash  -- read for logging the secret
  let tls ← getTls
  if tls.ctx.updateTrafficKey then
    runIf (!skipNotify) do
      let ret ← ask fun env tick =>
        env.updateTrafficKey tick isEnc epoch (tls.protection isEnc).secret
      checkCode ret
  else renewTrafficKey isEnc seq

/-- Put the pending handshake secret into use in one direction. -/
def installHandshakeSecret (isEnc : Bool) : Proc Unit := do
  let tls ← getTls
  assert tls.pendingHandshakeSecret.isSome
  let secret ← deref tls.pendingHandshakeSecret
  modifyProtection isEnc fun tp => { tp with secret := secret }
  modifyTls fun tls => { tls with pendingHandshakeSecret := none }
  setupTrafficProtection isEnc none 2 0 true

/-- Put the pending handshake secret into use: the client sends under it, the server receives. -/
def commissionHandshakeSecret : Proc Unit := do
  let tls ← getTls
  if tls.isServer then installHandshakeSecret false else installHandshakeSecret true

/-- Replace a traffic secret by its successor and install the new key. -/
def updateTrafficKey (isEnc : Bool) : Proc Unit := do
  let slot ← firstHash
  let tls ← getTls
  let secret ← hkdfExpandLabel slot.algo slot.algo.digestSize (tls.protection isEnc).secret
    .trafficUpdate [] none
  modifyProtection isEnc fun tp => { tp with secret := secret }
  setupTrafficProtection isEnc none 3 0 true

end Picotls
