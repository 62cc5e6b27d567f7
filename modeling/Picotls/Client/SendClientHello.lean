import Picotls.Client.ClientHello

/-!
# Sending a ClientHello

The first flight decides whether ECH and a pre-shared key are offered, creates the key share, and
starts the key schedule. The second flight, in answer to a HelloRetryRequest, keeps these and
encodes the hello again.
-/

namespace Picotls

open Foundation

variable [Crypto]

/-! ## Session tickets -/

/-- The fields of a NewSessionTicket message. -/
structure NewSessionTicket where
  lifetime : ℕ
  ageAdd : ℕ
  nonce : Bytes
  ticket : Bytes
  maxEarlyDataSize : ℕ

/-- Decode the body of a NewSessionTicket message. -/
def decodeNewSessionTicket (src : Src) : Proc NewSessionTicket := do
  let (lifetime, src) ← src.decodeUInt 4
  let (ageAdd, src) ← src.decodeUInt 4
  let (nonce, src) ← src.decodeOpenBlock 1
  let (ticket, src) ← src.decodeOpenBlock 2
  throwIf (ticket.data = []) Alert.decodeError
  let maxEarlyDataSize ← decodeExtensions .newSessionTicket src 0 fun acc exttype block => do
    notifyExtension HandshakeType.newSessionTicket exttype block.data
    if exttype = ExtensionType.earlyData then block.decodeUInt 4
    else return (acc, ⟨0, []⟩)
  return ⟨lifetime, ageAdd, nonce.data, ticket.data, maxEarlyDataSize⟩

/-- A session ticket saved by an earlier connection, ready to be offered. -/
structure StoredSessionTicket where
  keyShare : KeyExchangeAlgorithm
  cipherSuite : CipherSuite
  secret : Bytes
  obfuscatedTicketAge : ℕ
  ticket : Bytes
  maxEarlyDataSize : ℕ

/-- Decode a saved session ticket, which must name known algorithms and be at most a week old. -/
def decodeStoredSessionTicket (ticket : Bytes) : Proc StoredSessionTicket := do
  let (obtainedAt, src) ← Src.decodeUInt 8 ⟨0, ticket⟩
  let (kxid, src) ← src.decodeUInt 2
  let (csid, src) ← src.decodeUInt 2
  let (block, src) ← src.decodeOpenBlock 3
  let nst ← decodeNewSessionTicket block
  let secret ← src.decodeBlock 2
  let tls ← getTls
  match (tls.ctx.keyExchanges.getD []).find? (·.id = kxid) with
  | none => throwCode Error.library
  | some keyShare =>
    match tls.ctx.cipherSuites.find? (·.id = csid) with
    | none => throwCode Error.library
    | some cipherSuite =>
      let now ← ask Environment.getTime
      throwIf (¬ (obtainedAt ≤ now ∧ now - obtainedAt < 7 * 86400 * 1000)) Error.library
      return {
        keyShare := keyShare
        cipherSuite := cipherSuite
        secret := secret.data
        obfuscatedTicketAge := ((now - obtainedAt) % 2 ^ 32 + nst.ageAdd) % 2 ^ 32
        ticket := nst.ticket
        maxEarlyDataSize := nst.maxEarlyDataSize }

/-! ## What the ClientHello offers -/

/-- Offer ECH in the first flight, if the client supports it and has a name to hide. A list of
configurations that does not decode is ignored. -/
def setupEchOffer (properties : HandshakeProperties) (sniName : Bytes) : Proc Unit := do
  let tls ← getTls
  whenSome tls.ctx.echClientCiphers fun ciphers => do
    match properties.echConfigs with
    | none => pure ()
    | some [] =>
      clientSetupEchGrease tls.ctx.echClientKems ciphers sniName
      modifyEch fun ech => { ech with state := .grease }
    | some configs =>
      let decoded ← Procedure.attempt (clientDecodeEchConfigList tls.ctx configs)
      match decoded with
      | .ok (some conf) =>
        match conf.kem, conf.cipher with
        | some kem, some cipher => clientSetupEch conf kem cipher
        | _, _ => pure ()
      | _ => pure ()

/-- In the second flight the selected suite must have the hash of the external pre-shared key. -/
def checkExternalPskHash (psk : PreSharedKey) : Proc Unit := do
  let tls ← getTls
  assert ((tls.cipherSuite.map CipherSuite.hash) = some psk.hash)

/-- In the first flight the suite of the key schedule is one with the hash of the external
pre-shared key. -/
def prepareExternalPsk (properties : Option HandshakeProperties) (psk : PreSharedKey) :
    Proc Unit := do
  let tls ← getTls
  let suite := tls.ctx.cipherSuites.find? (·.hash = psk.hash) <|> tls.cipherSuite
  modifyTls fun tls => { tls with offeredPsk := true, cipherSuite := suite }
  assert suite.isSome
  runIf ((properties.map HandshakeProperties.wantsMaxEarlyDataSize).getD false) do
    modifyTls fun tls => { tls with usingEarlyData := true }
    modifyReport fun report => { report with maxEarlyDataSize := some (2 ^ 64 - 1) }

/-- Offer the external pre-shared key of the context. -/
def offerExternalPsk (properties : Option HandshakeProperties) (isSecondFlight : Bool)
    (psk : PreSharedKey) : Proc OfferedPsk := do
  (if isSecondFlight then checkExternalPskHash psk else prepareExternalPsk properties psk)
  return {
    hash := psk.hash, secret := psk.secret, identity := psk.identity, label := .extBinder
    obfuscatedTicketAge := 0 }

/-- Offer the session of a saved ticket, if the ticket can be used. -/
def offerTicket (properties : HandshakeProperties) (isSecondFlight : Bool) (ticket : Bytes) :
    Proc (Option OfferedPsk) := do
  let stored ← Procedure.attempt (decodeStoredSessionTicket ticket)
  match stored with
  | .error _ => return none
  | .ok stored =>
    modifyTls fun tls => { tls with
      offeredPsk := true
      -- a key share selected by a HelloRetryRequest is not overridden
      keyShare := tls.keyShare <|> some stored.keyShare
      cipherSuite := some stored.cipherSuite }
    runIf (!isSecondFlight ∧ stored.maxEarlyDataSize ≠ 0 ∧ properties.wantsMaxEarlyDataSize) do
      modifyTls fun tls => { tls with usingEarlyData := true }
      modifyReport fun report => { report with maxEarlyDataSize := some stored.maxEarlyDataSize }
    return some {
      hash := stored.cipherSuite.hash, secret := stored.secret, identity := stored.ticket
      label := .resBinder, obfuscatedTicketAge := stored.obfuscatedTicketAge }

/-- The pre-shared key to offer: the external one, or else that of the saved ticket. -/
def offerPsk (properties : Option HandshakeProperties) (isSecondFlight : Bool) :
    Proc (Option OfferedPsk) := do
  let tls ← getTls
  match tls.ctx.preSharedKey with
  | some psk =>
    let offered ← offerExternalPsk properties isSecondFlight psk
    return some offered
  | none =>
    match properties with
    | none => return none
    | some properties =>
      match properties.sessionTicket, tls.ctx.keyExchanges with
      | some ticket, some _ => offerTicket properties isSecondFlight ticket
      | _, _ => return none

/-- Tell the application whether early data can be sent. -/
def reportEarlyData (properties : HandshakeProperties) : Proc Unit := do
  let tls ← getTls
  if tls.usingEarlyData then
    modifyReport fun report => { report with earlyDataAcceptance := .unknown }
  else
    runIf properties.wantsMaxEarlyDataSize
      (modifyReport fun report => { report with maxEarlyDataSize := some 0 })
    modifyReport fun report => { report with earlyDataAcceptance := .rejected }

/-- Choose the default key share unless one is chosen or the server is to choose, and create its
ephemeral key. -/
def createKeyShare (properties : Option HandshakeProperties) : Proc Unit := do
  let tls ← getTls
  let negotiate := (properties.map HandshakeProperties.negotiateBeforeKeyExchange).getD false
  runIf (tls.keyShare.isNone && !negotiate)
    (whenSome tls.ctx.keyExchanges fun algos =>
      modifyTls fun tls => { tls with keyShare := algos.head? })
  let tls ← getTls
  assert tls.keyShareCtx.isNone
  whenSome tls.keyShare fun algo => do
    let answer ← ask fun env tick => env.keyExchangeCreate tick algo
    let (pubkey, privkey) ← ofAnswer answer
    modifyTls fun tls => { tls with keyShareCtx := some ⟨algo, pubkey, privkey⟩ }

/-! ## Building the message -/

/-- Absorb the ClientHello that starts at an offset and ends the buffer, filling in its binder. -/
def updateChHashAndBinder (chStart : ℕ) (binderKey : Option Bytes) : Proc Unit := do
  let buf ← getSendbuf
  match binderKey with
  | none => keyScheduleUpdateHash (buf.drop chStart) false
  | some binderKey =>
    let slot ← firstHash
    let binderOff := buf.length - (3 + slot.algo.digestSize)
    keyScheduleUpdateHash ((buf.take binderOff).drop chStart) false
    let binder ← calcVerifyData binderKey
    modifySendbuf fun buf => overwrite buf (binderOff + 3) binder
    let buf ← getSendbuf
    keyScheduleUpdateHash (buf.drop binderOff) false

/-- The number of padding octets of an encoded inner hello. -/
def echPaddingLen (encodedLen maxNameLength : ℕ) (sniName : Option Bytes) : ℕ :=
  let namePadding := match sniName with
    | some name => max name.length maxNameLength
    | none => maxNameLength + 9
  (encodedLen - handshakeHeaderSize + namePadding + 31) / 32 * 32 -
    (encodedLen - handshakeHeaderSize)

/-- The encoded inner hello, with the binder of the inner hello and its padding. -/
def buildEncodedChInner (ctx : Context) (p : ClientHelloParams) : Proc Bytes := do
  let (_, encoded) ← withBuffer [] <|
    encodeClientHello ctx { p with mode := .encodedInner, echReplay := none }
  let buf ← getSendbuf
  let encoded := if p.psk.isSome then
      overwrite encoded (encoded.length - p.pskBinderSize)
        (buf.drop (buf.length - p.pskBinderSize))
    else encoded
  let paddingLen := echPaddingLen encoded.length p.ech.maxNameLength p.sniName
  runIf (paddingLen ≠ 0) allocate
  return encoded ++ zeros paddingLen

/-- Keep the ECH extension of the first hello, to be repeated in a second one. -/
def keepFirstEch (payloadOff payloadSize : ℕ) (encSize : ℕ) : Proc Unit := do
  allocate
  let buf ← getSendbuf
  let headerSize := outerEchHeaderSize encSize
  let firstEch := (buf.drop (payloadOff - headerSize)).take (headerSize + payloadSize)
  modifyEch fun ech => { ech with
    firstEch := some firstEch
    state := if ech.state = .grease then .grease else .offered }

/-- Replace the inner hello in the buffer by the outer hello that carries it sealed. -/
def wrapInOuterHello (messStart : ℕ) (p : ClientHelloParams) (aead : AeadContext)
    (outerRandom : Bytes) (binderKey : Option Bytes) : Proc Unit := do
  let tls ← getTls
  let encoded ← buildEncodedChInner tls.ctx p
  modifySendbuf (·.take messStart)
  let payloadSize := encoded.length - handshakeHeaderSize + aead.algo.tagSize
  let payloadOff ← encodeClientHello tls.ctx { p with
    mode := .outer, clientRandom := outerRandom, sniName := p.ech.publicName
    echPayloadSize := payloadSize, echReplay := none }
  let buf ← getSendbuf
  let payload := aead.encrypt (encoded.drop handshakeHeaderSize)
    (if p.isSecondFlight then 1 else 0) (buf.drop (messStart + handshakeHeaderSize))
  modifySendbuf fun buf => overwrite buf payloadOff payload
  runIf (!p.isSecondFlight) (keepFirstEch payloadOff payloadSize p.ech.enc.length)
  let tls ← getTls
  if tls.ech.state = .grease then
    mapHashes HashSlot.adoptOuter
    modifyEch fun ech => { ech with aead := none }
    updateChHashAndBinder messStart binderKey
  else
    let buf ← getSendbuf
    keyScheduleUpdateHash (buf.drop messStart) true

/-- The key under which the binder of an offered pre-shared key is computed. -/
def deriveBinderKey : Option OfferedPsk → Proc (Option Bytes)
  | none => pure none
  | some psk => do
    let key ← deriveSecretWithEmptyDigest psk.label
    return some key

/-- Write the ClientHello at the end of the buffer and absorb it into the transcripts. -/
def buildClientHello (properties : Option HandshakeProperties) (isSecondFlight : Bool)
    (sniName : Option Bytes) (psk : Option OfferedPsk) (cookie : Option Bytes) : Proc Unit := do
  let messStart ← sendbufOff
  let tls ← getTls
  let slot ← firstHash
  let p : ClientHelloParams := {
    mode := .inner
    isSecondFlight := isSecondFlight
    properties := properties
    clientRandom := if tls.ech.aead.isSome then tls.ech.innerClientRandom else tls.clientRandom
    keyShareCtx := tls.keyShareCtx
    sniName := sniName
    legacySessionId := tls.legacySessionId
    ech := tls.ech
    echPayloadSize := 0
    echReplay := tls.ech.firstEch
    psk := psk
    pskBinderSize := slot.algo.digestSize
    cookie := cookie
    usingEarlyData := tls.usingEarlyData }
  let _ ← encodeClientHello tls.ctx p
  let binderKey ← deriveBinderKey psk
  updateChHashAndBinder messStart binderKey
  let inner ← getSendbuf
  whenSome tls.ech.aead fun aead => wrapInOuterHello messStart p aead tls.clientRandom binderKey
  let buf ← getSendbuf
  let tls ← getTls
  let hasOuter := tls.ech.aead.isSome
  emitEvent (.absorbHello ((if hasOuter then inner else buf).drop messStart)
    (if hasOuter then some (buf.drop messStart) else none))

/-- Start the key schedule of the client. -/
def startKeySchedule (psk : Option OfferedPsk) : Proc Unit := do
  let tls ← getTls
  let sched ← keyScheduleNew tls.cipherSuite (some tls.ctx.cipherSuites) tls.ech.aead.isSome
  setKeySchedule sched
  emitEvent (.startSchedule (psk.map fun psk => (psk.hash, psk.secret)))
  keyScheduleExtract (psk.map OfferedPsk.secret)

/-- Write and commit a ClientHello, making the choices of the first flight. Returns whether this is
the second flight, the pre-shared key that is offered, and the message. -/
def composeClientHello (emitter : Emitter) (properties : Option HandshakeProperties)
    (cookie : Option Bytes) : Proc (Bool × Option OfferedPsk × Bytes) := do
  let tls ← getTls
  let isSecondFlight := tls.keySchedule.isSome
  let sniName := tls.serverName.filter (!serverNameIsIpaddr ·)
  whenSome properties fun properties =>
    whenSome sniName fun sniName => runIf (!isSecondFlight) (setupEchOffer properties sniName)
  let psk ← offerPsk properties isSecondFlight
  whenSome properties reportEarlyData
  createKeyShare properties
  runIf (!isSecondFlight) (startKeySchedule psk)
  let start ← beginMessage emitter
  let messStart ← sendbufOff
  buildClientHello properties isSecondFlight sniName psk cookie
  let buf ← getSendbuf
  commitMessage emitter start
  return (isSecondFlight, psk, buf.drop messStart)

/-- Install the key for early data, and derive the secrets that depend on the ClientHello only. -/
def beginEarlyData (emitter : Emitter) (isSecondFlight : Bool) (psk : Option OfferedPsk) :
    Proc Unit := do
  let tls ← getTls
  runIf tls.usingEarlyData do
    assert (!isSecondFlight)
    setupTrafficProtection true (some .clientEarlyTraffic) 1 0 false
    pushChangeCipherSpec emitter
  runIf (psk.isSome && !isSecondFlight) (deriveExporterSecret true)

/-- Send a ClientHello. A cookie argument, even one without octets, marks the second flight of the
state machine. -/
def sendClientHello (emitter : Emitter) (properties : Option HandshakeProperties)
    (cookie : Option (Option Bytes)) : Proc Unit := do
  let (isSecondFlight, psk, message) ← composeClientHello emitter properties (cookie.getD none)
  let tls ← getTls
  emitEvent (.clientHello tls.ech.state (psk.map fun psk => (psk.hash, psk.secret)) message)
  emitEvent (.sent message)
  beginEarlyData emitter isSecondFlight psk
  modifyTls fun tls => { tls with
    state := if cookie.isNone then .clientExpectServerHello else .clientExpectSecondServerHello }

end Picotls
