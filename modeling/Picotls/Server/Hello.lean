import Picotls.Server.Finish
import Picotls.Server.InnerHello
import Picotls.Server.Retry

/-!
# The server's handling of a ClientHello

The server decodes the hello, opens the inner hello if ECH is offered, negotiates, and either asks
for another hello or sends its whole flight.
-/

namespace Picotls

open Foundation

variable [Crypto]

/-! ## Checking the hello -/

/-- Tell the application about a hello; it may replace the context and set names. -/
def callOnClientHello (params : OnClientHelloParameters) : Proc Unit := do
  let tls ← getTls
  runIf tls.ctx.onClientHello do
    let answer ← ask fun env tick => env.onClientHello tick params
    modifyTls fun tls => { tls with
      ctx := answer.context.getD tls.ctx
      serverName := answer.serverName.map cString <|> tls.serverName
      negotiatedProtocol := answer.negotiatedProtocol.map cString <|> tls.negotiatedProtocol }
    checkCode answer.ret

/-- What the application is told about a hello of an unsupported version. -/
def incompatibleParameters (ch : ClientHello) (rawMessage : Bytes) : OnClientHelloParameters where
  serverName := ch.serverName
  rawMessage := rawMessage
  cipherSuites := ch.cipherSuites
  negotiatedProtocols := ch.alpn
  signatureAlgorithms := []
  certificateCompressionAlgorithms := []
  serverCertificateTypes := []
  pskIdentities := []
  incompatibleVersion := true

/-- What the application is told about a supported hello. -/
def helloParameters (ch : ClientHello) (rawMessage : Bytes) : OnClientHelloParameters where
  serverName := ch.serverName
  rawMessage := rawMessage
  cipherSuites := ch.cipherSuites
  negotiatedProtocols := ch.alpn
  signatureAlgorithms := ch.signatureAlgorithms
  certificateCompressionAlgorithms := ch.certCompressionAlgos
  serverCertificateTypes := ch.serverCertificateTypes
  pskIdentities := ch.pskIdentities.map fun psk =>
    (psk.identity, psk.obfuscatedTicketAge, psk.binder.data)
  incompatibleVersion := false

/-- The ECH extension fits an inner hello, which has the inner one, or an outer hello. -/
def echFits (echIsInnerCh : Bool) : Option ClientHelloEch → Bool
  | some .inner => echIsInnerCh
  | some (.outer ..) => !echIsInnerCh
  | none => !echIsInnerCh

/-- Refuse a hello of an unsupported version, after telling the application about it. -/
def refuseVersion (ch : ClientHello) (prevRandom : Option Bytes) (echIsInnerCh : Bool)
    (rawMessage : Bytes) : Proc Unit := do
  throwIf echIsInnerCh Alert.illegalParameter
  runIf prevRandom.isNone (callOnClientHello (incompatibleParameters ch rawMessage))
  throwCode Alert.protocolVersion

/-- Check what every hello that is handled must satisfy. -/
def checkClientHelloConstraints (ch : ClientHello) (prevRandom : Option Bytes)
    (echIsInnerCh : Bool) (rawMessage : Bytes) : Proc Unit := do
  whenSome prevRandom fun random => throwIf (ch.randomBytes ≠ random) Alert.handshakeFailure
  runIf (ch.selectedVersion ≠ protocolVersionTls13)
    (refuseVersion ch prevRandom echIsInnerCh rawMessage)
  throwIf (ch.legacyVersion ≤ 0x0300) Alert.protocolVersion
  throwIf (ch.compressionMethods ≠ [0]) Alert.illegalParameter
  throwIf (if ch.pskHashEnd.isSome then !ch.pskIsLastExtension else ch.earlyDataIndication)
    Alert.illegalParameter
  throwIf (!echFits echIsInnerCh ch.ech) Alert.illegalParameter

/-- In a second flight the ECH extension must continue that of the first. -/
def checkSecondEch (ch : ClientHello) : Proc Unit := do
  let tls ← getTls
  runIf tls.ech.aead.isSome <|
    match ch.ech with
    | none => throwCode Alert.missingExtension
    | some .inner => throwCode Alert.illegalParameter
    | some (.outer kdf aead configId enc _ _) => do
      let cipher ← deref tls.ech.cipher
      throwIf (¬ (configId = tls.ech.configId ∧ kdf = cipher.kdf ∧ aead = cipher.aeadId ∧ enc = []))
        Alert.illegalParameter

/-! ## Encrypted ClientHello -/

/-- Set up the HPKE receiver in the first flight. -/
def serverCreateOpener (kdf aead : ℕ) (configId : UInt8) (enc : Bytes) : Proc Unit := do
  modifyEch fun ech => { ech with state := .offered }
  let tls ← getTls
  runIf tls.ctx.echCreateOpener do
    let answer ← ask fun env tick =>
      env.echCreateOpener tick configId kdf aead enc echInfoPrefix
    match answer with
    | none => modifyEch fun ech => { ech with aead := none }
    | some (kem, cipher, aead) => modifyEch fun ech => { ech with
        kem := some kem, cipher := some cipher, aead := some aead, configId := configId }

/-- Continue with the inner hello of an opened payload. -/
def serverAdoptInnerHello (encoded : Bytes) (message : Bytes) (outerCh : ClientHello)
    (isSecondFlight : Bool) (properties : Option HandshakeProperties) :
    Proc (Bytes × ClientHello) := do
  modifyEch fun ech => { ech with state := .accepted }
  let outer := Src.ofMessage message (handshakeHeaderSize + outerCh.firstExtensionAt)
  let ((), inner) ← withBuffer [] (rebuildChInner encoded outerCh outer)
  let ch ← decodeClientHello inner properties
  let tls ← getTls
  checkClientHelloConstraints ch
    (if isSecondFlight then some tls.ech.innerClientRandom else none) true inner
  runIf (!isSecondFlight)
    (modifyEch fun ech => { ech with innerClientRandom := ch.randomBytes })
  return (inner, ch)

/-- Open the payload of an outer hello. A payload that does not open is ignored in the first
flight. A payload shorter than a tag makes the library ask for more memory than there is. -/
def serverOpenEch (aead : AeadContext) (payload : Bytes) (payloadOff : ℕ) (message : Bytes)
    (ch : ClientHello) (isSecondFlight : Bool) (properties : Option HandshakeProperties) :
    Proc (Bytes × ClientHello) := do
  throwIf (payload.length < aead.algo.tagSize) Error.noMemory
  allocate
  allocate
  let aad := (overwrite message payloadOff (zeros payload.length)).drop handshakeHeaderSize
  match aead.decrypt payload (if isSecondFlight then 1 else 0) aad with
  | some encoded => serverAdoptInnerHello encoded message ch isSecondFlight properties
  | none =>
    throwIf isSecondFlight Alert.decryptError
    modifyEch fun ech => { ech with aead := none }
    return (message, ch)

/-- Handle the ECH extension: the message and hello to continue with. -/
def serverHandleEch (message : Bytes) (ch : ClientHello) (isSecondFlight : Bool)
    (properties : Option HandshakeProperties) : Proc (Bytes × ClientHello) := do
  match ch.ech with
  | none =>
    let tls ← getTls
    runIf (tls.ech.state ≠ .none) do
      assert isSecondFlight
      throwCode Alert.illegalParameter
    return (message, ch)
  | some .inner => throwCode Alert.illegalParameter
  | some (.outer kdf aead configId enc payload payloadOff) =>
    runIf (!isSecondFlight) (serverCreateOpener kdf aead configId enc)
    let tls ← getTls
    match tls.ech.aead with
    | none => return (message, ch)
    | some aead => serverOpenEch aead payload payloadOff message ch isSecondFlight properties

/-! ## Negotiation -/

/-- The server can present the type of certificate that the client accepts. -/
def certificateTypeExists (types : List UInt8) (desired : UInt8) : Bool :=
  (desired = 0 && types = []) || types.contains desired

/-- Let the application see a first hello; compare a second one with the first. -/
def serverAdmitHello (message : Bytes) (ch : ClientHello) (isSecondFlight : Bool) :
    Proc Unit := do
  if !isSecondFlight then
    runIf (ch.legacySessionId ≠ [])
      (modifyTls fun tls => { tls with sendChangeCipherSpec := true })
    callOnClientHello (helloParameters ch message)
    let tls ← getTls
    throwIf (!certificateTypeExists ch.serverCertificateTypes
      (if tls.ctx.useRawPublicKeys then 2 else 0)) Alert.unsupportedCertificate
  else
    throwIf ch.earlyDataIndication Alert.decodeError
    let tls ← getTls
    whenSome tls.serverName fun name =>
      throwIf (ch.serverName.getD [] ≠ name) Alert.handshakeFailure

/-- Select the cipher suite and start the key schedule, or check that the selection stands. -/
def serverSelectCipher (ch : ClientHello) (isSecondFlight : Bool) : Proc Unit := do
  let tls ← getTls
  let cs ← selectCipher tls.ctx ch.cipherSuites
  if !isSecondFlight then
    modifyTls fun tls => { tls with cipherSuite := some cs }
    let sched ← keyScheduleNew (some cs) none false
    setKeySchedule sched
  else throwIf (tls.cipherSuite ≠ some cs) Alert.handshakeFailure

/-- Select a key share, if both sides exchange keys. -/
def serverSelectKeyShare (ch : ClientHello) : Proc (Option (KeyExchangeAlgorithm × Bytes)) := do
  let tls ← getTls
  match ch.keyShares, tls.ctx.keyExchanges with
  | some keyShares, some algos => selectKeyShare algos keyShares
  | _, _ => return none

/-- How the handshake is keyed. -/
inductive HandshakeMode where
  | full
  | psk
  | pskDhe
  deriving DecidableEq

/-- Look for a pre-shared key if the hello and the configuration allow one. -/
def serverSelectPsk (message : Bytes) (ch : ClientHello) (isSecondFlight : Bool) :
    Proc (Option SelectedPsk) := do
  let tls ← getTls
  match ch.pskHashEnd with
  | none => return none
  | some hashEnd =>
    if (pskKeModePsk ∈ ch.pskKeModes ∨ pskKeModePskDhe ∈ ch.pskKeModes) ∧
        !tls.ctx.requireClientAuthentication ∧
        ((!isSecondFlight && tls.ctx.encryptTicket) || tls.ctx.preSharedKey.isSome) then
      tryPskHandshake ch message hashEnd isSecondFlight
    else return none

/-- Settle the mode of the handshake and bring the key schedule up to the hello. -/
def serverSettleMode (message : Bytes) (ch : ClientHello) (psk : Option SelectedPsk)
    (isSecondFlight : Bool) (properties : Option HandshakeProperties) : Proc HandshakeMode := do
  let tls ← getTls
  match psk.filter fun _ => !tls.ctx.requireClientAuthentication with
  | none =>
    keyScheduleUpdateHash message false
    emitEvent (.absorbHello message none)
    runIf (!isSecondFlight) do
      let sched ← getKeySchedule
      assert (sched.generation = 0)
      let _ ← attemptCode (keyScheduleExtract none)
    whenSome properties fun _ =>
      modifyReport fun report => { report with selectedPskBinder := [] }
    return .full
  | some psk =>
    keyScheduleUpdateHash (message.drop (ch.pskHashEnd.getD 0)) false
    emitEvent (.absorbHello message none)
    assert (pskKeModePsk ∈ ch.pskKeModes ∨ pskKeModePskDhe ∈ ch.pskKeModes)
    modifyTls fun tls => { tls with isPskHandshake := true }
    whenSome properties fun _ =>
      modifyReport fun report => { report with selectedPskBinder := psk.binder.data }
    return if pskKeModePsk ∈ ch.pskKeModes then .psk else .pskDhe

/-- The number of session tickets sent when the context sets no limit. -/
abbrev defaultMaxTicketsToServe : ℕ := 4

/-- How many session tickets a hello asks for, within the limit of the context. -/
def ticketsToSend (tls : Tls) (ch : ClientHello) : ℕ :=
  let wanted := if ch.ticketRequestNewSessionCount = 0 then 1
    else if tls.isPskHandshake then ch.ticketRequestResumptionCount.toNat
    else ch.ticketRequestNewSessionCount.toNat
  let limit := tls.ctx.ticketRequestsMaxCount.toNat
  if ch.pskKeModes ≠ [] ∧ tls.ctx.ticketLifetime ≠ 0 then
    min wanted (if limit = 0 then defaultMaxTicketsToServe else limit)
  else 0

/-- Determine how many session tickets will be sent. -/
def serverCountTickets (ch : ClientHello) : Proc Unit :=
  modifyTls fun tls => { tls with numTicketsToSend := ticketsToSend tls ch }

/-- Install the key for early data, if it is accepted. -/
def serverAcceptEarlyData (psk : Option SelectedPsk) : Proc Unit := do
  let tls ← getTls
  runIf (psk.any (fun psk => psk.acceptEarlyData && psk.index = 0) ∧
      tls.ctx.maxEarlyDataSize ≠ 0) do
    allocate
    modifyTls fun tls => { tls with pendingHandshakeSecret := some [] }
    deriveExporterSecret true
    setupTrafficProtection false (some .clientEarlyTraffic) 1 0 false
    let tls ← getTls
    emitEvent (.acceptEarlyData tls.dec.aead)

/-- Run the key exchange: the algorithm, the server's public key, and the shared secret. -/
def serverExchangeKeys (ch : ClientHello) (mode : HandshakeMode)
    (keyShare : Option (KeyExchangeAlgorithm × Bytes)) :
    Proc (Option (KeyExchangeAlgorithm × Bytes × Bytes)) := do
  if mode = .psk then return none
  match keyShare with
  | none => throwCode (if ch.keyShares.isSome then Alert.handshakeFailure
      else Alert.missingExtension)
  | some (algo, peerkey) =>
    let answer ← ask fun env tick => env.keyExchangeExchange tick algo peerkey
    let (pubkey, secret) ← ofAnswer answer
    modifyTls fun tls => { tls with keyShare := some algo }
    emitEvent (.exchangeKeys peerkey secret)
    return some (algo, pubkey, secret)

/-! ## The server's flight -/

/-- A fresh random value; with ECH its last octets are left to the confirmation. -/
def serverRandom : Proc (Bytes × Option ℕ) := do
  let off ← sendbufOff
  let random ← randomBytes helloRandomSize
  let tls ← getTls
  if tls.ech.state = .accepted then
    return (random.take (helloRandomSize - 8) ++ zeros 8, some (off + helloRandomSize - 8))
  else return (random, none)

/-- Send the ServerHello. -/
def serverSendHello (emitter : Emitter) (ch : ClientHello) (mode : HandshakeMode)
    (exchanged : Option (KeyExchangeAlgorithm × Bytes × Bytes)) (psk : Option SelectedPsk) :
    Proc Unit := do
  let sh ← emitServerHello emitter ch .echAcceptConfirmation serverRandom do
    whenSome exchanged fun (algo, pubkey, _) =>
      bufferPushExtension ExtensionType.keyShare (pushKeyShareEntry algo.id pubkey)
    runIf (mode ≠ .full) (whenSome psk fun psk =>
      bufferPushExtension ExtensionType.preSharedKey (bufferPushUInt 2 psk.index))
    return none
  emitEvent (.sent sh)

/-- Derive the handshake secret and install the handshake keys. -/
def serverDeriveHandshakeKeys (ch : ClientHello) (ecdhSecret : Option Bytes) : Proc Unit := do
  let sched ← getKeySchedule
  assert (sched.generation = 1)
  let _ ← attemptCode (keyScheduleExtract ecdhSecret)
  noteHandshakeSecret sched ecdhSecret
  setupTrafficProtection true (some .serverHandshakeTraffic) 2 0 false
  let tls ← getTls
  if tls.pendingHandshakeSecret.isSome then
    let secret ← deriveSecret .clientHandshakeTraffic
    modifyTls fun tls => { tls with pendingHandshakeSecret := some secret }
    runIf tls.ctx.updateTrafficKey do
      let ret ← ask fun env tick => env.updateTrafficKey tick false 2 secret
      checkCode ret
  else
    setupTrafficProtection false (some .clientHandshakeTraffic) 2 0 false
    runIf ch.earlyDataIndication rejectEarlyData

/-- Send EncryptedExtensions. -/
def sendEncryptedExtensions (emitter : Emitter) (ch : ClientHello)
    (properties : Option HandshakeProperties) : Proc Unit :=
  pushMessage emitter true HandshakeType.encryptedExtensions (bufferPushBlock 2 do
    let tls ← getTls
    runIf tls.serverName.isSome (bufferPushExtension ExtensionType.serverName (pure ()))
    runIf tls.ctx.useRawPublicKeys
      (bufferPushExtension ExtensionType.serverCertificateType (bufferPushv [2]))
    whenSome tls.negotiatedProtocol fun protocol =>
      bufferPushExtension ExtensionType.alpn
        (bufferPushBlock 2 (bufferPushBlock 1 (bufferPushv protocol)))
    runIf tls.pendingHandshakeSecret.isSome
      (bufferPushExtension ExtensionType.earlyData (pure ()))
    runIf (tls.ech.state = .offered ∧ tls.ctx.echCreateOpener ∧ tls.ctx.echRetryConfigs ≠ [])
      (bufferPushExtension ExtensionType.encryptedClientHello
        (bufferPushv tls.ctx.echRetryConfigs))
    runIf (ch.ticketRequestNewSessionCount ≠ 0 ∧ tls.numTicketsToSend ≠ 0)
      (bufferPushExtension ExtensionType.ticketRequest
        (bufferPushv [UInt8.ofNat tls.numTicketsToSend]))
    pushAdditionalExtensions properties)

/-- Ask the client for a certificate. -/
def sendCertificateRequest (emitter : Emitter) : Proc Unit :=
  pushMessage emitter true HandshakeType.certificateRequest do
    let tls ← getTls
    bufferPushv [0]
    bufferPushBlock 2 do
      bufferPushExtension ExtensionType.signatureAlgorithms
        (pushSignatureAlgorithms tls.ctx.verifyCertificate)
      runIf (tls.ctx.clientCaNames ≠ [])
        (bufferPushExtension ExtensionType.certificateAuthorities (bufferPushBlock 2
          (Procedure.forEach (fun name => bufferPushBlock 2 (bufferPushv name))
            tls.ctx.clientCaNames)))

/-- Send the server's flight in answer to a hello that is accepted. -/
def serverAnswerHello (emitter : Emitter) (message : Bytes) (ch : ClientHello)
    (keyShare : Option (KeyExchangeAlgorithm × Bytes)) (isSecondFlight : Bool)
    (properties : Option HandshakeProperties) : Proc Progress := do
  reportUnknownExtensions properties ch.unknownExtensions
  let psk ← serverSelectPsk message ch isSecondFlight
  let tls ← getTls
  throwIf (tls.ctx.preSharedKey.isSome && psk.isNone) Alert.unknownPskIdentity
  let mode ← serverSettleMode message ch psk isSecondFlight properties
  serverCountTickets ch
  serverAcceptEarlyData psk
  let exchanged ← serverExchangeKeys ch mode keyShare
  serverSendHello emitter ch mode exchanged psk
  modifyEch (clearEch · true)
  pushChangeCipherSpec emitter
  serverDeriveHandshakeKeys ch (exchanged.map fun (_, _, secret) => secret)
  sendEncryptedExtensions emitter ch properties
  if mode = .full then
    let tls ← getTls
    runIf tls.ctx.requireClientAuthentication (sendCertificateRequest emitter)
    sendCertificate emitter ch.signatureAlgorithms [] ch.statusRequest ch.certCompressionAlgos
    serverFinishHandshake emitter true (some ch.signatureAlgorithms)
  else serverFinishHandshake emitter false none

/-- The server asks for another hello: it cannot use the key shares, or is told to ask. -/
def serverNeedsRetry (tls : Tls) (ch : ClientHello)
    (keyShare : Option (KeyExchangeAlgorithm × Bytes))
    (properties : Option HandshakeProperties) : Bool :=
  ch.keyShares.isSome && tls.ctx.keyExchanges.isSome &&
    (keyShare.isNone || properties.any HandshakeProperties.enforceRetry)

/-- Ask for another hello, accept a cookie in place of a first flight, or answer the hello. -/
def serverDecideRetry (emitter : Emitter) (message : Bytes) (ch : ClientHello)
    (keyShare : Option (KeyExchangeAlgorithm × Bytes)) (isSecondFlight : Bool)
    (properties : Option HandshakeProperties) : Proc Progress := do
  let tls ← getTls
  match properties, ch.cookie, keyShare with
  | some p, some cookie, some (algo, _) =>
    if isSecondFlight then serverAnswerHello emitter message ch keyShare true properties
    else do
      serverAcceptCookie emitter p ch cookie algo
      serverAnswerHello emitter message ch keyShare true properties
  | _, _, _ =>
    if !isSecondFlight && serverNeedsRetry tls ch keyShare properties then
      serverSendRetry emitter properties message ch keyShare.isNone
    else serverAnswerHello emitter message ch keyShare isSecondFlight properties

/-- A hello without the key-exchange modes that the context rules out. -/
def allowedPskKeModes (ctx : Context) (ch : ClientHello) : ClientHello :=
  if ctx.requireDheOnPsk then
    { ch with pskKeModes := ch.pskKeModes.filter (· ≠ pskKeModePsk) }
  else ch

/-- The handling of a hello up to the decision on a retry: the message and hello to continue with,
which may be those of an inner hello, and the selected key share. -/
def serverReadHello (message : Bytes) (properties : Option HandshakeProperties) :
    Proc (Bytes × ClientHello × Option (KeyExchangeAlgorithm × Bytes)) := do
  let tls ← getTls
  let isSecondFlight := tls.state = .serverExpectSecondClientHello
  allocate
  let ch ← decodeClientHello message properties
  checkClientHelloConstraints ch (if isSecondFlight then some tls.clientRandom else none) false
    message
  (if isSecondFlight then checkSecondEch ch
    else modifyTls fun tls => { tls with clientRandom := ch.randomBytes })
  let (message, ch) ← serverHandleEch message ch isSecondFlight properties
  let tls ← getTls
  let ch := allowedPskKeModes tls.ctx ch
  serverAdmitHello message ch isSecondFlight
  serverSelectCipher ch isSecondFlight
  let keyShare ← serverSelectKeyShare ch
  return (message, ch, keyShare)

/-- Handle a ClientHello. -/
def serverHandleHello (emitter : Emitter) (message : Bytes)
    (properties : Option HandshakeProperties) : Proc Progress := do
  let tls ← getTls
  let (message, ch, keyShare) ← serverReadHello message properties
  serverDecideRetry emitter message ch keyShare (tls.state = .serverExpectSecondClientHello)
    properties

end Picotls
