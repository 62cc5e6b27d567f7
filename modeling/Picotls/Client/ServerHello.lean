import Picotls.Client.SendClientHello

/-!
# The client's handling of ServerHello and HelloRetryRequest

Both messages share one format and one handler. The handler selects the cipher suite in the key
schedule, decides whether the server accepted ECH, and then either answers a HelloRetryRequest
with a second ClientHello or derives the handshake secrets.
-/

namespace Picotls

open Foundation

variable [Crypto]

/-- A decoded ServerHello or HelloRetryRequest. -/
structure ServerHello where
  isRetryRequest : Bool
  legacySessionId : Bytes
  peerkey : Option Bytes := none
  selectedGroup : ℕ := uint16Max
  cookie : Option Bytes := none
  /-- The offset of the ECH confirmation in a HelloRetryRequest. -/
  echOff : Option ℕ := none

/-- What the extensions of a ServerHello have contributed so far. -/
structure ServerHelloExtensions where
  sh : ServerHello
  foundVersion : ℕ := uint16Max
  selectedPskIdentity : ℕ := uint16Max

/-- The key-share extension of a ServerHello or HelloRetryRequest. -/
def decodeServerKeyShare (acc : ServerHelloExtensions) (block : Src) :
    Proc (ServerHelloExtensions × Src) := do
  let tls ← getTls
  throwIf tls.ctx.keyExchanges.isNone Alert.handshakeFailure
  if acc.sh.isRetryRequest then
    let (group, rest) ← block.decodeUInt 2
    return ({ acc with sh := { acc.sh with selectedGroup := group } }, rest)
  else
    let (group, key, rest) ← decodeKeyShareEntry block
    throwIf (rest.data ≠ []) Alert.decodeError
    throwIf ((tls.keyShare.map KeyExchangeAlgorithm.id) ≠ some group) Alert.illegalParameter
    return ({ acc with sh := { acc.sh with peerkey := some key } }, rest)

/-- One extension of a ServerHello or HelloRetryRequest. -/
def decodeServerHelloExtension (acc : ServerHelloExtensions) (exttype : ℕ) (block : Src) :
    Proc (ServerHelloExtensions × Src) := do
  notifyExtension HandshakeType.serverHello exttype block.data
  if exttype = ExtensionType.supportedVersions then
    let (version, rest) ← block.decodeUInt 2
    return ({ acc with foundVersion := version }, rest)
  else if exttype = ExtensionType.keyShare then decodeServerKeyShare acc block
  else if exttype = ExtensionType.cookie then
    assert acc.sh.isRetryRequest
    let cookie ← block.decodeBlock 2
    throwIf (cookie.data = []) Alert.decodeError
    return ({ acc with sh := { acc.sh with cookie := some cookie.data } }, ⟨0, []⟩)
  else if exttype = ExtensionType.preSharedKey then
    assert (!acc.sh.isRetryRequest)
    let (identity, rest) ← block.decodeUInt 2
    return ({ acc with selectedPskIdentity := identity }, rest)
  else if exttype = ExtensionType.encryptedClientHello then
    assert acc.sh.isRetryRequest
    let tls ← getTls
    throwIf (tls.ech.state = .none) Alert.unsupportedExtension
    throwIf (block.data.length ≠ 8) Alert.decodeError
    return ({ acc with sh := { acc.sh with echOff := some block.off } }, ⟨0, []⟩)
  else return (acc, ⟨0, []⟩)

/-- Check the pre-shared key and the key share that a ServerHello selects. -/
def checkServerSelection (ext : ServerHelloExtensions) : Proc Unit := do
  runIf (ext.selectedPskIdentity ≠ uint16Max) do
    let tls ← getTls
    throwIf (!tls.offeredPsk) Alert.illegalParameter
    throwIf (ext.selectedPskIdentity ≠ 0) Alert.illegalParameter
    modifyTls fun tls => { tls with isPskHandshake := true }
  let tls ← getTls
  throwIf (ext.sh.peerkey.isNone && !tls.isPskHandshake) Alert.illegalParameter

/-- Decode a ServerHello or HelloRetryRequest, recording the cipher suite it names. -/
def decodeServerHello (message : Bytes) : Proc ServerHello := do
  let (_, src) ← Src.decodeBytes 2 (.ofMessage message handshakeHeaderSize)
  let (random, src) ← src.decodeBytes helloRandomSize
  let (sessionId, src) ← src.decodeOpenBlock 1
  throwIf (32 < sessionId.data.length) Alert.decodeError
  let (csid, src) ← src.decodeUInt 2
  let tls ← getTls
  let suite := findCipherSuite (some tls.ctx.cipherSuites) csid
  modifyTls fun tls => { tls with cipherSuite := suite }
  throwIf suite.isNone Alert.illegalParameter
  let (method, src) ← src.decode8
  throwIf (method ≠ 0) Alert.illegalParameter
  let isRetryRequest := random = helloRetryRandom
  let ext ← decodeExtensions (if isRetryRequest then .pseudoHrr else .serverHello) src
    { sh := { isRetryRequest := isRetryRequest, legacySessionId := sessionId.data } }
    decodeServerHelloExtension
  throwIf (ext.foundVersion ≠ protocolVersionTls13) Alert.illegalParameter
  runIf (¬ isRetryRequest) (checkServerSelection ext)
  return ext.sh

/-- Stop sending early data; the second ClientHello goes out in cleartext. -/
def abandonEarlyData : Proc Unit := do
  let tls ← getTls
  runIf tls.usingEarlyData do
    runIf (!tls.ctx.updateTrafficKey) do
      assert tls.enc.aead.isSome
      modifyProtection true fun tp => { tp with aead := none }
    modifyTls fun tls => { tls with usingEarlyData := false }

/-- Switch to the group that a HelloRetryRequest names; without one the key share is kept. -/
def adoptSelectedGroup (selectedGroup : ℕ) : Proc Unit := do
  let tls ← getTls
  if selectedGroup ≠ uint16Max then
    let algos ← deref tls.ctx.keyExchanges
    match algos.find? (·.id = selectedGroup) with
    | none => throwCode Alert.illegalParameter
    | some algo => modifyTls fun tls => { tls with keyShare := some algo }
  else throwIf tls.keyShare.isNone Alert.illegalParameter

/-- Answer a HelloRetryRequest. -/
def handleHelloRetryRequest (emitter : Emitter) (sh : ServerHello)
    (properties : Option HandshakeProperties) : Proc Progress := do
  modifyTls fun tls => { tls with keyShareCtx := none }
  abandonEarlyData
  adoptSelectedGroup sh.selectedGroup
  sendClientHello emitter properties (some sh.cookie)
  return .inProgress

/-- Whether a hello carries the right confirmation at an offset. -/
def echConfirmationMatches (message : Bytes) (confirmHashOff : ℕ) (label : Label) :
    Proc Bool := do
  let tls ← getTls
  let expected ← echCalcConfirmation tls.ech.innerClientRandom label
    (overwrite message confirmHashOff (zeros 8))
  return (message.drop confirmHashOff).take 8 = expected

/-- Decide whether the server accepted ECH. Offset zero stands for a HelloRetryRequest without a
confirmation. On rejection the outer hello is adopted for the rest of the handshake. -/
def clientEchSelectHello (message : Bytes) (confirmHashOff : ℕ) (label : Label) : Proc Unit := do
  let tls ← getTls
  let accepted ← (if confirmHashOff ≠ 0 then echConfirmationMatches message confirmHashOff label
    else return false)
  emitEvent (.decideEch accepted label tls.ech.innerClientRandom
    (tls.keySchedule.bind (·.hashes.head?)) message)
  if accepted then modifyEch fun ech => { ech with state := .accepted }
  else
    throwIf (confirmHashOff ≠ 0 ∧ tls.ech.state = .accepted) Alert.illegalParameter
    modifyEch fun ech => { ech with aead := none }
    keyScheduleSelectOuter

/-- Take a HelloRetryRequest into the key schedule, and settle the offer of ECH. -/
def clientAbsorbRetry (message : Bytes) (sh : ServerHello) : Proc Unit := do
  let tls ← getTls
  let suite ← deref tls.cipherSuite
  keyScheduleSelectCipher suite false (tls.ctx.preSharedKey.map PreSharedKey.secret)
  keyScheduleTransformPostCh1hash
  runIf tls.ech.aead.isSome do
    let off := if tls.ech.state = .grease then 0 else sh.echOff.getD 0
    clientEchSelectHello message off .hrrEchAcceptConfirmation
  absorbMessage message

/-- The part of the handler for a HelloRetryRequest. -/
def clientHandleRetry (emitter : Emitter) (message : Bytes) (sh : ServerHello)
    (properties : Option HandshakeProperties) : Proc Progress := do
  clientAbsorbRetry message sh
  handleHelloRetryRequest emitter sh properties

/-- Drop the transcript of the outer hello, now that the hellos are settled. -/
def dropOuterTranscript : Proc Unit := do
  let _ ← firstHash
  modifyFirstHash fun slot => { slot with ctxOuter := none }

/-- Complete the key exchange, if the server sent a key share. -/
def clientExchangeKeys : Option Bytes → Proc (Option Bytes)
  | none => pure none
  | some peerkey => do
    let tls ← getTls
    let keyShareCtx ← deref tls.keyShareCtx
    let answer ← ask fun env tick =>
      env.keyExchangeOnExchange tick keyShareCtx.algo keyShareCtx.privkey peerkey
    modifyTls fun tls => { tls with keyShareCtx := none }
    let secret ← ofAnswer answer
    emitEvent (.exchangeKeys peerkey secret)
    return some secret

/-- Derive the handshake secret and the handshake traffic keys. -/
def clientDeriveHandshakeKeys (ecdhSecret : Option Bytes) : Proc Unit := do
  let tls ← getTls
  let slot ← firstHash
  let sched ← getKeySchedule
  emitEvent (.acceptServerHello tls.isPskHandshake slot.algo sched.secret)
  keyScheduleExtract ecdhSecret
  noteHandshakeSecret sched ecdhSecret
  setupTrafficProtection false (some .serverHandshakeTraffic) 2 0 false
  let tls ← getTls
  if tls.usingEarlyData then
    allocate
    let secret ← deriveSecret .clientHandshakeTraffic
    modifyTls fun tls => { tls with pendingHandshakeSecret := some secret }
    runIf tls.ctx.updateTrafficKey do
      let ret ← ask fun env tick => env.updateTrafficKey tick true 2 secret
      checkCode ret
  else setupTrafficProtection true (some .clientHandshakeTraffic) 2 0 false

/-- The part of the handler for a ServerHello proper. -/
def clientHandleServerHello (message : Bytes) (sh : ServerHello) : Proc Progress := do
  let tls ← getTls
  let suite ← deref tls.cipherSuite
  keyScheduleSelectCipher suite (tls.offeredPsk && !tls.isPskHandshake) none
  runIf tls.ech.aead.isSome do
    let off := if tls.ech.state = .grease then 0 else handshakeHeaderSize + 2 + helloRandomSize - 8
    clientEchSelectHello message off .echAcceptConfirmation
  modifyEch (clearEch · false)
  dropOuterTranscript
  throwIf (tls.ctx.preSharedKey.isSome && !tls.isPskHandshake) Alert.handshakeFailure
  absorbMessage message
  let ecdhSecret ← clientExchangeKeys sh.peerkey
  clientDeriveHandshakeKeys ecdhSecret
  modifyTls fun tls => { tls with state := .clientExpectEncryptedExtensions }
  return .inProgress

/-- Read a hello of the server, which must repeat the session identifier. -/
def clientReadHello (message : Bytes) : Proc ServerHello := do
  let sh ← decodeServerHello message
  let tls ← getTls
  throwIf (sh.legacySessionId ≠ tls.legacySessionId) Alert.illegalParameter
  return sh

/-- Handle a ServerHello or HelloRetryRequest. -/
def clientHandleHello (emitter : Emitter) (message : Bytes)
    (properties : Option HandshakeProperties) : Proc Progress := do
  emitEvent (.hello message)
  let sh ← clientReadHello message
  if sh.isRetryRequest then clientHandleRetry emitter message sh properties
  else clientHandleServerHello message sh

end Picotls
