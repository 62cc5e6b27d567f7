import Picotls.Record
import Picotls.Server.Psk

/-!
# ServerHello and HelloRetryRequest

Both messages are written in the same way and enter the transcript after the ECH confirmation has
been filled in. A HelloRetryRequest is sent in one of two ways: the server keeps its state, or it
puts the hash of the first hello into a signed cookie and forgets it.
-/

namespace Picotls

open Foundation

variable [Crypto]

/-! ## Writing the message -/

/-- The body of a ServerHello or HelloRetryRequest; where the message starts, and where the ECH
confirmation belongs according to the writers of the random value and of the extensions. -/
def pushServerHelloBody (ch : ClientHello) (fillRandom : Proc (Bytes × Option ℕ))
    (extensions : Proc (Option ℕ)) : Proc (ℕ × Option ℕ) := do
  let bodyStart ← sendbufOff
  bufferPushUInt 2 0x0303
  allocate
  let (random, confirmInRandom) ← fillRandom
  appendReserved random
  bufferPushBlock 1 (bufferPushv ch.legacySessionId)
  let tls ← getTls
  let suite ← deref tls.cipherSuite
  bufferPushUInt 2 suite.id
  bufferPushv [0]
  let confirmInExtensions ← bufferPushBlock 2 do
    bufferPushExtension ExtensionType.supportedVersions (bufferPushUInt 2 ch.selectedVersion)
    extensions
  return (bodyStart - handshakeHeaderSize, confirmInRandom <|> confirmInExtensions)

/-- Write a ServerHello or HelloRetryRequest and absorb it. -/
def emitServerHello (emitter : Emitter) (ch : ClientHello) (label : Label)
    (fillRandom : Proc (Bytes × Option ℕ)) (extensions : Proc (Option ℕ)) : Proc Bytes := do
  let ((shStart, confirmOff), _) ← writeMessage emitter false HandshakeType.serverHello
    (pushServerHelloBody ch fillRandom extensions)
  whenSome confirmOff fun off => do
    let tls ← getTls
    let buf ← getSendbuf
    let confirmation ← echCalcConfirmation tls.ech.innerClientRandom label (buf.drop shStart)
    modifySendbuf fun buf => overwrite buf off confirmation
  let buf ← getSendbuf
  keyScheduleUpdateHash (buf.drop shStart) false
  return buf.drop shStart

/-- The extensions of a HelloRetryRequest after the version. -/
def pushRetryExtensions (negotiatedGroup : Option KeyExchangeAlgorithm)
    (additionalExtensions : Proc (Option ℕ)) : Proc (Option ℕ) := do
  whenSome negotiatedGroup fun algo =>
    bufferPushExtension ExtensionType.keyShare (bufferPushUInt 2 algo.id)
  additionalExtensions

/-- Write a HelloRetryRequest. -/
def emitHelloRetryRequest (emitter : Emitter) (ch : ClientHello)
    (negotiatedGroup : Option KeyExchangeAlgorithm) (additionalExtensions : Proc (Option ℕ)) :
    Proc Bytes :=
  emitServerHello emitter ch .hrrEchAcceptConfirmation (pure (helloRetryRandom, none))
    (pushRetryExtensions negotiatedGroup additionalExtensions)

/-! ## Cookies -/

/-- A block of the signed data: its length in one octet, and the octets. -/
def cookieBlock (octets : Bytes) : Proc Bytes := do
  assert (octets.length < 255)
  return [UInt8.ofNat octets.length] ++ octets

/-- The hash under which cookies are signed, that of the first configured suite. -/
def cookieHash : Proc HashAlgorithm := do
  let tls ← getTls
  let suite ← deref tls.ctx.cipherSuites.head?
  return suite.hash

/-- The signature of a cookie. -/
def calcCookieSignature (properties : HandshakeProperties)
    (negotiatedGroup : Option KeyExchangeAlgorithm) (tbs : Bytes) : Proc Bytes := do
  let tls ← getTls
  let algo ← cookieHash
  let key ← deref properties.cookieKey
  allocate
  let random ← cookieBlock tls.clientRandom
  let name ← cookieBlock (tls.serverName.getD [])
  let suite ← deref tls.cipherSuite
  let additional ← cookieBlock properties.cookieAdditionalData
  let signed ← cookieBlock tbs
  return hmac algo (key.take algo.digestSize) (random ++ name ++ toBE 2 suite.id ++
    toBE 2 ((negotiatedGroup.map KeyExchangeAlgorithm.id).getD 0) ++ additional ++ signed)

/-- Write the HelloRetryRequest of a cookie once more for the transcript, and take it back. -/
def rebuildRetry (emitter : Emitter) (ch : ClientHello) (cookie : ClientHelloCookie)
    (keyShare : KeyExchangeAlgorithm) : Proc Unit := do
  let hrrStart ← sendbufOff
  let hrr ← emitHelloRetryRequest emitter ch
    (if cookie.sentKeyShare then some keyShare else none) do
      bufferPushExtension ExtensionType.cookie (bufferPushv cookie.all)
      return none
  emitEvent (.absorbCookie cookie.ch1Hash hrr)
  modifySendbuf (·.take hrrStart)

/-- Restore the transcript up to the HelloRetryRequest from a cookie. -/
def restoreFromCookie (emitter : Emitter) (ch : ClientHello) (cookie : ClientHelloCookie)
    (keyShare : KeyExchangeAlgorithm) : Proc Unit := do
  keyScheduleUpdateCh1hashPrefix
  keyScheduleUpdateHash cookie.ch1Hash false
  let tls ← getTls
  let _ ← attemptCode (keyScheduleExtract (tls.ctx.preSharedKey.map PreSharedKey.secret))
  rebuildRetry emitter ch cookie keyShare

/-- Check the cookie of a client and restore the transcript. -/
def serverAcceptCookie (emitter : Emitter) (properties : HandshakeProperties) (ch : ClientHello)
    (cookie : ClientHelloCookie) (keyShare : KeyExchangeAlgorithm) : Proc Unit := do
  let signature ← calcCookieSignature properties (some keyShare) cookie.tbs
  throwIf (cookie.signature ≠ signature) Alert.handshakeFailure
  restoreFromCookie emitter ch cookie keyShare

/-- The cookie extension of a HelloRetryRequest. -/
def pushCookieExtension (properties : HandshakeProperties)
    (keyShareMissing : Bool) (negotiatedGroup : KeyExchangeAlgorithm) : Proc Unit :=
  bufferPushExtension ExtensionType.cookie (bufferPushBlock 2 do
    let tbsStart ← sendbufOff
    bufferPushBlock 2 do
      bufferPushBlock 1 do
        allocate
        let ch1Hash ← keyScheduleExtractCh1hash
        appendReserved ch1Hash
      bufferPushv [if keyShareMissing then 1 else 0]
    let buf ← getSendbuf
    bufferPushBlock 1 do
      allocate
      let signature ← calcCookieSignature properties (some negotiatedGroup) (buf.drop tbsStart)
      appendReserved signature)

/-! ## Sending a HelloRetryRequest -/

/-- The room for the ECH confirmation; its offset. -/
def pushEchConfirmationRoom : Proc ℕ :=
  bufferPushExtension ExtensionType.encryptedClientHello do
    allocate
    let off ← sendbufOff
    appendReserved (zeros 8)
    return off

/-- Reject the early data that a hello announces: from now on its records are passed over. -/
def rejectEarlyData : Proc Unit := do
  modifyTls fun tls => { tls with earlyDataSkippedBytes := 0 }
  emitEvent .rejectEarlyData

/-- Write a HelloRetryRequest with a cookie or without one: the server keeps the state of the
connection, or leaves it to the client. -/
def serverEmitRetry (emitter : Emitter) (retryUsesCookie : Option HandshakeProperties)
    (ch : ClientHello) (keyShareMissing : Bool) (negotiatedGroup : KeyExchangeAlgorithm) :
    Proc Progress := do
  let tls ← getTls
  runIf retryUsesCookie.isNone do
    keyScheduleTransformPostCh1hash
    let _ ← attemptCode (keyScheduleExtract (tls.ctx.preSharedKey.map PreSharedKey.secret))
  let hrr ← emitHelloRetryRequest emitter ch
    (if keyShareMissing then some negotiatedGroup else none) do
      let confirmOff ← (if tls.ech.state = .accepted then some <$> pushEchConfirmationRoom
        else pure none)
      whenSome retryUsesCookie fun properties =>
        pushCookieExtension properties keyShareMissing negotiatedGroup
      return confirmOff
  emitEvent (.sent hrr)
  if retryUsesCookie.isSome then
    pushChangeCipherSpec emitter
    throwCode Error.statelessRetry
  else
    modifyTls fun tls => { tls with state := .serverExpectSecondClientHello }
    runIf ch.earlyDataIndication rejectEarlyData
    return .inProgress

/-- Send a HelloRetryRequest; a cookie is not used once an inner hello was accepted. -/
def serverSendRetry (emitter : Emitter) (properties : Option HandshakeProperties)
    (message : Bytes) (ch : ClientHello) (keyShareMissing : Bool) : Proc Progress := do
  let tls ← getTls
  throwIf ch.negotiatedGroups.isNone Alert.missingExtension
  let negotiatedGroup ← selectNegotiatedGroup (tls.ctx.keyExchanges.getD [])
    (ch.negotiatedGroups.getD [])
  keyScheduleUpdateHash message false
  emitEvent (.absorbHello message none)
  let sched ← getKeySchedule
  assert (sched.generation = 0)
  serverEmitRetry emitter
    (properties.filter fun p => p.retryUsesCookie && tls.ech.state ≠ .accepted) ch keyShareMissing
    negotiatedGroup

end Picotls
