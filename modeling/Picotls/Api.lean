import Picotls.Input

/-!
# The interface of a connection

The calls that an application makes on a connection and on a sender detached from it. Each call
returns a code; it stops only at a failed assertion or at undefined behaviour.
-/

namespace Picotls

open Foundation

variable [Crypto]

/-- Run a procedure for its effect: zero, or the code it stopped with. -/
def exitCode (body : Proc Unit) : Proc Code := returnCode do
  body
  return 0

/-! ## New connections -/

/-- A connection object in its first state. -/
def newInstance (ctx : Context) (isServer : Bool) (state : State) : Tls where
  ctx := ctx
  state := state
  isServer := isServer
  sendChangeCipherSpec := ctx.sendChangeCipherSpec

/-- Turn the connection into a new client. -/
def ptlsClientNew (ctx : Context) : Proc Unit := do
  modifyTls fun _ => newInstance ctx false .clientHandshakeStart
  let random ← randomBytes helloRandomSize
  modifyTls fun tls => { tls with clientRandom := random }
  runIf ctx.sendChangeCipherSpec do
    let sessionId ← randomBytes 32
    modifyTls fun tls => { tls with legacySessionId := sessionId }

/-- Turn the connection into a new server. -/
def ptlsServerNew (ctx : Context) : Proc Unit :=
  modifyTls fun _ =>
    { newInstance ctx true .serverExpectClientHello with earlyDataSkippedBytes := uint32Max }

/-! ## Sending -/

/-- Send a KeyUpdate and install the next sending key; a failure takes back what was written. -/
def updateSendKey (requestUpdate : Bool) : Proc Unit := do
  let origOff ← sendbufOff
  let result ← attemptCode do
    pushMessage .record false HandshakeType.keyUpdate
      (bufferPushv [if requestUpdate then 1 else 0])
    updateTrafficKey true
  match result with
  | .ok () => pure ()
  | .error code => do
    modifySendbuf (·.take origOff)
    throwCode code

/-- The number of records after which the sending key is replaced. -/
abbrev keyUpdateThreshold : ℕ := 16777216

/-- Replace the sending key if that is due. -/
def updateSendKeyIfNeeded : Proc Unit := do
  modifyTls fun tls =>
    if keyUpdateThreshold ≤ tls.enc.seq ∧ tls.keySchedule.isSome then
      { tls with needsKeyUpdate := true }
    else tls
  let tls ← getTls
  runIf tls.needsKeyUpdate do
    updateSendKey tls.keyUpdateSendRequest
    modifyTls fun tls => { tls with needsKeyUpdate := false, keyUpdateSendRequest := false }

/-- Send application data. -/
def ptlsSend (input : Bytes) : Proc Code := exitCode do
  let tls ← getTls
  throwIf tls.txDetached Error.notAvailable
  assert tls.enc.aead.isSome
  updateSendKeyIfNeeded
  bufferPushEncryptedRecords ContentType.appdata input

/-- Ask for a key update before the next application data. The request is kept in a single bit. -/
def ptlsUpdateKey (requestUpdate : ℤ) : Proc Code := exitCode do
  let tls ← getTls
  throwIf tls.txDetached Error.notAvailable
  assert (!tls.ctx.updateTrafficKey)
  modifyTls fun tls => { tls with
    needsKeyUpdate := true, keyUpdateSendRequest := requestUpdate % 2 ≠ 0 }

/-- Send an alert, encrypted unless the client's handshake is in progress. -/
def ptlsSendAlert (level description : UInt8) : Proc Code := exitCode do
  let recStart ← sendbufOff
  let tls ← getTls
  throwIf tls.txDetached Error.notAvailable
  bufferPushRecord ContentType.alert (bufferPushv [level, description])
  runIf (tls.enc.aead.isSome ∧ State.rank .clientExpectFinished < tls.state.rank)
    (bufferEncryptRecord recStart)

/-! ## Detached senders -/

/-- Move the sending side of the connection into an object of its own. -/
def ptlsDetachTx : Proc Code := exitCode do
  let tls ← getTls
  throwIf (tls.txDetached ∨ tls.ctx.updateTrafficKey ∨ ¬ tls.state.IsPostHandshake ∨
    tls.enc.aead.isNone) Error.notAvailable
  allocate
  whenSome tls.serverName fun _ => allocate
  whenSome tls.negotiatedProtocol fun _ => allocate
  let keySchedule ← (if tls.enc.tls12 then pure none
    else some <$> keyScheduleNew tls.cipherSuite none false)
  let detached : Tls := {
    ctx := tls.ctx
    state := tls.state
    cipherSuite := tls.cipherSuite
    clientRandom := tls.clientRandom
    isServer := tls.isServer
    isPskHandshake := tls.isPskHandshake
    needsKeyUpdate := tls.needsKeyUpdate
    keyUpdateSendRequest := tls.keyUpdateSendRequest
    serverName := tls.serverName
    negotiatedProtocol := tls.negotiatedProtocol
    keySchedule := keySchedule
    enc := tls.enc }
  Procedure.update fun _ s => { s with tx := some detached }
  modifyTls fun tls => { tls with
    detachedTxProtocolVersion :=
      if tls.enc.tls12 then protocolVersionTls12 else protocolVersionTls13
    enc := {}
    needsKeyUpdate := false
    keyUpdateSendRequest := false
    txDetached := true }

/-- Run a procedure on the detached sender. -/
def onTx (body : Proc Code) : Proc Code := do
  let tx ← Procedure.observe fun _ s => s.tx
  match tx with
  | none => return Error.notAvailable
  | some tx =>
    let tls ← getTls
    modifyTls fun _ => tx
    let result ← Procedure.attempt body
    Procedure.update fun _ s => { s with tx := some s.tls, tls := tls }
    match result with
    | .ok code => return code
    | .error fault => Procedure.fail fault

/-- Send application data through the detached sender. -/
def ptlsTxSend (input : Bytes) : Proc Code := onTx (ptlsSend input)

/-- The vectors fit into one record. -/
def vectorsFit : ℕ → List Bytes → Bool
  | _, [] => true
  | inlen, octets :: rest =>
    octets.length ≤ maxPlaintextRecordSize - inlen && vectorsFit (inlen + octets.length) rest

/-- The number of octets in some vectors. -/
def vectorsLength (input : List Bytes) : ℕ := (input.map List.length).sum

/-- The body of an encrypted TLS 1.2 record whose plaintext is given as vectors. -/
def sendvTls12Fragment (type : UInt8) (input : List Bytes) : Proc Unit := do
  let tls ← getTls
  let aead ← deref tls.enc.aead
  allocate
  let nonce ← takeTls12Nonce aead tls.enc
  emitEvent (.encrypt aead nonce input.flatten)
  appendReserved (aead.encryptVectors input nonce
    (buildTls12Aad type tls.enc.seq (vectorsLength input)))
  modifyProtection true fun tp => { tp with seq := (tls.enc.seq + 1) % 2 ^ 64 }

/-- The body of an encrypted TLS 1.3 record whose plaintext is given as vectors. The content type is
put into one more vector behind them. -/
def sendvTls13Fragment (type : UInt8) (input : List Bytes) : Proc Unit := do
  let tls ← getTls
  let aead ← deref tls.enc.aead
  allocate
  let seq := tls.enc.seq
  modifyProtection true fun tp => { tp with seq := (seq + 1) % 2 ^ 64 }
  emitEvent (.encrypt aead seq (input ++ [[type]]).flatten)
  appendReserved (aead.encryptVectors (input ++ [[type]]) seq
    (buildAad (vectorsLength input + 1 + aead.algo.tagSize)))

/-- One encrypted record whose plaintext is given as vectors. -/
def sendvRecord (type : UInt8) (input : List Bytes) : Proc Unit := do
  let tls ← getTls
  if tls.enc.tls12 then bufferPushRecord type (sendvTls12Fragment type input)
  else bufferPushRecord type (sendvTls13Fragment type input)

/-- Send vectors as one record through the detached sender. -/
def ptlsTxSendv (input : List Bytes) : Proc Code := onTx <| exitCode do
  throwIf (!vectorsFit 0 input) Error.library
  let tls ← getTls
  assert tls.enc.aead.isSome
  updateSendKeyIfNeeded
  runIf (vectorsLength input ≠ 0) (sendvRecord ContentType.appdata input)

/-- Send a KeyUpdate through the detached sender. -/
def ptlsTxUpdateKey (requestUpdate : ℤ) : Proc Code := onTx <| exitCode do
  let tls ← getTls
  throwIf tls.keySchedule.isNone Error.notAvailable
  updateSendKey (requestUpdate ≠ 0)

/-- Send an alert through the detached sender. -/
def ptlsTxSendAlert (level description : UInt8) : Proc Code :=
  onTx (ptlsSendAlert level description)

/-- Take one of the key-update requests that await the detached sender; one if there was any. -/
def ptlsTakeKeyUpdateRequest : Proc Code := do
  let tls ← getTls
  if tls.keyUpdateRequests = 0 then return 0
  modifyTls fun tls => { tls with keyUpdateRequests := tls.keyUpdateRequests - 1 }
  return 1

/-! ## Receiving -/

/-- How much of the input the last step took. -/
def getConsumed : Proc ℕ := Procedure.observe fun _ s => s.consumed

/-- The length of the caller's plaintext buffer. -/
def decryptbufOff : Proc ℕ := Procedure.observe fun _ s => s.decryptbuf.length

/-- Handle records until the handshake completes, fails, or has taken all the input. No plaintext
may be delivered meanwhile. -/
def handshakeLoop (properties : Option HandshakeProperties) (origOff : ℕ) :
    ℕ → ℕ → Bytes → Proc Code
  | 0, taken, _ => do
    setConsumed taken
    return Error.inProgress
  | fuel + 1, taken, src =>
    if src = [] then do
      setConsumed taken
      return Error.inProgress
    else do
      let ret ← returnCode (handleInput .record src properties)
      let consumed ← getConsumed
      let off ← decryptbufOff
      assert (off = origOff)
      if ret = Error.inProgress then
        handshakeLoop properties origOff fuel (taken + consumed) (src.drop consumed)
      else
        setConsumed (taken + consumed)
        return ret

/-- Replace the output of a failed handshake by an alert. The output that precedes the request to
use ECH is kept, and no alert answers an alert of the peer. -/
def sendFailureAlert (origOff : ℕ) (ret : Code) : Proc Unit := do
  runIf (ret ≠ Alert.echRequired) (modifySendbuf (·.take origOff))
  runIf (errorGetClass ret ≠ errorClassPeerAlert) do
    let description := if errorGetClass ret = 0 then ret else Alert.internalError
    let sent ← ptlsSendAlert Alert.levelFatal (UInt8.ofNat description)
    runIf (sent ≠ 0) (modifySendbuf (·.take origOff))

/-- Continue the handshake with some input. -/
def ptlsHandshake (properties : Option HandshakeProperties) (input : Bytes) : Proc Code := do
  let tls ← getTls
  assert (!tls.state.IsPostHandshake)
  let origOff ← sendbufOff
  match tls.state with
  | .clientHandshakeStart =>
    assert (input = [])
    returnCode do
      sendClientHello .record properties none
      return Error.inProgress
  | .serverGeneratingCertificateVerify => returnCode do
    let progress ← serverFinishHandshake .record true none
    return progress.code
  | _ =>
    let off ← decryptbufOff
    let ret ← handshakeLoop properties off (input.length + 1) 0 input
    runIf (ret ∉ [0, Error.inProgress, Error.statelessRetry, Error.asyncOperation])
      (sendFailureAlert origOff ret)
    return ret

/-- Handle records until application data is delivered, an error occurs, or all the input is
taken. -/
def receiveLoop (origOff : ℕ) : ℕ → ℕ → Bytes → Proc Code
  | 0, taken, _ => do
    setConsumed taken
    return 0
  | fuel + 1, taken, src =>
    if src = [] then do
      setConsumed taken
      return 0
    else do
      let tls ← getTls
      let ret ← returnCode (if tls.dec.tls12 then handleInputTls12 src
        else handleInput .record src none)
      let consumed ← getConsumed
      let off ← decryptbufOff
      if (ret = 0 ∨ ret = Error.inProgress) ∧ off = origOff then
        receiveLoop origOff fuel (taken + consumed) (src.drop consumed)
      else
        setConsumed (taken + consumed)
        return if ret = Error.inProgress then 0 else ret

/-- Receive records. -/
def ptlsReceive (input : Bytes) : Proc Code := do
  let tls ← getTls
  assert (State.rank .serverExpectEndOfEarlyData ≤ tls.state.rank)
  let off ← decryptbufOff
  receiveLoop off (input.length + 1) 0 input

end Picotls
