import Picotls.Client.Handshake
import Picotls.Server.Hello

/-!
# Handling of input

Input is cut into records, records are decrypted, and handshake messages are reassembled and
dispatched according to the state of the connection. A procedure that returns a code returns zero,
the code for progress, or the code of an error after which it has cleaned up; an error that leaves
the receive buffer as it is stops the procedure.
-/

namespace Picotls

open Foundation

variable [Crypto]

/-! ## Dispatch of handshake messages -/

/-- Whether a KeyUpdate asks for one in return. -/
def decodeKeyUpdate (message : Bytes) : Proc Bool :=
  match message.drop handshakeHeaderSize with
  | [request] => if 1 < request then throwCode Alert.decodeError else pure (decide (request = 1))
  | _ => throwCode Alert.decodeError

/-- Take note that the peer asks for a key update. A detached sender is told of each request. -/
def noteKeyUpdateRequest : Proc Unit := do
  let tls ← getTls
  throwIf tls.ctx.updateTrafficKey Alert.unexpectedMessage
  if tls.txDetached then
    throwIf (tls.keyUpdateRequests = uint32Max) Alert.internalError
    modifyTls fun tls => { tls with keyUpdateRequests := tls.keyUpdateRequests + 1 }
  else modifyTls fun tls => { tls with needsKeyUpdate := true }

/-- Handle a KeyUpdate. -/
def handleKeyUpdate (message : Bytes) : Proc Progress := do
  let request ← decodeKeyUpdate message
  updateTrafficKey false
  runIf request noteKeyUpdateRequest
  return .done

/-- Handle a Certificate or CompressedCertificate. -/
def clientHandleAnyCertificate (type : UInt8) (message : Bytes) : Proc Progress :=
  if type = HandshakeType.certificate then clientHandleCertificate message
  else if type = HandshakeType.compressedCertificate then
    clientHandleCompressedCertificate message
  else throwCode Alert.unexpectedMessage

/-- Dispatch a message to the client. -/
def handleClientHandshakeMessage (emitter : Emitter) (message : Bytes) (isEndOfRecord : Bool)
    (properties : Option HandshakeProperties) : Proc Progress := do
  let tls ← getTls
  let type ← deref message.head?
  match tls.state with
  | .clientExpectServerHello | .clientExpectSecondServerHello =>
    if type = HandshakeType.serverHello ∧ isEndOfRecord then
      clientHandleHello emitter message properties
    else throwCode Alert.unexpectedMessage
  | .clientExpectEncryptedExtensions =>
    if type = HandshakeType.encryptedExtensions then
      clientHandleEncryptedExtensions message properties
    else throwCode Alert.unexpectedMessage
  | .clientExpectCertificateRequestOrCertificate =>
    if type = HandshakeType.certificateRequest then clientHandleCertificateRequest message
    else clientHandleAnyCertificate type message
  | .clientExpectCertificate => clientHandleAnyCertificate type message
  | .clientExpectCertificateVerify =>
    if type = HandshakeType.certificateVerify then clientHandleCertificateVerify message
    else throwCode Alert.unexpectedMessage
  | .clientExpectFinished =>
    if type = HandshakeType.finished ∧ isEndOfRecord then clientHandleFinished emitter message
    else throwCode Alert.unexpectedMessage
  | .clientPostHandshake =>
    if type = HandshakeType.newSessionTicket then clientHandleNewSessionTicket message
    else if type = HandshakeType.keyUpdate then handleKeyUpdate message
    else throwCode Alert.unexpectedMessage
  | _ => Procedure.fail .assertion

/-- Dispatch a message to the server. -/
def handleServerHandshakeMessage (emitter : Emitter) (message : Bytes) (isEndOfRecord : Bool)
    (properties : Option HandshakeProperties) : Proc Progress := do
  let tls ← getTls
  let type ← deref message.head?
  match tls.state with
  | .serverExpectClientHello | .serverExpectSecondClientHello =>
    if type = HandshakeType.clientHello ∧ isEndOfRecord then
      serverHandleHello emitter message properties
    else throwCode Alert.handshakeFailure
  | .serverExpectCertificate =>
    if type = HandshakeType.certificate then serverHandleCertificate message
    else throwCode Alert.unexpectedMessage
  | .serverExpectCertificateVerify =>
    if type = HandshakeType.certificateVerify then serverHandleCertificateVerify message
    else throwCode Alert.unexpectedMessage
  | .serverExpectEndOfEarlyData =>
    assert (!tls.ctx.omitEndOfEarlyData)
    if type = HandshakeType.endOfEarlyData then serverHandleEndOfEarlyData message
    else throwCode Alert.unexpectedMessage
  | .serverExpectFinished =>
    if type = HandshakeType.finished ∧ isEndOfRecord then serverHandleFinished message
    else throwCode Alert.handshakeFailure
  | .serverPostHandshake =>
    if type = HandshakeType.keyUpdate then handleKeyUpdate message
    else throwCode Alert.unexpectedMessage
  | _ => Procedure.fail .assertion

/-- Dispatch a message to the endpoint's role. -/
def handleHandshakeMessage (emitter : Emitter) (message : Bytes) (isEndOfRecord : Bool)
    (properties : Option HandshakeProperties) : Proc Progress := do
  emitEvent (.received message)
  let tls ← getTls
  if tls.isServer then handleServerHandshakeMessage emitter message isEndOfRecord properties
  else handleClientHandshakeMessage emitter message isEndOfRecord properties

/-! ## Handshake records -/

/-- The code that a handler's outcome stands for. -/
def Progress.code : Progress → Code
  | .done => 0
  | .inProgress => Error.inProgress

/-- The code that a procedure returns, whether it stopped with it or not. -/
def returnCode (body : Proc Code) : Proc Code := do
  let result ← attemptCode body
  match result with
  | .ok code => return code
  | .error code => return code

/-- A handler of messages: it is given the message, whether it ends its record, and the options of
the call. -/
abbrev MessageCallback : Type :=
  Emitter → Bytes → Bool → Option HandshakeProperties → Proc Progress

/-- Handle one message of a record; an error drops the buffered messages. -/
def handleRecordMessage (cb : MessageCallback) (emitter : Emitter) (message : Bytes)
    (isEndOfRecord : Bool) (properties : Option HandshakeProperties) : Proc Code := do
  let ret ← returnCode do
    let progress ← cb emitter message isEndOfRecord properties
    return progress.code
  if ret = 0 ∨ ret = Error.asyncOperation ∨ ret = Error.inProgress then return ret
  else
    modifyTls fun tls => { tls with recvbufMess := none }
    throwCode ret

/-- The length of the message at the start of a source, if all of it is there. -/
def completeMessageLength (src : Bytes) : Option ℕ :=
  if src.length < 4 then none
  else
    let messLen := 4 + ofBE ((src.drop 1).take 3)
    if src.length < messLen then none else some messLen

/-- How often the key for receiving was changed. -/
def receiveKeyChanges : Proc ℕ := Procedure.observe fun _ s => s.trace.count .changeReceiveKey

/-- Handle the complete messages of a source: the last code and what is left. -/
def handleMessages (cb : MessageCallback) (emitter : Emitter)
    (properties : Option HandshakeProperties) : ℕ → Code → Bytes → Proc (Code × Bytes)
  | 0, ret, src => pure (ret, src)
  | fuel + 1, ret, src =>
    match completeMessageLength src with
    | none => pure (ret, src)
    | some messLen => do
      let changes ← receiveKeyChanges
      let ret ← handleRecordMessage cb emitter (src.take messLen) (src.length = messLen) properties
      let changes' ← receiveKeyChanges
      emitEvent (.handled (src.take messLen) (src.drop messLen) (changes ≠ changes'))
      handleMessages cb emitter properties fuel ret (src.drop messLen)

/-- The buffered messages exceed the configured size. -/
def messageBufferIsOverflow (ctx : Context) (size : ℕ) : Bool :=
  ctx.maxBufferSize ≠ 0 && ctx.maxBufferSize < size

/-- The unhandled octets together with those of a new fragment. -/
def flattenMessages (fragment : Bytes) : Proc Bytes := do
  let tls ← getTls
  match tls.recvbufMess with
  | none => return fragment
  | some mess =>
    throwIf (messageBufferIsOverflow tls.ctx (mess.length + fragment.length))
      Alert.handshakeFailure
    allocate
    modifyTls fun tls => { tls with recvbufMess := some (mess ++ fragment) }
    return mess ++ fragment

/-- Keep a partial message. -/
def keepPartialMessage (rest : Bytes) : Proc Unit := do
  let tls ← getTls
  throwIf (messageBufferIsOverflow tls.ctx rest.length) Alert.handshakeFailure
  runIf tls.recvbufMess.isNone do
    modifyTls fun tls => { tls with recvbufMess := some [] }
    allocate
  modifyTls fun tls => { tls with recvbufMess := some rest }

/-- Handle the fragment of a handshake record, keeping a partial message at its end. -/
def handleHandshakeRecord (cb : MessageCallback) (emitter : Emitter) (rec : Record)
    (properties : Option HandshakeProperties) : Proc Code := do
  throwIf (rec.type ≠ ContentType.handshake) Alert.decodeError
  let src ← flattenMessages rec.fragment
  let (ret, rest) ← handleMessages cb emitter properties src.length Error.inProgress src
  if rest = [] then
    modifyTls fun tls => { tls with recvbufMess := none }
    return ret
  else
    keepPartialMessage rest
    return Error.inProgress

/-! ## Records -/

/-- The code for an alert of the peer. -/
def handleAlert (fragment : Bytes) : Code :=
  match fragment with
  | [_, desc] => alertToPeerError desc.toNat
  | _ => Alert.decodeError

/-- Append plaintext to the caller's buffer. -/
def appendPlaintext (octets : Bytes) : Proc Unit := do
  Procedure.update fun _ s => { s with decryptbuf := s.decryptbuf ++ octets }
  let tls ← getTls
  emitEvent (.deliver tls.state tls.dec.aead octets)

/-- Release the buffer of a partial record. -/
def disposeRecvbufRec : Proc Unit := modifyTls fun tls => { tls with recvbufRec := none }

/-- The server passes over early data that it did not accept. -/
def Tls.skipsEarlyData (tls : Tls) : Bool :=
  tls.isServer && tls.earlyDataSkippedBytes ≠ uint32Max

/-- Count the octets of a record that is passed over. -/
def serverSkipEarlyData (length : ℕ) : Proc Code := do
  modifyTls fun tls => { tls with
    earlyDataSkippedBytes := (tls.earlyDataSkippedBytes + length) % 2 ^ 32 }
  let tls ← getTls
  emitEvent (.skipEarlyData length (tls.earlyDataSkippedBytes ≤ maxEarlyDataSkipSize))
  throwIf (maxEarlyDataSkipSize < tls.earlyDataSkippedBytes) Alert.handshakeFailure
  disposeRecvbufRec
  return Error.inProgress

/-- The content of a decrypted record: its type is the last octet that is not padding. -/
def innerRecord (plaintext : Bytes) : Option Record :=
  match plaintext.reverse.dropWhile (· = 0) with
  | [] => none
  | type :: content => some ⟨type, content.reverse⟩

/-- Handle an application record or an alert. -/
def handleContent (rec : Record) : Proc Code := do
  let tls ← getTls
  if rec.type = ContentType.appdata then
    if tls.state.IsPostHandshake then
      appendPlaintext rec.fragment
      return 0
    else if tls.state = .serverExpectEndOfEarlyData then
      runIf tls.dec.aead.isSome (appendPlaintext rec.fragment)
      return 0
    else return Alert.unexpectedMessage
  else if rec.type = ContentType.alert then return handleAlert rec.fragment
  else return Alert.unexpectedMessage

/-- Handle a record whose content is in cleartext, as received or after decryption. -/
def handleCleartextRecord (emitter : Emitter) (rec : Record)
    (properties : Option HandshakeProperties) : Proc Code := do
  let tls ← getTls
  let ret ← returnCode
    (if tls.recvbufMess.isSome ∨ rec.type = ContentType.handshake then
      handleHandshakeRecord handleHandshakeMessage emitter rec properties
    else handleContent rec)
  disposeRecvbufRec
  return ret

/-- Handle a record under the receiving key. -/
def handleEncryptedRecord (emitter : Emitter) (rec : Record)
    (properties : Option HandshakeProperties) : Proc Code := do
  throwIf (rec.type ≠ ContentType.appdata) Alert.handshakeFailure
  allocate
  let result ← attemptCode (aeadDecrypt rec.fragment)
  match result with
  | .error code =>
    let tls ← getTls
    if tls.skipsEarlyData then serverSkipEarlyData rec.fragment.length else throwCode code
  | .ok plaintext =>
    match innerRecord plaintext with
    | none => throwCode Alert.unexpectedMessage
    | some inner => handleCleartextRecord emitter inner properties

/-- Handle a complete record. -/
def handleRecord (emitter : Emitter) (rec : Record) (properties : Option HandshakeProperties) :
    Proc Code := do
  let tls ← getTls
  if rec.type = ContentType.changeCipherSpec then
    throwIf (tls.state.IsPostHandshake ∨ rec.fragment ≠ [1]) Alert.unexpectedMessage
    disposeRecvbufRec
    return Error.inProgress
  else if tls.dec.aead.isSome ∧ rec.type ≠ ContentType.alert then
    handleEncryptedRecord emitter rec properties
  else if rec.type = ContentType.appdata ∧ tls.skipsEarlyData then
    serverSkipEarlyData rec.fragment.length
  else handleCleartextRecord emitter rec properties

/-- Take one record from the input and handle it. -/
def handleInput (emitter : Emitter) (input : Bytes) (properties : Option HandshakeProperties) :
    Proc Code := do
  let rec ← parseRecord input
  match rec with
  | none => return Error.inProgress
  | some rec => handleRecord emitter rec properties

/-! ## TLS 1.2 records -/

/-- The nonce of a TLS 1.2 record and its ciphertext. -/
def tls12RecordNonce (aead : AeadContext) (seq : ℕ) (fragment : Bytes) : Proc (ℕ × Bytes) :=
  if aead.algo.recordIvSize ≠ 0 then do
    assert (aead.algo.recordIvSize = 8)
    let (nonce, src) ← Src.decodeUInt 8 ⟨0, fragment⟩
    return (nonce, src.data)
  else return (seq, fragment)

/-- Decrypt a TLS 1.2 record; the sequence number advances on success. -/
def decryptTls12Record (rec : Record) : Proc Bytes := do
  let tls ← getTls
  let aead ← deref tls.dec.aead
  let (nonce, src) ← tls12RecordNonce aead tls.dec.seq rec.fragment
  throwIf (src.length < aead.algo.tagSize) Alert.badRecordMac
  let aad := buildTls12Aad rec.type tls.dec.seq (src.length - aead.algo.tagSize)
  allocate
  match aead.decrypt src nonce aad with
  | none => throwCode Alert.badRecordMac
  | some plaintext =>
    modifyProtection false fun tp => { tp with seq := (tp.seq + 1) % 2 ^ 64 }
    return plaintext

/-- Handle a complete TLS 1.2 record. -/
def handleTls12Record (rec : Record) : Proc Code := do
  let plaintext ← decryptTls12Record rec
  if rec.type = ContentType.appdata then
    appendPlaintext plaintext
    return 0
  else if rec.type = ContentType.alert then return handleAlert plaintext
  else return Alert.unexpectedMessage

/-- Take one TLS 1.2 record from the input and handle it. -/
def handleInputTls12 (input : Bytes) : Proc Code := do
  let rec ← parseRecord input
  match rec with
  | none => return Error.inProgress
  | some rec =>
    let ret ← returnCode (handleTls12Record rec)
    disposeRecvbufRec
    return ret

end Picotls
