import Picotls.Authentication
import Picotls.Server.Psk

/-!
# The end of the server's handshake

The server signs the transcript, sends its Finished, installs the application keys, and sends
session tickets. A ticket is sealed before the client's Finished has arrived, over the transcript
that the server expects at the end of the handshake.
-/

namespace Picotls

open Foundation

variable [Crypto]

/-! ## Session tickets -/

/-- Set the transcript of the first slot. -/
def restoreTranscript (ctx : Bytes) : Proc Unit := do
  let _ ← firstHash
  modifyFirstHash fun slot => { slot with ctx := ctx }

/-- Absorb the messages that the client is expected to send: the end of early data, if that is to
come, and the Finished. The output buffer is used to build them. -/
def absorbExpectedFinished : Proc Unit := do
  let origOff ← sendbufOff
  let tls ← getTls
  runIf (tls.pendingHandshakeSecret.isSome && !tls.ctx.omitEndOfEarlyData) do
    assert (tls.state = .serverExpectEndOfEarlyData)
    let _ ← bufferPushMessageBody true HandshakeType.endOfEarlyData (pure ())
    modifySendbuf (·.take origOff)
  let _ ← bufferPushMessageBody true HandshakeType.finished do
    allocate
    let tag ← calcVerifyData (tls.pendingHandshakeSecret.getD tls.dec.secret)
    appendReserved tag
  modifySendbuf (·.take origOff)

/-- The session identifier of a new ticket and the pre-shared key in it. Nothing is written for a
connection without key share. -/
def buildSessionIdentifier (ticketAgeAdd : Bytes) : Proc (Option Bytes × Bytes) := do
  let tls ← getTls
  withBuffer [] (match tls.keyShare with
    | none => pure none
    | some keyShare => do
      let suite ← deref tls.cipherSuite
      let psk ← encodeSessionIdentifier tls.ctx ticketAgeAdd [] tls.serverName keyShare.id suite.id
        tls.negotiatedProtocol
      return some psk)

/-- Seal a session identifier and send it. -/
def sendSealedTicket (emitter : Emitter) : Proc Unit := do
  let tls ← getTls
  absorbExpectedFinished
  let ticketAgeAdd ← randomBytes 4
  let (psk, sessionId) ← buildSessionIdentifier ticketAgeAdd
  pushMessage emitter true HandshakeType.newSessionTicket do
    bufferPushUInt 4 tls.ctx.ticketLifetime
    bufferPushv ticketAgeAdd
    bufferPushBlock 1 (pure ())
    bufferPushBlock 2 do
      let (ret, sealedId) ← ask fun env tick => env.encryptTicket tick true sessionId
      checkCode ret
      whenSome psk fun psk => emitEvent (.sealTicket psk)
      bufferPushv sealedId
    bufferPushBlock 2 (runIf (tls.ctx.maxEarlyDataSize ≠ 0)
      (bufferPushExtension ExtensionType.earlyData (bufferPushUInt 4 tls.ctx.maxEarlyDataSize)))

/-- Send a session ticket; the transcript is as before afterwards. -/
def sendSessionTicket (emitter : Emitter) : Proc Unit := do
  let backup ← firstHash
  let tls ← getTls
  assert (tls.ctx.ticketLifetime ≠ 0)
  assert tls.ctx.encryptTicket
  let result ← attemptCode (sendSealedTicket emitter)
  restoreTranscript backup.ctx
  ofAnswer result

/-! ## Finishing the handshake -/

/-- Sign the transcript; a signer that needs more time is asked again later. -/
def serverSendCertificateVerify (emitter : Emitter) (signatureAlgorithms : Option (List ℕ)) :
    Proc Unit := do
  let result ← attemptCode
    (sendCertificateVerify emitter signatureAlgorithms serverCertificateVerifyContextString)
  match result with
  | .ok () => pure ()
  | .error code =>
    runIf (code = Error.asyncOperation)
      (modifyTls fun tls => { tls with state := .serverGeneratingCertificateVerify })
    throwCode code

/-- The state in which the server awaits the client's last flight. -/
def serverAwaitClient : Proc Unit := do
  let tls ← getTls
  if tls.pendingHandshakeSecret.isSome then
    if tls.ctx.omitEndOfEarlyData then
      commissionHandshakeSecret
      modifyTls fun tls => { tls with state := .serverExpectFinished }
    else modifyTls fun tls => { tls with state := .serverExpectEndOfEarlyData }
  else
    modifyTls fun tls => { tls with
      state := if tls.ctx.requireClientAuthentication then .serverExpectCertificate
        else .serverExpectFinished }

/-- Send the end of the server's flight up to the tickets, and install the application keys. -/
def serverFinishFlight (emitter : Emitter) (sendCertVerify : Bool)
    (signatureAlgorithms : Option (List ℕ)) : Proc Unit := do
  runIf sendCertVerify (serverSendCertificateVerify emitter signatureAlgorithms)
  sendFinished emitter
  let sched ← getKeySchedule
  assert (sched.generation = 2)
  keyScheduleExtract none
  setupTrafficProtection true (some .serverApplicationTraffic) 3 0 false
  let secret ← deriveSecret .clientApplicationTraffic
  modifyTls fun tls => { tls with pendingTrafficSecret := secret }
  deriveExporterSecret false
  serverAwaitClient

/-- Send the tickets that end the server's flight. -/
def serverSendTickets (emitter : Emitter) : Proc Progress := do
  let tls ← getTls
  runIf (tls.numTicketsToSend ≠ 0) do
    assert (tls.ctx.ticketLifetime ≠ 0)
    Procedure.forEach (fun _ => sendSessionTicket emitter) (List.range tls.numTicketsToSend)
  return if tls.ctx.requireClientAuthentication then .inProgress else .done

/-- Send the end of the server's flight. -/
def serverFinishHandshake (emitter : Emitter) (sendCertVerify : Bool)
    (signatureAlgorithms : Option (List ℕ)) : Proc Progress := do
  serverFinishFlight emitter sendCertVerify signatureAlgorithms
  serverSendTickets emitter

/-! ## The client's last flight -/

/-- Handle the end of early data. -/
def serverHandleEndOfEarlyData (message : Bytes) : Proc Progress := do
  commissionHandshakeSecret
  absorbMessage message
  modifyTls fun tls => { tls with state := .serverExpectFinished }
  return .inProgress

/-- Handle the client's Certificate; whether an empty one is acceptable is up to the verifier. -/
def serverHandleCertificate (message : Bytes) : Proc Progress := do
  let gotCerts ← handleCertificate (.ofMessage message handshakeHeaderSize)
  absorbMessage message
  modifyTls fun tls => { tls with
    state := if gotCerts then .serverExpectCertificateVerify else .serverExpectFinished }
  return .inProgress

/-- Handle the client's CertificateVerify. -/
def serverHandleCertificateVerify (message : Bytes) : Proc Progress := do
  handleCertificateVerify message clientCertificateVerifyContextString
  modifyTls fun tls => { tls with state := .serverExpectFinished }
  return .inProgress

/-- Handle the client's Finished. -/
def serverHandleFinished (message : Bytes) : Proc Progress := do
  verifyFinished message
  let tls ← getTls
  modifyProtection false fun tp => { tp with secret := tls.pendingTrafficSecret }
  modifyTls fun tls => { tls with pendingTrafficSecret := [] }
  setupTrafficProtection false none 3 0 false
  absorbMessage message
  modifyTls fun tls => { tls with state := .serverPostHandshake }
  return .done

end Picotls
