import Picotls.Record
import Picotls.Wire

/-!
# Certificates and Finished messages

Both endpoints authenticate in the same way: a Certificate message, a signature over the
transcript, and a tag over the transcript under the endpoint's handshake secret.
-/

namespace Picotls

open Foundation

variable [Crypto]

/-! ## Sending -/

/-- The body of a Certificate message. -/
def buildCertificateMessage (context : Bytes) (certificates : List Bytes) : Proc Unit := do
  bufferPushBlock 1 (bufferPushv context)
  bufferPushBlock 3 (Procedure.forEach (fun certificate => do
    bufferPushBlock 3 (bufferPushv certificate)
    bufferPushBlock 2 (pure ())) certificates)

/-- Emit the configured certificates. -/
def defaultEmitCertificate (emitter : Emitter) (context : Bytes) : Proc Unit := do
  let tls ← getTls
  pushMessage emitter true HandshakeType.certificate
    (buildCertificateMessage context tls.ctx.certificates)

/-- Send a certificate, through the application's emitter if there is one. -/
def sendCertificate (emitter : Emitter) (signatureAlgorithms : List ℕ) (context : Bytes)
    (pushStatusRequest : Bool) (compressAlgos : List ℕ) : Proc Unit := do
  throwIf (signatureAlgorithms = []) Alert.missingExtension
  let tls ← getTls
  if tls.ctx.emitCertificate then
    let answer ← ask fun env tick =>
      env.emitCertificate tick context pushStatusRequest compressAlgos
    match answer with
    | .ok (type, body) => pushMessage emitter true type (bufferPushv body)
    | .error code =>
      if code = Error.delegate then defaultEmitCertificate emitter context else throwCode code
  else defaultEmitCertificate emitter context

/-- What the server signs. -/
def serverCertificateVerifyContextString : Bytes := ascii "TLS 1.3, server CertificateVerify"

/-- What the client signs. -/
def clientCertificateVerifyContextString : Bytes := ascii "TLS 1.3, client CertificateVerify"

/-- The octets to be signed: padding, the context with its terminating null, the transcript. -/
def buildCertificateVerifySigndata (contextString : Bytes) : Proc Bytes := do
  let slot ← firstHash
  return List.replicate 64 32 ++ contextString ++ [0] ++ Crypto.hash slot.algo slot.ctx

/-- Sign the transcript, leaving the output as it was before the message if the signer needs more
time. -/
def signTranscript (startOff : ℕ) (signatureAlgorithms : Option (List ℕ)) (contextString : Bytes) :
    Proc ℕ := do
  let tls ← getTls
  let data ← buildCertificateVerifySigndata contextString
  let answer ← ask fun env tick => env.signCertificate tick data signatureAlgorithms
  match answer with
  | .ok (algo, signature) =>
    modifyTls fun tls => { tls with asyncJob := false }
    bufferPushv signature
    return algo
  | .error code =>
    modifyTls fun tls => { tls with asyncJob := code = Error.asyncOperation }
    runIf (code = Error.asyncOperation) do
      assert tls.isServer
      modifySendbuf (·.take startOff)
    throwCode code

/-- Send a CertificateVerify message. -/
def sendCertificateVerify (emitter : Emitter) (signatureAlgorithms : Option (List ℕ))
    (contextString : Bytes) : Proc Unit := do
  let startOff ← sendbufOff
  let tls ← getTls
  runIf tls.ctx.signCertificate do
    pushMessage emitter true HandshakeType.certificateVerify do
      let algoOff ← sendbufOff
      bufferPushUInt 2 0
      let algo ← bufferPushBlock 2 (signTranscript startOff signatureAlgorithms contextString)
      modifySendbuf fun buf => overwrite buf algoOff (toBE 2 algo)

/-- Send a Finished message. -/
def sendFinished (emitter : Emitter) : Proc Unit :=
  pushMessage emitter true HandshakeType.finished do
    allocate
    let tls ← getTls
    let tag ← calcVerifyData tls.enc.secret
    appendReserved tag

/-! ## Receiving -/

/-- The certificates of a list; at most sixteen are kept. -/
def decodeCertificateList : ℕ → List Bytes → Src → Proc (List Bytes)
  | 0, certs, _ => pure certs
  | fuel + 1, certs, src =>
    if src.data = [] then pure certs
    else do
      let (cert, src) ← src.decodeOpenBlock 3
      let certs := if certs.length < 16 then certs ++ [cert.data] else certs
      let ((), src) ← decodeOpenExtensions .certificate src () fun _ exttype block => do
        notifyExtension HandshakeType.certificate exttype block.data
        return ((), ⟨0, []⟩)
      decodeCertificateList fuel certs src

/-- Have the certificate verifier check a chain, if one is registered. -/
def callVerifyCertificate (certs : List Bytes) : Proc Unit := do
  let tls ← getTls
  runIf tls.ctx.verifyCertificate.isSome do
    emitEvent (.verifyCertificate tls.ech.state tls.verifiedName)
    let (ret, installed) ← ask fun env tick => env.verifyCertificate tick tls.verifiedName certs
    modifyTls fun tls => { tls with certificateVerifyCb := installed }
    checkCode ret

/-- Decode and verify a certificate chain; whether it has a certificate. -/
def handleCertificate (src : Src) : Proc Bool := do
  let (context, src) ← src.decodeOpenBlock 1
  throwIf (context.data ≠ []) Alert.illegalParameter
  let (list, rest) ← src.decodeOpenBlock 3
  let certs ← decodeCertificateList list.data.length [] list
  rest.assertBlockClose
  callVerifyCertificate certs
  let tls ← getTls
  emitEvent (.acceptChain tls.ctx.verifyCertificate.isSome certs)
  return certs ≠ []

/-- Check a CertificateVerify message. -/
def handleCertificateVerify (message contextString : Bytes) : Proc Unit := do
  let (algo, src) ← Src.decodeUInt 2 (.ofMessage message handshakeHeaderSize)
  let signature ← src.decodeBlock 2
  let signdata ← buildCertificateVerifySigndata contextString
  let tls ← getTls
  runIf tls.certificateVerifyCb do
    let ret ← ask fun env tick => env.verifySign tick algo signdata signature.data
    modifyTls fun tls => { tls with certificateVerifyCb := false }
    checkCode ret
  emitEvent (.acceptSignature tls.certificateVerifyCb signdata)
  absorbMessage message

/-- Check the tag of a Finished message. -/
def verifyFinished (message : Bytes) : Proc Unit := do
  let slot ← firstHash
  throwIf (message.length ≠ handshakeHeaderSize + slot.algo.digestSize) Alert.decodeError
  let tls ← getTls
  let tag ← calcVerifyData tls.dec.secret
  throwIf (message.drop handshakeHeaderSize ≠ tag) Alert.handshakeFailure
  emitEvent (.acceptFinished slot tls.dec.secret message)

end Picotls
