import Picotls.Api

/-!
# Message mode

An application with a record layer of its own exchanges handshake messages with the library. The
library tells it how much of the output belongs to each epoch.
-/

namespace Picotls

open Foundation

variable [Crypto]

/-- The epoch in which the next input is expected. -/
def getReadEpoch : Proc ℕ := do
  let tls ← getTls
  match tls.state with
  | .clientHandshakeStart | .clientExpectServerHello | .clientExpectSecondServerHello
  | .serverExpectClientHello | .serverExpectSecondClientHello => return 0
  | .serverExpectEndOfEarlyData =>
    assert (!tls.ctx.omitEndOfEarlyData)
    return 1
  | .clientPostHandshake | .serverPostHandshake => return 3
  | _ => return 2

/-- Handle the messages in a piece of input of an epoch. -/
def handleEpochInput (properties : Option HandshakeProperties) (inEpoch : ℕ) (input : Bytes) :
    Proc Code := returnCode do
  let epoch ← getReadEpoch
  throwIf (epoch ≠ inEpoch) Alert.unexpectedMessage
  handleHandshakeRecord handleHandshakeMessage .raw ⟨ContentType.handshake, input⟩ properties

/-- Continue the handshake of a client; it starts without input. -/
def ptlsClientHandleMessage (properties : Option HandshakeProperties) (inEpoch : ℕ)
    (input : Option Bytes) : Proc Code := do
  let tls ← getTls
  assert (!tls.isServer)
  match input with
  | none => returnCode do
    sendClientHello .raw properties none
    return Error.inProgress
  | some input => handleEpochInput properties inEpoch input

/-- Continue the handshake of a server. -/
def ptlsServerHandleMessage (properties : Option HandshakeProperties) (inEpoch : ℕ)
    (input : Option Bytes) : Proc Code := do
  let tls ← getTls
  assert tls.isServer
  if tls.state = .serverGeneratingCertificateVerify then
    assert (input.getD [] = [])
    returnCode do
      let progress ← serverFinishHandshake .raw true none
      return progress.code
  else
    assert input.isSome
    let input ← deref input
    handleEpochInput properties inEpoch input

/-- Continue the handshake of either side. -/
def ptlsHandleMessage (properties : Option HandshakeProperties) (inEpoch : ℕ)
    (input : Option Bytes) : Proc Code := do
  let tls ← getTls
  if tls.isServer then ptlsServerHandleMessage properties inEpoch input
  else ptlsClientHandleMessage properties inEpoch input

end Picotls
