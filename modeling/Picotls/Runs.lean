import Picotls.Transfer

/-!
# Runs of an endpoint

A run is a sequence of calls that an application makes on one connection, in any order and with any
arguments. The peer is not trusted: the input of a call is arbitrary. A handshake call that fails
is the last one of its run; every other call may follow any call. A failed assertion or undefined
behaviour ends the run.
-/

namespace Picotls

open Foundation

variable [Crypto]

/-- A call on a connection, or on the sender detached from it. Between two calls the application
may exchange its buffers. -/
inductive Operation where
  | handshake (properties : Option HandshakeProperties) (input : Bytes)
  | receive (input : Bytes)
  | send (input : Bytes)
  | sendAlert (level description : UInt8)
  | updateKey (requestUpdate : ℤ)
  | detachTx
  | txSend (input : Bytes)
  | txSendv (input : List Bytes)
  | txUpdateKey (requestUpdate : ℤ)
  | txSendAlert (level description : UInt8)
  | takeKeyUpdateRequest
  | supplyBuffers (sendbuf decryptbuf : Bytes)

/-- Make a call. -/
def perform : Operation → Proc Code
  | .handshake properties input => ptlsHandshake properties input
  | .receive input => ptlsReceive input
  | .send input => ptlsSend input
  | .sendAlert level description => ptlsSendAlert level description
  | .updateKey requestUpdate => ptlsUpdateKey requestUpdate
  | .detachTx => ptlsDetachTx
  | .txSend input => ptlsTxSend input
  | .txSendv input => ptlsTxSendv input
  | .txUpdateKey requestUpdate => ptlsTxUpdateKey requestUpdate
  | .txSendAlert level description => ptlsTxSendAlert level description
  | .takeKeyUpdateRequest => ptlsTakeKeyUpdateRequest
  | .supplyBuffers sendbuf decryptbuf => do
    Procedure.update fun _ s => { s with sendbuf := sendbuf, decryptbuf := decryptbuf }
    return 0

/-- A code after which the handshake may be continued. -/
def continues (code : Code) : Bool :=
  code = 0 || code = Error.inProgress || code = Error.asyncOperation

/-- Make a call and tell whether the handshake may be continued afterwards. The application makes
no handshake call after one that failed. -/
def performNext (live : Bool) : Operation → Proc Bool
  | .handshake properties input =>
    if live then do
      let ret ← ptlsHandshake properties input
      return continues ret
    else return false
  | operation => do
    let _ ← perform operation
    return live

/-- Make calls one after the other. -/
def performAll : Bool → List Operation → Proc Unit
  | _, [] => pure ()
  | live, operation :: operations => do
    let live ← performNext live operation
    performAll live operations

/-! ## Runs from the start -/

/-- A session of a new connection object. -/
def Session.initial (ctx : Context) (isServer : Bool) : Session where
  tls := newInstance ctx isServer
    (if isServer then .serverExpectClientHello else .clientHandshakeStart)

/-- The session that a client reaches by some calls. -/
def clientRun (env : Environment) (ctx : Context) (serverName : Option Bytes)
    (operations : List Operation) : Session :=
  Prod.snd <| (do
    ptlsClientNew ctx
    setServerName serverName
    performAll true operations : Proc Unit) env (.initial ctx false)

/-- The session that a server reaches by some calls. -/
def serverRun (env : Environment) (ctx : Context) (operations : List Operation) : Session :=
  Prod.snd <| (do
    ptlsServerNew ctx
    performAll true operations : Proc Unit) env (.initial ctx true)

/-- The session that an imported connection reaches by some calls. -/
def importedRun (env : Environment) (ctx : Context) (params : Bytes)
    (operations : List Operation) : Session :=
  Prod.snd <| (do
    ptlsImport ctx params
    performAll true operations : Proc Unit) env (.initial ctx false)

end Picotls
