import Picotls.Context
import Picotls.Foundation.Procedure

/-!
# Connections and the procedures that run on them

A session is one endpoint at run time: its connection object, the output and plaintext buffers of
the call in progress, the number of questions asked to the environment, and the history of the
steps that statements refer to. No procedure reads the history.

A failure is a return code, a failed assertion, or an access the language leaves undefined. The
session reached before the failure is kept, since the caller still holds the connection and its
buffers.
-/

namespace Picotls

open Foundation

/-- One direction of record protection. The octets at `tls12Iv` are those the library keeps behind
the TLS 1.2 key in the same array. -/
structure TrafficProtection where
  secret : Bytes := []
  tls12Iv : Bytes := []
  epoch : ℕ := 0
  aead : Option AeadContext := none
  seq : ℕ := 0
  tls12 : Bool := false
  tls12EncRecordIv : ℕ := 0
  deriving DecidableEq

/-- A transcript hash: its algorithm and the octets absorbed by the inner and outer contexts. -/
structure HashSlot where
  algo : HashAlgorithm
  ctx : Bytes := []
  ctxOuter : Option Bytes := none
  deriving DecidableEq

/-- The key schedule: early secret (1), handshake secret (2), master secret (3). -/
structure KeySchedule where
  generation : ℕ := 0
  secret : Bytes := zeros maxDigestSize
  hashes : List HashSlot := []
  deriving DecidableEq

/-- The state of Encrypted ClientHello. -/
structure Ech where
  state : EchState := .none
  configId : UInt8 := 0
  kem : Option HpkeKem := none
  cipher : Option HpkeCipherSuite := none
  aead : Option AeadContext := none
  innerClientRandom : Bytes := zeros helloRandomSize
  enc : Bytes := []
  maxNameLength : ℕ := 0
  publicName : Option Bytes := none
  firstEch : Option Bytes := none

/-- A pending CertificateRequest; a present context marks it as pending. -/
structure CertificateRequest where
  context : Option Bytes := none
  signatureAlgorithms : List ℕ := []

/-- A connection object. The client's and the server's arms of the union are both fields; only the
arm of the endpoint's own role is used. -/
structure Tls where
  ctx : Context
  state : State
  recvbufRec : Option Bytes := none
  recvbufMess : Option Bytes := none
  keySchedule : Option KeySchedule := none
  dec : TrafficProtection := {}
  enc : TrafficProtection := {}
  serverName : Option Bytes := none
  negotiatedProtocol : Option Bytes := none
  keyShare : Option KeyExchangeAlgorithm := none
  cipherSuite : Option CipherSuite := none
  clientRandom : Bytes := zeros helloRandomSize
  exporterMasterSecretEarly : Option Bytes := none
  exporterMasterSecretOneRtt : Option Bytes := none
  ech : Ech := {}
  isServer : Bool
  isPskHandshake : Bool := false
  sendChangeCipherSpec : Bool := false
  needsKeyUpdate : Bool := false
  keyUpdateSendRequest : Bool := false
  txDetached : Bool := false
  detachedTxProtocolVersion : ℕ := 0
  keyUpdateRequests : ℕ := 0
  legacySessionId : Bytes := []
  keyShareCtx : Option KeyExchangeContext := none
  offeredPsk : Bool := false
  usingEarlyData : Bool := false
  certificateRequest : CertificateRequest := {}
  pendingTrafficSecret : Bytes := []
  earlyDataSkippedBytes : ℕ := 0
  numTicketsToSend : ℕ := 0
  asyncJob : Bool := false
  certificateVerifyCb : Bool := false
  pendingHandshakeSecret : Option Bytes := none

/-- The server name that a client's certificate verifier is given. -/
def Tls.verifiedName (tls : Tls) : Option Bytes :=
  if tls.isServer then none
  else if tls.ech.state = .offered then tls.ech.publicName
  else tls.serverName

/-- What a secret was derived from. -/
inductive KdfInput where
  /-- A secret of the key schedule, a label, and a transcript hash. -/
  | schedule (algo : HashAlgorithm) (secret : Bytes) (label : Label) (context : Bytes)
  /-- A secret received from another connection object. -/
  | imported (secret : Bytes)
  deriving DecidableEq

/-- The steps of a run that statements refer to. -/
inductive Event where
  /-- A secret was derived. -/
  | derive (input : KdfInput) (output : Bytes)
  /-- A verification tag was computed from a base secret over a transcript. -/
  | finishedMac (algo : HashAlgorithm) (secret transcript output : Bytes)
  /-- A traffic key was installed for sending. -/
  | installEnc (secret : Bytes) (aead : AeadContext)
  /-- A record was encrypted under a traffic key. -/
  | encrypt (aead : AeadContext) (seq : ℕ) (plaintext : Bytes)
  /-- The client started its key schedule, from a pre-shared key if it offers one. -/
  | startSchedule (psk : Option (HashAlgorithm × Bytes))
  /-- A ClientHello was handed to the record layer, with the PSK it offers. -/
  | clientHello (echState : EchState) (psk : Option (HashAlgorithm × Bytes)) (message : Bytes)
  /-- A ServerHello or HelloRetryRequest was handed to the client. -/
  | hello (message : Bytes)
  /-- The client selected the cipher suite of a hello in its key schedule. -/
  | selectCipher (before : List HashSlot) (suite : CipherSuite) (after : List HashSlot)
  /-- The client derived the handshake secret from its early secret. -/
  | acceptServerHello (isPsk : Bool) (algo : HashAlgorithm) (earlySecret : Bytes)
  /-- The certificate verifier was called. -/
  | verifyCertificate (echState : EchState) (serverName : Option Bytes)
  /-- A handshake message was handed to the record layer. -/
  | sent (message : Bytes)
  /-- A handshake message was delivered. -/
  | received (message : Bytes)
  /-- The server passed over a record of early data, or refused to pass over any more. -/
  | skipEarlyData (length : ℕ) (tolerated : Bool)
  /-- The server rejected the early data that a hello announced. -/
  | rejectEarlyData
  /-- The server sealed a resumption secret into a ticket. -/
  | sealTicket (psk : Bytes)
  /-- The client saved the resumption secret of a ticket. -/
  | saveTicket (psk : Bytes)
  /-- A ClientHello entered the transcript; while an offer of ECH is open, the outer hello entered a
  transcript of its own. -/
  | absorbHello (hello : Bytes) (outer : Option Bytes)
  /-- A message of the peer entered the transcript. -/
  | absorbMessage (message : Bytes)
  /-- The server restored the transcript of an earlier connection from a cookie. -/
  | absorbCookie (ch1Hash hrr : Bytes)
  /-- The client decided whether a hello confirms ECH, given its transcript up to the hello. -/
  | decideEch (accepted : Bool) (label : Label) (innerRandom : Bytes) (slot : Option HashSlot)
      (message : Bytes)
  /-- A shared secret was computed from a key share of the peer. -/
  | exchangeKeys (peerkey secret : Bytes)
  /-- The handshake secret was extracted from a schedule, and from a shared secret if there is
  one. -/
  | deriveHandshake (isPsk : Bool) (early : KeySchedule) (shared secret : Option Bytes)
  /-- A certificate chain of the peer was accepted, by the verifier if there is one. -/
  | acceptChain (verified : Bool) (certs : List Bytes)
  /-- A CertificateVerify was accepted, by the callback of the verifier if there is one. -/
  | acceptSignature (verified : Bool) (signdata : Bytes)
  /-- The tag of a Finished fits a secret and the transcript of a slot. -/
  | acceptFinished (slot : HashSlot) (secret message : Bytes)
  /-- The binder of a pre-shared key fits the hello. -/
  | acceptBinder
  /-- The server installed a key for early data. -/
  | acceptEarlyData (aead : Option AeadContext)
  /-- Plaintext was handed to the application. -/
  | deliver (state : State) (aead : Option AeadContext) (octets : Bytes)
  /-- A new secret was put into use for receiving. -/
  | changeReceiveKey
  /-- A message was handled, with what follows it in its record and whether the key for receiving
  was changed. -/
  | handled (message rest : Bytes) (keyChanged : Bool)
  deriving DecidableEq

/-- Why a procedure stopped. -/
inductive Fault where
  | code (code : Code)
  | assertion
  | undefined
  deriving DecidableEq

/-- An answer other than zero of the application that was told about an extension. -/
structure Refusal where
  state : State
  hstype : UInt8
  exttype : ℕ
  code : Code
  deriving DecidableEq

/-- One endpoint at run time. -/
structure Session where
  tls : Tls
  /-- The sender detached from the connection, a connection object of its own. -/
  tx : Option Tls := none
  sendbuf : Bytes := []
  decryptbuf : Bytes := []
  /-- How much of the input of the current call has been taken. -/
  consumed : ℕ := 0
  epochOffsets : List ℕ := []
  report : HandshakeReport := {}
  tick : ℕ := 0
  draws : ℕ := 0
  trace : List Event := []
  refusals : List Refusal := []

/-- A procedure of the library. -/
abbrev Proc := Procedure Environment Session Fault

/-- What the handler of a handshake message returns when it does not fail. -/
inductive Progress where
  | done
  | inProgress
  deriving DecidableEq

/-! ## Primitive steps -/

/-- Stop with a return code. -/
def throwCode {α : Type} (code : Code) : Proc α := Procedure.fail (.code code)

/-- Stop with a return code if a condition holds. -/
def throwIf (condition : Prop) [Decidable condition] (code : Code) : Proc Unit :=
  if condition then throwCode code else pure ()

/-- Stop with a failed assertion unless a condition holds. -/
def assert (condition : Bool) : Proc Unit :=
  if condition then pure () else Procedure.fail .assertion

/-- Follow a pointer; a null pointer is undefined behaviour. -/
def deref {α : Type} : Option α → Proc α
  | some a => pure a
  | none => Procedure.fail .undefined

/-- Read the connection object. -/
def getTls : Proc Tls := Procedure.observe fun _ s => s.tls

/-- Update the connection object. -/
def modifyTls (f : Tls → Tls) : Proc Unit :=
  Procedure.update fun _ s => { s with tls := f s.tls }

/-- Append a step to the history. -/
def emitEvent (event : Event) : Proc Unit :=
  Procedure.update fun _ s => { s with trace := s.trace ++ [event] }

/-- Take down that the application refuses an extension. -/
def noteRefusal (hstype : UInt8) (exttype : ℕ) (code : Code) : Proc Unit :=
  Procedure.update fun _ s =>
    { s with refusals := s.refusals ++ [⟨s.tls.state, hstype, exttype, code⟩] }

/-- Update what the handshake reports to the application. -/
def modifyReport (f : HandshakeReport → HandshakeReport) : Proc Unit :=
  Procedure.update fun _ s => { s with report := f s.report }

/-- Ask the environment a question; every question gets its own number. -/
def ask {α : Type} (question : Environment → ℕ → α) : Proc α := do
  let answer ← Procedure.observe fun env s => question env s.tick
  Procedure.update fun _ s => { s with tick := s.tick + 1 }
  return answer

/-- Draw random octets. -/
def randomBytes (len : ℕ) : Proc Bytes := do
  let octets ← Procedure.observe fun env s => env.randomBytes s.draws len
  Procedure.update fun _ s => { s with draws := s.draws + 1 }
  return octets

/-- Allocate memory, or fail. -/
def allocate : Proc Unit := do
  let ok ← ask Environment.alloc
  if ok then pure () else throwCode Error.noMemory

/-- Fail with a code returned by a callback unless it is zero. -/
def checkCode (code : Code) : Proc Unit :=
  if code = 0 then pure () else throwCode code

/-- Run a procedure and return its code if it fails with one. -/
def attemptCode {α : Type} (body : Proc α) : Proc (Except Code α) := do
  let result ← Procedure.attempt body
  match result with
  | .ok a => return .ok a
  | .error (.code code) => return .error code
  | .error fault => Procedure.fail fault

/-- Lift a fallible answer whose failures are return codes. -/
def ofAnswer {α : Type} : Except Code α → Proc α
  | .ok a => pure a
  | .error code => throwCode code

/-- Run a step on a value that may be absent. -/
def whenSome {α : Type} (value : Option α) (step : α → Proc Unit) : Proc Unit :=
  match value with
  | some a => step a
  | none => pure ()

/-! ## Successful runs of primitive steps -/

section Runs

variable {α : Type} {env : Environment} {s s' : Session}

@[simp] theorem throwCode_run (code : Code) :
    (throwCode code : Proc α) env s = (.error (.code code), s) := rfl

@[simp] theorem getTls_run : getTls env s = (.ok s.tls, s) := rfl

@[simp] theorem modifyTls_run (f : Tls → Tls) :
    modifyTls f env s = (.ok (), { s with tls := f s.tls }) := rfl

@[simp] theorem emitEvent_run (event : Event) :
    emitEvent event env s = (.ok (), { s with trace := s.trace ++ [event] }) := rfl

@[simp] theorem ask_run (question : Environment → ℕ → α) :
    ask question env s = (.ok (question env s.tick), { s with tick := s.tick + 1 }) := rfl

@[simp] theorem randomBytes_run (len : ℕ) :
    randomBytes len env s = (.ok (env.randomBytes s.draws len), { s with draws := s.draws + 1 }) :=
  rfl

@[simp] theorem throwIf_eq_ok {c : Prop} [Decidable c] {code : Code} {u : Unit} :
    throwIf c code env s = (.ok u, s') ↔ ¬ c ∧ s' = s := by
  by_cases hc : c <;> simp [throwIf, hc, eq_comm]

@[simp] theorem assert_eq_ok {c : Bool} {u : Unit} :
    assert c env s = (.ok u, s') ↔ c = true ∧ s' = s := by
  cases c <;> simp [assert, eq_comm]

@[simp] theorem deref_eq_ok {o : Option α} {a : α} :
    deref o env s = (.ok a, s') ↔ o = some a ∧ s' = s := by
  cases o <;> simp [deref, eq_comm]

/-- A run that got past a check. -/
theorem throwIf_bind_eq_ok {c : Prop} [Decidable c] {code : Code} {f : Unit → Proc α} {a : α}
    (h : (throwIf c code >>= f) env s = (.ok a, s')) : ¬ c ∧ f () env s = (.ok a, s') := by
  obtain ⟨_, s₁, hcheck, hrest⟩ := Procedure.bind_eq_ok.mp h
  obtain ⟨hnot, rfl⟩ := throwIf_eq_ok.mp hcheck
  exact ⟨hnot, hrest⟩

/-- A run that got past a pointer. -/
theorem deref_bind_eq_ok {β : Type} {o : Option β} {f : β → Proc α} {a : α}
    (h : (deref o >>= f) env s = (.ok a, s')) : ∃ b, o = some b ∧ f b env s = (.ok a, s') := by
  obtain ⟨b, s₁, hderef, hrest⟩ := Procedure.bind_eq_ok.mp h
  obtain ⟨hsome, rfl⟩ := deref_eq_ok.mp hderef
  exact ⟨b, hsome, hrest⟩

/-- What an attempt returns depends on how its body ends. -/
theorem attemptCode_run (body : Proc α) :
    attemptCode body env s = (match (body env s).1 with
      | .ok a => .ok (.ok a)
      | .error (.code code) => .ok (.error code)
      | .error fault => .error fault, (body env s).2) := by
  unfold attemptCode
  rw [Procedure.attempt_bind]
  rcases body env s with ⟨(code | _ | _) | a, t⟩ <;> rfl

/-- What was attempted returned. -/
theorem attemptCode_eq_ok {body : Proc α} {a : α} {t : Session} :
    attemptCode body env s = (.ok (.ok a), t) ↔ body env s = (.ok a, t) := by
  rw [attemptCode_run]
  rcases body env s with ⟨(code | _ | _) | b, u⟩ <;> simp

theorem allocate_run :
    allocate env s = (if env.alloc s.tick then .ok () else .error (.code Error.noMemory),
      { s with tick := s.tick + 1 }) := by
  simp only [allocate, Procedure.bind_run, ask_run]
  cases env.alloc s.tick <;> rfl

@[simp] theorem allocate_eq_ok {u : Unit} :
    allocate env s = (.ok u, s') ↔
      env.alloc s.tick = true ∧ s' = { s with tick := s.tick + 1 } := by
  rw [allocate_run]
  cases env.alloc s.tick
  · simp
  · simpa using eq_comm

variable {β : Type}

theorem getTls_bind (f : Tls → Proc β) : (getTls >>= f) env s = f s.tls env s := rfl

theorem modifyTls_bind (g : Tls → Tls) (f : Unit → Proc β) :
    (modifyTls g >>= f) env s = f () env { s with tls := g s.tls } := rfl

theorem emitEvent_bind (event : Event) (f : Unit → Proc β) :
    (emitEvent event >>= f) env s = f () env { s with trace := s.trace ++ [event] } := rfl

theorem ask_bind (question : Environment → ℕ → α) (f : α → Proc β) :
    (ask question >>= f) env s = f (question env s.tick) env { s with tick := s.tick + 1 } := rfl

theorem randomBytes_bind (len : ℕ) (f : Bytes → Proc β) :
    (randomBytes len >>= f) env s =
      f (env.randomBytes s.draws len) env { s with draws := s.draws + 1 } := rfl

theorem throwIf_bind_of_not {c : Prop} [Decidable c] {code : Code} (hc : ¬ c) (f : Unit → Proc β) :
    (throwIf c code >>= f) env s = f () env s := by
  rw [throwIf, if_neg hc]
  rfl

theorem throwIf_bind_of {c : Prop} [Decidable c] {code : Code} (hc : c) (f : Unit → Proc β) :
    (throwIf c code >>= f) env s = (.error (.code code), s) := by
  rw [throwIf, if_pos hc]
  rfl

theorem assert_bind (c : Bool) (f : Unit → Proc β) :
    (assert c >>= f) env s = if c then f () env s else (.error .assertion, s) := by
  cases c <;> rfl

theorem deref_some_bind (a : α) (f : α → Proc β) : (deref (some a) >>= f) env s = f a env s := rfl

end Runs

/-! ## Output buffers -/

/-- The write offset of the output buffer. -/
def sendbufOff : Proc ℕ := Procedure.observe fun _ s => s.sendbuf.length

/-- The contents of the output buffer. -/
def getSendbuf : Proc Bytes := Procedure.observe fun _ s => s.sendbuf

/-- Update the contents of the output buffer in place. -/
def modifySendbuf (f : Bytes → Bytes) : Proc Unit :=
  Procedure.update fun _ s => { s with sendbuf := f s.sendbuf }

/-- Append octets for which memory has been reserved. -/
def appendReserved (octets : Bytes) : Proc Unit := modifySendbuf (· ++ octets)

/-- Append octets to the output buffer. -/
def bufferPushv (octets : Bytes) : Proc Unit :=
  if octets = [] then pure () else do
    allocate
    appendReserved octets

/-- Append a number in big-endian order. -/
def bufferPushUInt (width value : ℕ) : Proc Unit := bufferPushv (toBE width value)

/-- Append a block preceded by its length in `capacity` octets. -/
def bufferPushBlock {α : Type} (capacity : ℕ) (block : Proc α) : Proc α := do
  bufferPushv (zeros capacity)
  let bodyStart ← sendbufOff
  let result ← block
  let bodyEnd ← sendbufOff
  let bodySize := bodyEnd - bodyStart
  throwIf (256 ^ capacity ≤ bodySize) Error.blockOverflow
  modifySendbuf fun buf => overwrite buf (bodyStart - capacity) (toBE capacity bodySize)
  return result

/-- Append an extension. -/
def bufferPushExtension {α : Type} (type : ℕ) (block : Proc α) : Proc α := do
  bufferPushUInt 2 type
  bufferPushBlock 2 block

/-- Append a handshake message: its type and its body in a three-octet block. -/
def bufferPushMessage {α : Type} (type : UInt8) (block : Proc α) : Proc α := do
  bufferPushv [type]
  bufferPushBlock 3 block

/-- Run a procedure on a buffer of its own and return its result with what that buffer then
holds. -/
def withBuffer {α : Type} (initial : Bytes) (body : Proc α) : Proc (α × Bytes) := do
  let saved ← getSendbuf
  modifySendbuf fun _ => initial
  let result ← Procedure.attempt body
  let built ← getSendbuf
  modifySendbuf fun _ => saved
  match result with
  | .ok a => return (a, built)
  | .error fault => Procedure.fail fault

theorem withBuffer_run {α : Type} (initial : Bytes) (body : Proc α) (env : Environment)
    (s : Session) :
    withBuffer initial body env s =
      match body env { s with sendbuf := initial } with
      | (.ok a, t) => (.ok (a, t.sendbuf), { t with sendbuf := s.sendbuf })
      | (.error fault, t) => (.error fault, { t with sendbuf := s.sendbuf }) := by
  rcases hbody : body env { s with sendbuf := initial } with ⟨fault | a, t⟩ <;>
    simp [withBuffer, getSendbuf, modifySendbuf, Procedure.bind_run, hbody]

end Picotls
