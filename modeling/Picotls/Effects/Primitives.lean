import Picotls.Connection

/-!
# Effects of procedures

What a procedure may change is described by a list of effects. Each effect stands for a kind of
elementary step: the part of the session that the step may change, and, where later arguments need
it, how. A procedure performs a list of effects if every run of it, failed runs included, is a
sequence of such steps. Whatever all steps of these effects preserve, the procedure preserves.
-/

namespace Picotls

open Foundation Procedure

variable {γ : Type}

/-- The kinds of steps in the history of a run. -/
inductive EventKind where
  | derive
  | finishedMac
  | installEnc
  | encrypt
  | startSchedule
  | clientHello
  | hello
  | selectCipher
  | acceptServerHello
  | verifyCertificate
  | sent
  | received
  | skipEarlyData
  | sealTicket
  | saveTicket
  | absorb
  | decideEch
  | exchange
  | handshakeSecret
  | authenticate
  | acceptEarly
  | deliver
  | changeKey
  | handled
  deriving DecidableEq

/-- The kind of a step in the history. -/
@[reducible] def Event.kind : Event → EventKind
  | .derive .. => .derive
  | .finishedMac .. => .finishedMac
  | .installEnc .. => .installEnc
  | .encrypt .. => .encrypt
  | .startSchedule .. => .startSchedule
  | .clientHello .. => .clientHello
  | .hello .. => .hello
  | .selectCipher .. => .selectCipher
  | .acceptServerHello .. => .acceptServerHello
  | .verifyCertificate .. => .verifyCertificate
  | .sent .. => .sent
  | .received .. => .received
  | .skipEarlyData .. | .rejectEarlyData => .skipEarlyData
  | .sealTicket .. => .sealTicket
  | .saveTicket .. => .saveTicket
  | .absorbHello .. | .absorbMessage .. | .absorbCookie .. => .absorb
  | .decideEch .. => .decideEch
  | .exchangeKeys .. => .exchange
  | .deriveHandshake .. => .handshakeSecret
  | .acceptChain .. | .acceptSignature .. | .acceptFinished .. => .authenticate
  | .acceptBinder | .acceptEarlyData .. => .acceptEarly
  | .deliver .. => .deliver
  | .changeReceiveKey => .changeKey
  | .handled .. => .handled

/-- The number that makes the next nonce: the explicit nonce of TLS 1.2 where the suite has one,
the sequence number otherwise. -/
def TrafficProtection.nonceCounter (tp : TrafficProtection) : ℕ :=
  if tp.tls12 ∧ (tp.aead.map (·.algo.recordIvSize)).getD 0 ≠ 0 then tp.tls12EncRecordIv else tp.seq

/-- The connection may hand plaintext to the application: after the handshake, as early data under
a key, or as data of TLS 1.2. -/
def Tls.Delivers (tls : Tls) : Prop :=
  tls.state.IsPostHandshake ∨ (tls.state = .serverExpectEndOfEarlyData ∧ tls.dec.aead.isSome) ∨
    tls.dec.tls12

/-- The message changes the key for receiving wherever it stands in a record. -/
def ChangesKeyAnywhere (message : Bytes) : Prop :=
  message.head? = some HandshakeType.keyUpdate ∨ message.head? = some HandshakeType.endOfEarlyData

/-- The effects of procedures. -/
inductive Effect where
  /-- The output of the caller, questions to the environment, and the report. -/
  | io
  /-- Random octets are drawn. -/
  | draw
  /-- Buffers of partial records and messages. -/
  | receive
  /-- Octets absorbed by the transcript hashes. -/
  | transcript
  /-- The key schedule advances by an extraction. -/
  | advance
  /-- The key schedule as a whole. -/
  | schedule
  /-- Protection of received records. -/
  | dec
  /-- The sequence number of received records. -/
  | decSeq
  /-- The secret and epoch of the sending direction. -/
  | encSecret
  /-- The sending key is removed. -/
  | encClear
  /-- A sending key derived from the current secret is installed. -/
  | encInstall
  /-- A record is encrypted. -/
  | encrypt
  /-- The keys of a connection are read from exported parameters. -/
  | importKeys
  /-- Server name and application protocol. -/
  | names
  /-- Random values, session identifier, and key share. -/
  | negotiation
  /-- The cipher suite. -/
  | suite
  /-- Whether a pre-shared key is offered or in use. -/
  | psk
  /-- The state of Encrypted ClientHello. -/
  | ech
  /-- Pending key updates. -/
  | keyUpdate
  /-- Early data and secrets that are put into use later. -/
  | earlyData
  /-- The server rejects early data, and begins to pass over it. -/
  | startSkip
  /-- A record of early data is counted. -/
  | skip
  /-- Exporter secrets, pending certificate requests, and other flags of the handshake. -/
  | misc
  /-- The handshake enters a state. -/
  | state (target : State)
  /-- The configuration is replaced by the application. -/
  | context
  /-- The sending side moves into an object of its own. -/
  | detach
  /-- The detached sender. -/
  | tx
  /-- The certificate verifier is called with the name that the connection asks for. -/
  | verify
  /-- Plaintext is handed to the application. -/
  | deliver
  /-- A message has been handled. -/
  | handled
  /-- The application refuses an extension. -/
  | refuse
  /-- A step of a kind enters the history. -/
  | note (kind : EventKind)
  deriving DecidableEq

/-- The elementary steps of an effect. -/
inductive Effect.Step : Effect → Session → Session → Prop
  | io (s : Session) (sendbuf : Bytes) (consumed : ℕ) (epochOffsets : List ℕ)
      (report : HandshakeReport) (tick : ℕ) :
    Effect.Step .io s { s with
      sendbuf := sendbuf, consumed := consumed, epochOffsets := epochOffsets, report := report
      tick := tick }
  | draw (s : Session) : Effect.Step .draw s { s with draws := s.draws + 1 }
  | receive (s : Session) (recvbufRec recvbufMess : Option Bytes) :
    Effect.Step .receive s { s with
      tls := { s.tls with recvbufRec := recvbufRec, recvbufMess := recvbufMess } }
  | transcript (s : Session) (sched : KeySchedule) (hashes : List HashSlot)
      (hsched : s.tls.keySchedule = some sched)
      (halgo : hashes.map HashSlot.algo = sched.hashes.map HashSlot.algo) :
    Effect.Step .transcript s { s with
      tls := { s.tls with keySchedule := some { sched with hashes := hashes } } }
  | advance (s : Session) (sched : KeySchedule) (secret : Bytes)
      (hsched : s.tls.keySchedule = some sched) :
    Effect.Step .advance s { s with
      tls := { s.tls with keySchedule := some { sched with
        generation := sched.generation + 1, secret := secret } } }
  | schedule (s : Session) (keySchedule : Option KeySchedule) :
    Effect.Step .schedule s { s with tls := { s.tls with keySchedule := keySchedule } }
  | dec (s : Session) (dec : TrafficProtection) :
    Effect.Step .dec s { s with tls := { s.tls with dec := dec } }
  | changeKey (s : Session) :
    Effect.Step .dec s { s with trace := s.trace ++ [.changeReceiveKey] }
  | decSeq (s : Session) (seq : ℕ) :
    Effect.Step .decSeq s { s with tls := { s.tls with dec := { s.tls.dec with seq := seq } } }
  | encSecret (s : Session) (secret : Bytes) (epoch : ℕ) :
    Effect.Step .encSecret s { s with
      tls := { s.tls with enc := { s.tls.enc with secret := secret, epoch := epoch } } }
  | encClear (s : Session) :
    Effect.Step .encClear s { s with tls := { s.tls with enc := { s.tls.enc with aead := none } } }
  | encInstall (s : Session) (aead : AeadContext) (seq : ℕ) (hash : HashAlgorithm)
      (hkey : .derive (.schedule hash s.tls.enc.secret .key []) aead.key ∈ s.trace) :
    Effect.Step .encInstall s { s with
      tls := { s.tls with enc := { s.tls.enc with aead := some aead, seq := seq } }
      trace := s.trace ++ [.installEnc s.tls.enc.secret aead] }
  | encrypt (s : Session) (aead : AeadContext) (plaintext : Bytes) (enc : TrafficProtection)
      (haead : s.tls.enc.aead = some aead) (haead' : enc.aead = some aead)
      (hsecret : enc.secret = s.tls.enc.secret) (htls12 : enc.tls12 = s.tls.enc.tls12)
      (hcounter : enc.nonceCounter = (s.tls.enc.nonceCounter + 1) % 2 ^ 64) :
    Effect.Step .encrypt s { s with
      tls := { s.tls with enc := enc }
      trace := s.trace ++ [.encrypt aead s.tls.enc.nonceCounter plaintext] }
  | importKeys (s : Session) (enc dec : TrafficProtection) :
    Effect.Step .importKeys s { s with tls := { s.tls with enc := enc, dec := dec } }
  | names (s : Session) (serverName negotiatedProtocol : Option Bytes) :
    Effect.Step .names s { s with
      tls := { s.tls with serverName := serverName, negotiatedProtocol := negotiatedProtocol } }
  | negotiation (s : Session) (clientRandom legacySessionId : Bytes)
      (keyShare : Option KeyExchangeAlgorithm) (keyShareCtx : Option KeyExchangeContext) :
    Effect.Step .negotiation s { s with
      tls := { s.tls with
        clientRandom := clientRandom, legacySessionId := legacySessionId, keyShare := keyShare
        keyShareCtx := keyShareCtx } }
  | suite (s : Session) (cipherSuite : Option CipherSuite) :
    Effect.Step .suite s { s with tls := { s.tls with cipherSuite := cipherSuite } }
  | psk (s : Session) (offeredPsk isPskHandshake : Bool) :
    Effect.Step .psk s { s with
      tls := { s.tls with offeredPsk := offeredPsk, isPskHandshake := isPskHandshake } }
  | ech (s : Session) (ech : Ech) : Effect.Step .ech s { s with tls := { s.tls with ech := ech } }
  | keyUpdate (s : Session) (needsKeyUpdate keyUpdateSendRequest : Bool) (keyUpdateRequests : ℕ)
      (hrequests : s.tls.txDetached = false → keyUpdateRequests ≤ s.tls.keyUpdateRequests) :
    Effect.Step .keyUpdate s { s with
      tls := { s.tls with
        needsKeyUpdate := needsKeyUpdate, keyUpdateSendRequest := keyUpdateSendRequest
        keyUpdateRequests := keyUpdateRequests } }
  | earlyData (s : Session) (usingEarlyData : Bool) (pendingTrafficSecret : Bytes)
      (pendingHandshakeSecret : Option Bytes) :
    Effect.Step .earlyData s { s with
      tls := { s.tls with
        usingEarlyData := usingEarlyData
        pendingTrafficSecret := pendingTrafficSecret
        pendingHandshakeSecret := pendingHandshakeSecret } }
  | startSkip (s : Session) :
    Effect.Step .startSkip s { s with
      tls := { s.tls with earlyDataSkippedBytes := 0 }
      trace := s.trace ++ [.rejectEarlyData] }
  | skip (s : Session) (length : ℕ) (hlength : length ≤ maxEncryptedRecordSize)
      (hskips : s.tls.earlyDataSkippedBytes ≠ uint32Max) :
    Effect.Step .skip s { s with
      tls := { s.tls with
        earlyDataSkippedBytes := (s.tls.earlyDataSkippedBytes + length) % 2 ^ 32 }
      trace := s.trace ++ [.skipEarlyData length
        ((s.tls.earlyDataSkippedBytes + length) % 2 ^ 32 ≤ maxEarlyDataSkipSize)] }
  | misc (s : Session) (exporterMasterSecretEarly exporterMasterSecretOneRtt : Option Bytes)
      (sendChangeCipherSpec : Bool) (certificateRequest : CertificateRequest)
      (numTicketsToSend : ℕ) (asyncJob certificateVerifyCb : Bool) :
    Effect.Step .misc s { s with
      tls := { s.tls with
        exporterMasterSecretEarly := exporterMasterSecretEarly
        exporterMasterSecretOneRtt := exporterMasterSecretOneRtt
        sendChangeCipherSpec := sendChangeCipherSpec, certificateRequest := certificateRequest
        numTicketsToSend := numTicketsToSend, asyncJob := asyncJob
        certificateVerifyCb := certificateVerifyCb } }
  | state (s : Session) (target : State) :
    Effect.Step (.state target) s { s with tls := { s.tls with state := target } }
  | context (s : Session) (ctx : Context) :
    Effect.Step .context s { s with tls := { s.tls with ctx := ctx } }
  | detach (s : Session) (tx : Tls) (version : ℕ) (hattached : s.tls.txDetached = false)
      (hpost : s.tls.state.IsPostHandshake) (haead : s.tls.enc.aead.isSome)
      (henc : tx.enc = s.tls.enc) (hstate : tx.state = s.tls.state)
      (hown : tx.txDetached = false) :
    Effect.Step .detach s { s with
      tx := some tx
      tls := { s.tls with
        enc := {}, needsKeyUpdate := false, keyUpdateSendRequest := false, txDetached := true
        detachedTxProtocolVersion := version } }
  | tx (s : Session) (tx : Option Tls) : Effect.Step .tx s { s with tx := tx }
  | verify (s : Session) :
    Effect.Step .verify s { s with
      trace := s.trace ++ [.verifyCertificate s.tls.ech.state s.tls.verifiedName] }
  | deliver (s : Session) (octets : Bytes) (hdelivers : s.tls.Delivers) :
    Effect.Step .deliver s { s with
      trace := s.trace ++ [.deliver s.tls.state s.tls.dec.aead octets] }
  | plaintext (s : Session) (decryptbuf : Bytes) :
    Effect.Step .deliver s { s with decryptbuf := decryptbuf }
  | handled (s : Session) (message rest : Bytes) (keyChanged : Bool)
      (hends : keyChanged → rest = [] ∨ ChangesKeyAnywhere message)
      (hchanges : ChangesKeyAnywhere message → keyChanged) :
    Effect.Step .handled s { s with trace := s.trace ++ [.handled message rest keyChanged] }
  | refuse (s : Session) (hstype : UInt8) (exttype : ℕ) (code : Code) :
    Effect.Step .refuse s { s with
      refusals := s.refusals ++ [⟨s.tls.state, hstype, exttype, code⟩] }
  | note (s : Session) (event : Event) :
    Effect.Step (.note event.kind) s { s with trace := s.trace ++ [event] }

/-- The second session comes from the first by steps of the given effects. -/
abbrev Via (E : List Effect) : Session → Session → Prop := Steps Effect.Step E

/-- Every run of the procedure consists of steps of the given effects. -/
abbrev Does (E : outParam (List Effect)) {α : Type} (m : Proc α) : Prop :=
  Performs Effect.Step E m

/-- The procedure keeps to the given effects. -/
abbrev Within (E : List Effect) {α : Type} (m : Proc α) : Prop := Respects (Steps Effect.Step E) m

-- the size of an instance counts a nested one once per enclosing sequence
variable {α β : Type} {E : List Effect} {m : Proc α} {env : Environment} {s s' : Session}
  {x : Except Fault α}

/-- A run of a procedure is a sequence of steps of its effects. -/
theorem Within.steps (h : Within E m) (hrun : m env s = (x, s')) : Via E s s' := by
  have hsteps := h.relates env s
  rwa [hrun] at hsteps

/-- A run keeps what every step of its effects keeps. -/
theorem Within.keeps {f : Session → γ} (h : Within E m) (hrun : m env s = (x, s'))
    (hf : ∀ e ∈ E, ∀ t t', Effect.Step e t t' → f t' = f t) : f s' = f s :=
  (h.steps hrun).preserves (P := fun t => f t = f s)
    (fun e he t t' hstep ht => (hf e he t t' hstep).trans ht) rfl

/-- Steps only add to the history. -/
theorem Steps.trace_prefix (h : Via E s s') : s.trace <+: s'.trace := by
  refine h.preserves (P := fun t => s.trace <+: t.trace) ?_ List.prefix_rfl
  intro e _ t t' hstep ht
  cases hstep <;> first | exact ht | exact ht.trans (List.prefix_append _ _)

/-! ## What steps leave alone -/

/-- The effect adds steps of a kind to the history. -/
def Effect.emits (kind : EventKind) : Effect → Bool
  | .encInstall => kind = .installEnc
  | .encrypt => kind = .encrypt
  | .verify => kind = .verifyCertificate
  | .deliver => kind = .deliver
  | .dec => kind = .changeKey
  | .handled => kind = .handled
  | .startSkip | .skip => kind = .skipEarlyData
  | .note kind' => kind = kind'
  | _ => false

/-- Steps of effects that add none of a kind leave those in the history alone. -/
theorem Steps.filter_kind (kind : EventKind) (h : Via E s s')
    (hE : ∀ e ∈ E, e.emits kind = false) :
    s'.trace.filter (·.kind = kind) = s.trace.filter (·.kind = kind) := by
  refine h.preserves (P := fun t => t.trace.filter (·.kind = kind) = s.trace.filter (·.kind = kind))
    (fun e he t t' hstep ht => ?_) rfl
  have he := hE e he
  have hother (event : Event) (hne : ¬ kind = event.kind) :
      (t.trace ++ [event]).filter (·.kind = kind) = t.trace.filter (·.kind = kind) := by
    simp [Ne.symm hne]
  rw [← ht]
  cases hstep with
  | encInstall | encrypt | verify | startSkip | skip | deliver | changeKey | handled | note =>
    exact hother _ (of_decide_eq_false he)
  | _ => rfl

/-- Steps that add no event of a kind leave what is read off those events alone. -/
theorem Steps.filterMap_eq (kind : EventKind) {f : Event → Option γ}
    (hf : ∀ event, event.kind ≠ kind → f event = none) (h : Via E s s')
    (hE : ∀ e ∈ E, e.emits kind = false) : s'.trace.filterMap f = s.trace.filterMap f := by
  have hfilter (trace : List Event) :
      trace.filterMap f = (trace.filter (·.kind = kind)).filterMap f := by
    rw [List.filterMap_filter]
    refine List.filterMap_congr fun event _ => ?_
    by_cases hkind : event.kind = kind
    · simp [hkind]
    · simp [hkind, hf event hkind]
  rw [hfilter, Steps.filter_kind kind h hE, ← hfilter]

/-- Steps of effects that add none of a kind leave those in the history alone. -/
theorem Steps.mem_trace (event : Event) (h : Via E s s')
    (hE : ∀ e ∈ E, e.emits event.kind = false) : event ∈ s'.trace ↔ event ∈ s.trace := by
  have hfilter := Steps.filter_kind event.kind h hE
  have hmem := congrArg (event ∈ ·) hfilter
  simpa using hmem

/-- What holds of the state, and of the states that the effects enter, holds of the state after the
steps. -/
theorem Steps.state_inv {P : State → Prop} (h : Via E s s')
    (hE : ∀ target, .state target ∈ E → P target) (hs : P s.tls.state) : P s'.tls.state := by
  refine h.preserves (P := fun t => P t.tls.state) (fun e he t t' hstep ht => ?_) hs
  cases hstep <;> first | exact ht | exact hE _ he

/-- The state is left alone by effects that enter none. -/
theorem Steps.state_eq (h : Via E s s') (hE : ∀ target, .state target ∉ E) :
    s'.tls.state = s.tls.state :=
  Steps.state_inv (P := (· = s.tls.state)) h (fun target he => absurd he (hE target)) rfl

/-- The state of Encrypted ClientHello is left alone by effects other than its own. -/
theorem Steps.ech_eq (h : Via E s s') (hE : .ech ∉ E) : s'.tls.ech = s.tls.ech := by
  refine h.preserves (P := fun t => t.tls.ech = s.tls.ech) (fun e he t t' hstep ht => ?_) rfl
  cases hstep <;> first | exact ht | exact absurd he hE

/-- A step that leaves the connection alone. -/
def Effect.IsQuiet : Effect → Bool
  | .io | .draw | .refuse | .note _ => true
  | _ => false

/-- A procedure with quiet effects leaves the connection alone. -/
theorem Within.tls_eq (h : Within E m) (hrun : m env s = (x, s')) (hquiet : ∀ e ∈ E, e.IsQuiet) :
    s'.tls = s.tls := by
  refine h.keeps hrun fun e he t t' hstep => ?_
  have he := hquiet e he
  cases hstep <;> first | rfl | simp [Effect.IsQuiet] at he

/-- A procedure declared with quiet effects leaves the connection alone. -/
theorem tls_eq_of_run [h : Does E m] (hrun : m env s = (x, s')) (hquiet : ∀ e ∈ E, e.IsQuiet) :
    s'.tls = s.tls :=
  Within.tls_eq h.steps hrun hquiet

/-- The first part of a sequence takes steps, and so does the rest wherever the first part ends. -/
theorem steps_seq {f : α → Proc β} {s₀ : Session} (hm : Via E s₀ (m env s).2)
    (hf : ∀ a s', m env s = (.ok a, s') → Via E s' (f a env s').2) :
    Via E s₀ ((m >>= f) env s).2 := by
  refine bind_cases (Q := fun p => Via E s₀ p.2) (fun e s' hrun => ?_)
    fun a s' hrun => ?_
  · rwa [hrun] at hm
  · rw [hrun] at hm
    exact hm.trans (hf a s' hrun)

/-- A sequence whose first part leaves the connection alone. -/
theorem steps_quiet (F : List Effect) {f : α → Proc β} [hm : Within F m] [hFE : Included F E]
    (hquiet : ∀ e ∈ F, e.IsQuiet)
    (hf : ∀ a s', m env s = (.ok a, s') → s'.tls = s.tls →
      Via E s' (f a env s').2) : Via E s ((m >>= f) env s).2 :=
  steps_seq ((hm.relates env s).mono hFE.subset) fun a s' hrun =>
    hf a s' hrun (hm.tls_eq hrun hquiet)

/-- An update that is one step of an effect. -/
theorem Does.update {e : Effect} {f : Environment → Session → Session}
    (h : ∀ env s, e.Step s (f env s)) : Does [e] (Procedure.update f : Proc Unit) :=
  ⟨⟨fun env s => .single ⟨e, List.mem_cons_self, h env s⟩⟩⟩

/-! ## Steps that change one part of the connection -/

instance (f g : Tls → Option Bytes) : Does [.receive] (modifyTls fun tls =>
    { tls with recvbufRec := f tls, recvbufMess := g tls }) :=
  Does.update fun _ s => .receive s (f s.tls) (g s.tls)

instance (f g : Tls → Option Bytes) : Does [.names] (modifyTls fun tls =>
    { tls with serverName := f tls, negotiatedProtocol := g tls }) :=
  Does.update fun _ s => .names s (f s.tls) (g s.tls)

instance (f g : Tls → Bytes) (h : Tls → Option KeyExchangeAlgorithm)
    (k : Tls → Option KeyExchangeContext) : Does [.negotiation] (modifyTls fun tls =>
    { tls with
      clientRandom := f tls, legacySessionId := g tls, keyShare := h tls, keyShareCtx := k tls }) :=
  Does.update fun _ s => .negotiation s (f s.tls) (g s.tls) (h s.tls) (k s.tls)

instance (f : Tls → Option CipherSuite) : Does [.suite] (modifyTls fun tls =>
    { tls with cipherSuite := f tls }) :=
  Does.update fun _ s => .suite s (f s.tls)

instance (f g : Tls → Bool) : Does [.psk] (modifyTls fun tls =>
    { tls with offeredPsk := f tls, isPskHandshake := g tls }) :=
  Does.update fun _ s => .psk s (f s.tls) (g s.tls)

instance (f : Tls → Ech) : Does [.ech] (modifyTls fun tls => { tls with ech := f tls }) :=
  Does.update fun _ s => .ech s (f s.tls)

instance (f g : Tls → Bool) : Does [.keyUpdate] (modifyTls fun tls =>
    { tls with needsKeyUpdate := f tls, keyUpdateSendRequest := g tls }) :=
  Does.update fun _ s =>
    .keyUpdate s (f s.tls) (g s.tls) s.tls.keyUpdateRequests fun _ => le_rfl

instance (f : Tls → Bool) (g : Tls → Bytes) (h : Tls → Option Bytes) :
    Does [.earlyData] (modifyTls fun tls =>
      { tls with
        usingEarlyData := f tls, pendingTrafficSecret := g tls
        pendingHandshakeSecret := h tls }) :=
  Does.update fun _ s => .earlyData s (f s.tls) (g s.tls) (h s.tls)

instance (f g : Tls → Option Bytes) (h : Tls → Bool) (k : Tls → CertificateRequest) (l : Tls → ℕ)
    (m n : Tls → Bool) : Does [.misc] (modifyTls fun tls =>
      { tls with
        exporterMasterSecretEarly := f tls, exporterMasterSecretOneRtt := g tls
        sendChangeCipherSpec := h tls, certificateRequest := k tls, numTicketsToSend := l tls
        asyncJob := m tls, certificateVerifyCb := n tls }) :=
  Does.update fun _ s =>
    .misc s (f s.tls) (g s.tls) (h s.tls) (k s.tls) (l s.tls) (m s.tls) (n s.tls)

instance : Does [.state target] (modifyTls fun tls => { tls with state := target }) :=
  Does.update fun _ s => .state s target

instance (c : Tls → Prop) [∀ tls, Decidable (c tls)] :
    Does [.state target, .state target'] (modifyTls fun tls =>
      { tls with state := if c tls then target else target' }) := by
  refine ⟨⟨fun env s => ?_⟩⟩
  by_cases hc : c s.tls
  · exact .single ⟨.state target, by simp, by simpa [modifyTls, hc] using .state s target⟩
  · exact .single ⟨.state target', by simp, by simpa [modifyTls, hc] using .state s target'⟩

instance : Does [.refuse] (noteRefusal hstype exttype code) :=
  Does.update fun _ s => .refuse s hstype exttype code

instance (event : Event) : Does [.note event.kind] (emitEvent event) :=
  Does.update fun _ s => .note s event

/-! ## Primitive steps -/

instance : Does [] (throwCode code : Proc α) := ⟨by unfold throwCode; infer_instance⟩

instance (c : Prop) [Decidable c] : Does [] (throwIf c code) :=
  ⟨by unfold throwIf; infer_instance⟩

instance : Does [] (assert c) := ⟨by unfold assert; infer_instance⟩

instance (o : Option α) : Does [] (deref o) := ⟨by cases o <;> (unfold deref; infer_instance)⟩

instance : Does [] getTls := ⟨by unfold getTls; infer_instance⟩

instance : Does [] (checkCode code) := ⟨by unfold checkCode; infer_instance⟩

instance (answer : Except Code α) : Does [] (ofAnswer answer) :=
  ⟨by cases answer <;> (unfold ofAnswer; infer_instance)⟩

instance : Does [.io] (modifyReport f) :=
  Does.update fun _ s => .io s s.sendbuf s.consumed s.epochOffsets (f s.report) s.tick

instance (question : Environment → ℕ → α) : Does [.io] (ask question) := by
  have htick : Does [.io] (Procedure.update fun _ s => { s with tick := s.tick + 1 } : Proc Unit) :=
    Does.update fun _ s =>
      .io s s.sendbuf s.consumed s.epochOffsets s.report (s.tick + 1)
  exact ⟨by unfold ask; infer_instance⟩

instance : Does [.draw] (randomBytes len) := by
  have hdraw : Does [.draw] (Procedure.update fun _ s => { s with draws := s.draws + 1 } :
      Proc Unit) := Does.update fun _ s => .draw s
  exact ⟨by unfold randomBytes; infer_instance⟩

instance : Does [.io] allocate := ⟨by unfold allocate; infer_instance⟩

section Combinators

variable {R : Session → Session → Prop} [IsPreorder Session R]

/-- A procedure without effects respects every preorder. -/
instance (priority := low) (m : Proc α) [h : Does [] m] : Respects R m where
  relates env s := by
    have hsteps : Via [] s (m env s).2 := h.steps.relates env s
    exact hsteps.preserves (P := fun t => R s t) (fun e he => absurd he List.not_mem_nil)
      (refl_of R s)

instance (c : Prop) [Decidable c] (step : Proc Unit) [Respects R step] :
    Respects R (runIf c step) := by
  unfold runIf
  infer_instance

instance (value : Option α) (step : α → Proc Unit) [∀ a, Respects R (step a)] :
    Respects R (whenSome value step) := by
  unfold whenSome
  cases value <;> infer_instance

instance (body : Proc α) [Respects R body] : Respects R (attemptCode body) := by
  have hresult : ∀ result : Except Fault α, Respects R (match result with
      | .ok a => pure (.ok a)
      | .error (.code code) => pure (.error code)
      | .error fault => Procedure.fail fault : Proc (Except Code α)) := by
    intro result
    split <;> infer_instance
  unfold attemptCode
  infer_instance

end Combinators

/-! ## Output buffers -/

instance : Does [] sendbufOff := ⟨by unfold sendbufOff; infer_instance⟩

instance : Does [] getSendbuf := ⟨by unfold getSendbuf; infer_instance⟩

instance : Does [.io] (modifySendbuf f) :=
  Does.update fun _ s => .io s (f s.sendbuf) s.consumed s.epochOffsets s.report s.tick

instance : Does [.io] (appendReserved octets) :=
  ⟨by unfold appendReserved; infer_instance⟩

instance : Does [.io] (bufferPushv octets) :=
  ⟨by unfold bufferPushv; infer_instance⟩

instance : Does [.io] (bufferPushUInt width value) :=
  ⟨by unfold bufferPushUInt; infer_instance⟩

instance [Listed .io E] (block : Proc α) [Within E block] :
    Within E (bufferPushBlock capacity block) := by
  unfold bufferPushBlock
  dsimp only
  infer_instance

instance [Listed .io E] (block : Proc α) [Within E block] :
    Within E (bufferPushExtension type block) := by
  unfold bufferPushExtension
  infer_instance

instance [Listed .io E] (block : Proc α) [Within E block] :
    Within E (bufferPushMessage type block) := by
  unfold bufferPushMessage
  infer_instance

instance [Listed .io E] (body : Proc α) [Within E body] : Within E (withBuffer initial body) := by
  have hresult : ∀ (result : Except Fault α) (built : Bytes), Within E (match result with
      | .ok a => pure (a, built)
      | .error fault => Procedure.fail fault : Proc (α × Bytes)) := by
    intro result built
    split <;> infer_instance
  unfold withBuffer
  infer_instance

end Picotls
