import Picotls.Client.Transcript
import Picotls.ClientInvariants
import Picotls.Properties.StatelessRetry

/-!
# Transcripts after a retry

After a HelloRetryRequest there are three key schedules to compare: that of a fresh server object
that has restored the transcript from a cookie, that of a server that has kept its state, and that
of the client. The transcripts agree. The early secrets agree as well, unless the client offers a
session ticket: such a client keeps the secret of the ticket until it has seen the ServerHello.
-/

namespace Picotls

open Foundation Procedure

variable [Crypto] {env : Environment} {s t u : Session} {suite : CipherSuite} {hello hrr : Bytes}

/-! ## Key schedules after a retry -/

/-- The key schedule after a retry, field by field. -/
theorem retrySchedule_eq (suite : CipherSuite) (psk : Option Bytes) (transcript : Bytes) :
    retrySchedule suite psk transcript =
      { generation := 1
        secret := earlySecret suite.hash (psk.getD (zeros suite.hash.digestSize))
        hashes := [{ algo := suite.hash, ctx := transcript }] } := by
  have hsecret : (KeySchedule.extract { hashes := [{ algo := suite.hash, ctx := transcript }] }
      suite.hash psk).secret = earlySecret suite.hash (psk.getD (zeros suite.hash.digestSize)) :=
    extract_secret_of_new suite.hash psk rfl rfl
  rw [retrySchedule, ← hsecret]
  rfl

omit [Crypto] in
/-- A key schedule with one transcript is known from its parts. -/
theorem keySchedule_of_parts {algo : HashAlgorithm} {octets secret : Bytes} {generation : ℕ}
    (halgos : s.algos = some [algo]) (hsecret : s.secret = some (generation, secret))
    (hs : s.Absorbed octets) : s.tls.keySchedule = some
      { generation := generation, secret := secret,
        hashes := [{ algo := algo, ctx := octets }] } := by
  obtain ⟨sched, hsched, hhashes⟩ := Option.map_eq_some_iff.mp halgos
  obtain ⟨slot, hslot, halgo⟩ := List.map_eq_singleton_iff.mp hhashes
  obtain ⟨hctx, houter⟩ := hs sched hsched slot (by rw [hslot]; exact List.mem_singleton_self slot)
  rw [Session.secret, hsched] at hsecret
  obtain ⟨generation', secret', hashes⟩ := sched
  obtain ⟨algo', ctx, ctxOuter⟩ := slot
  dsimp only at hslot halgo hctx houter
  subst hslot halgo hctx houter
  cases hsecret
  exact hsched

/-! ## A server that keeps its state -/

/-- The part of the state that is kept before the HelloRetryRequest is written. -/
def keepHello (message : Bytes) : Proc Unit := do
  keyScheduleUpdateHash message false
  keyScheduleTransformPostCh1hash
  let tls ← getTls
  let _ ← attemptCode (keyScheduleExtract (tls.ctx.preSharedKey.map PreSharedKey.secret))

/-- With memory at hand, the hello is kept as its hash, and the early secret is made. -/
theorem keepHello_run (halloc : ∀ tick, env.alloc tick = true)
    (hschedule : u.tls.keySchedule = some { hashes := [{ algo := suite.hash }] }) :
    keepHello hello env u = (.ok (), { u with
      tls := u.tls.retried suite (ch1Transcript suite (Crypto.hash suite.hash hello))
      tick := u.tick + 1 }) := by
  have habsorb : keyScheduleUpdateHash hello false env u =
      (.ok (), { u with tls := u.tls.absorb hello }) := keyScheduleUpdateHash_run hello hschedule
  have hsched : (u.tls.absorb hello).keySchedule =
      some { hashes := [{ algo := suite.hash, ctx := hello }] } := by
    rw [Tls.absorb, hschedule]
    rfl
  have htransform : keyScheduleTransformPostCh1hash env { u with tls := u.tls.absorb hello } = _ :=
    keyScheduleTransformPostCh1hash_run hsched rfl
  rw [keepHello, bind_of_ok habsorb, bind_of_ok htransform, getTls_bind,
    bind_of_ok (attemptExtract_first halloc _ rfl rfl rfl)]
  rfl

/-- What becomes of the key schedule of a server that keeps its state over a retry, as a function of
the first hello and of the HelloRetryRequest. -/
def keepRetry (message hrr : Bytes) : Proc Unit := do
  keepHello message
  keyScheduleUpdateHash hrr false

/-- With memory at hand, a server that keeps its state has the key schedule after a retry. -/
theorem keepRetry_run (halloc : ∀ tick, env.alloc tick = true)
    (hschedule : u.tls.keySchedule = some { hashes := [{ algo := suite.hash }] }) :
    keepRetry hello hrr env u = (.ok (), { u with
      tls := u.tls.retried suite (ch1Transcript suite (Crypto.hash suite.hash hello) ++ hrr)
      tick := u.tick + 1 }) := by
  rw [keepRetry, bind_of_ok (keepHello_run halloc hschedule)]
  exact keyScheduleUpdateHash_run hrr rfl

/-- A server that asks for another hello without a cookie keeps its state as described. -/
theorem serverSendRetry_keeps {emitter : Emitter} {properties : Option HandshakeProperties}
    {ch : ClientHello} {missing : Bool} {progress : Progress}
    (halloc : ∀ tick, env.alloc tick = true) (hsuite : u.tls.cipherSuite = some suite)
    (hschedule : u.tls.keySchedule = some { hashes := [{ algo := suite.hash }] })
    (henc : u.tls.enc.aead = none) (hnone : u.trace.findSome? Event.sentMessage = none)
    (hcookie : properties.any HandshakeProperties.retryUsesCookie = false)
    (hech : u.tls.ech.state ≠ .accepted)
    (h : serverSendRetry emitter properties hello ch missing env u = (.ok progress, t)) :
    ∃ hrr w, t.trace.findSome? Event.sentMessage = some hrr ∧
      keepRetry hello hrr env u = (.ok (), w) ∧ t.tls.keySchedule = w.tls.keySchedule := by
  obtain ⟨hgroups, group, hgroup⟩ : ch.negotiatedGroups.isSome = true ∧ ∃ group,
      selectNegotiatedGroup (u.tls.ctx.keyExchanges.getD []) (ch.negotiatedGroups.getD []) =
        .ok group := by
    have hrun := h
    rw [serverSendRetry, getTls_bind] at hrun
    obtain ⟨_, s₁, hgroups, hrun⟩ := bind_eq_ok.mp hrun
    obtain ⟨group, s₂, hselect, -⟩ := bind_eq_ok.mp hrun
    refine ⟨?_, group, (liftM_eq_ok.mp hselect).1⟩
    simpa [Option.isSome_iff_ne_none] using (throwIf_eq_ok.mp hgroups).1
  have hfilter : properties.filter (fun p => p.retryUsesCookie && u.tls.ech.state ≠ .accepted) =
      none := by
    cases properties with
    | none => rfl
    | some properties =>
      have hno : properties.retryUsesCookie = false := hcookie
      simp [hno]
  have hsched : (u.absorbedHello hello).tls.keySchedule =
      some { hashes := [{ algo := suite.hash, ctx := hello }] } := by
    rw [Session.absorbedHello, Tls.absorb, hschedule]
    rfl
  set v : Session := { u with
    tls := u.tls.retried suite (ch1Transcript suite (Crypto.hash suite.hash hello))
    tick := u.tick + 1
    trace := u.trace ++ [.absorbHello hello none] } with hv
  have hkeep : (do
      keyScheduleTransformPostCh1hash
      let _ ← attemptCode (keyScheduleExtract (u.tls.ctx.preSharedKey.map PreSharedKey.secret)) :
        Proc Unit) env (u.absorbedHello hello) = (.ok (), v) := by
    rw [bind_of_ok (keyScheduleTransformPostCh1hash_run hsched rfl),
      bind_of_ok (attemptExtract_first halloc _ rfl rfl rfl)]
    rfl
  rw [serverSendRetry_absorbs _ hgroups hgroup hschedule, hfilter, serverEmitRetry, getTls_bind,
    runIf, if_pos (by rfl)] at h
  obtain ⟨_, s₁, hkept, h⟩ := bind_eq_ok.mp h
  cases hkeep.symm.trans hkept
  obtain ⟨hrr, s₂, hemit, h⟩ := bind_eq_ok.mp h
  rw [if_neg (show (u.absorbedHello hello).tls.ech.state ≠ .accepted from hech)] at hemit
  have hadditional (header : Bytes) (tick : ℕ) : Builds True env (v.appended v.tls header tick)
      ((pure none : Proc (Option ℕ)) env (v.appended v.tls header tick)) [] none v.tls :=
    Builds.value _ none
  obtain ⟨-, hhrr, tick, offs, rfl⟩ :=
    (emitHelloRetryRequest_emits hadditional hsuite henc rfl).returns hrr s₂ hemit
  rw [← hhrr] at h
  have hsent (more : List Event) :
      (v.trace ++ [Event.sent hrr] ++ more).findSome? Event.sentMessage = some hrr := by
    rw [List.findSome?_append, List.findSome?_append, hv, List.findSome?_append, hnone]
    rfl
  have hplain := hsent []
  rw [List.append_nil] at hplain
  cases hearly : ch.earlyDataIndication <;> rw [hearly] at h <;> cases h
  · exact ⟨hrr, _, hplain, keepRetry_run halloc hschedule, rfl⟩
  · exact ⟨hrr, _, hsent [.rejectEarlyData], keepRetry_run halloc hschedule, rfl⟩

/-! ## The client -/

/-- A client that sends its first hello. -/
structure HelloClient where
  env : Environment
  ctx : Context
  emitter : Emitter
  properties : Option HandshakeProperties
  start : Session

namespace HelloClient

variable {client : HelloClient}

/-- The client after it has sent its hello. -/
def sent (client : HelloClient) : Session :=
  (sendClientHello client.emitter client.properties none client.env client.start).2

/-- A new client sends a first hello without ECH. -/
structure Sends (client : HelloClient) (hello : Bytes) : Prop where
  start : client.start.IsNewClient client.ctx
  succeeds :
    (sendClientHello client.emitter client.properties none client.env client.start).1 = .ok ()
  ech : client.sent.tls.ech.state = .none
  message : client.sent.trace.findSome? Event.sentMessage = some hello

/-- The client after it has read a HelloRetryRequest, before it answers. -/
def retried (client : HelloClient) (hrr : Bytes) : Session :=
  (clientTakeRetry hrr client.env client.sent).2

/-- The client accepts a HelloRetryRequest. -/
def Takes (client : HelloClient) (hrr : Bytes) : Prop :=
  ∃ sh, (clientTakeRetry hrr client.env client.sent).1 = .ok sh

/-- The client's early secret is that of a session ticket for the given hash. -/
def UsesTicket (client : HelloClient) (hash : HashAlgorithm) : Prop :=
  client.sent.tls.offeredPsk = true ∧ client.ctx.preSharedKey = none ∧
    client.sent.algos.bind List.head? = some hash

/-- What is known of a client that has sent its hello. -/
theorem Sends.facts (h : client.Sends hello) :
    client.sent.tls.ctx = client.ctx ∧ client.sent.tls.ech.aead = none ∧
    client.sent.Absorbed hello ∧
    ∀ algo, client.sent.algos.bind List.head? = some algo → ¬ client.UsesTicket algo →
      client.sent.secret = some (1, earlySecret algo
        ((client.ctx.preSharedKey.map PreSharedKey.secret).getD (zeros algo.digestSize))) := by
  obtain ⟨htrace, -, clientRandom, sessionId, serverName, htls⟩ := h.start
  have hrun : sendClientHello client.emitter client.properties none client.env client.start =
      (.ok (), client.sent) := Prod.ext h.succeeds rfl
  have hschedule : client.start.tls.keySchedule = none := by rw [htls]; rfl
  have hctx₀ : client.start.tls.ctx = client.ctx := by rw [htls]; rfl
  rw [sendClientHello] at hrun
  obtain ⟨⟨isSecondFlight, psk, message⟩, s₁, hcompose, hrest⟩ := bind_eq_ok.mp hrun
  dsimp only at hrest
  rw [getTls_bind, emitEvent_bind, emitEvent_bind] at hrest
  have hcomposed : Via composeEffects client.start s₁ :=
    Within.steps inferInstance hcompose
  obtain ⟨u, htls₁, hsent₁, hlast⟩ : ∃ u : Session, u.tls = s₁.tls ∧
      u.trace = s₁.trace ++ [.clientHello s₁.tls.ech.state
        (psk.map fun psk => (psk.hash, psk.secret)) message, .sent message] ∧
      (beginEarlyData client.emitter isSecondFlight psk >>= fun _ =>
        modifyTls fun tls => { tls with state := .clientExpectServerHello }) client.env u =
          (.ok (), client.sent) := by
    refine ⟨_, ?_, ?_, hrest⟩
    · rfl
    · exact List.append_assoc _ _ _
  have hafter : Via [.io, .encSecret, .encClear, .encInstall, .misc,
      .state .clientExpectServerHello, .note .derive] u client.sent :=
    Within.steps inferInstance hlast
  have hctx : client.sent.tls.ctx = client.ctx := by
    rw [Steps.ctx_eq hafter (by decide), htls₁, Steps.ctx_eq hcomposed (by decide), hctx₀]
  have hech₁ : s₁.tls.ech = client.sent.tls.ech := by
    rw [Steps.ech_eq hafter (by decide), htls₁]
  obtain ⟨habsorbed, haead⟩ :=
    composeClientHello_absorbed hcompose hschedule (by rw [hech₁]; exact h.ech)
  have habsorbed' : u.Absorbed message := by
    intro sched hsched
    rw [htls₁] at hsched
    exact habsorbed sched hsched
  have hmessage : message = hello := by
    have hnone : s₁.trace.findSome? Event.sentMessage = none := by
      rw [Steps.findSome_sentMessage hcomposed (by decide), htrace]
      rfl
    have hsent := h.message
    rw [Steps.findSome_sentMessage hafter (by decide), hsent₁, List.findSome?_append,
      hnone] at hsent
    exact Option.some.inj hsent
  have hcomposes := composeClientHello_eq_ok hcompose
  refine ⟨hctx, ?_, ?_, fun algo halgo hticket => ?_⟩
  · rw [← hech₁]
    exact haead
  · rw [← hmessage]
    exact Steps.absorbed hafter (by decide) (by decide) habsorbed'
  · obtain ⟨algos, algo', halgos, hhead, hsecret⟩ := hcomposes.early hschedule
    have halgos' : client.sent.algos = some algos := by
      rw [Steps.algos_eq hafter (by decide), Session.algos, htls₁]
      exact halgos
    have hsecret' : client.sent.secret = s₁.secret := by
      rw [Steps.secret_eq hafter (by decide) (by decide), Session.secret, htls₁]
      rfl
    have hoffered : client.sent.tls.offeredPsk = s₁.tls.offeredPsk := by
      rw [(Steps.psk_eq hafter (by decide)).2, htls₁]
    have hsame : algo' = algo := by
      rw [halgos', Option.bind_some, hhead] at halgo
      exact Option.some.inj halgo
    rw [hsecret', hsecret, hsame]
    cases hexternal : client.ctx.preSharedKey with
    | some external =>
      have hpsk := hcomposes.external external (by rw [hctx₀]; exact hexternal)
      rw [hpsk]
      rfl
    | none =>
      -- no pre-shared key is offered, since it would be that of a ticket
      cases hpsk : psk with
      | none => rfl
      | some offered =>
        refine absurd ⟨?_, hexternal, halgo⟩ hticket
        rw [hoffered]
        exact hcomposes.offers hschedule (by rw [hpsk]; rfl)

/-- A client that has read a HelloRetryRequest has the transcript of the retry. It has the early
secret of the external pre-shared key, or of none, unless it uses a ticket. -/
theorem Sends.retried (h : client.Sends hello) (htakes : client.Takes hrr)
    (hsuite : ∀ cs, helloSuite client.ctx hrr = some cs → cs.hash = suite.hash) :
    (client.retried hrr).tls.keySchedule.map KeySchedule.hashes =
      some [{
        algo := suite.hash
        ctx := ch1Transcript suite (Crypto.hash suite.hash hello) ++ hrr }] ∧
    (¬ client.UsesTicket suite.hash → (client.retried hrr).tls.keySchedule =
      some (retrySchedule suite (client.ctx.preSharedKey.map PreSharedKey.secret)
        (ch1Transcript suite (Crypto.hash suite.hash hello) ++ hrr))) := by
  obtain ⟨hctx, haead, habsorbed, hearly⟩ := h.facts
  obtain ⟨sh, hok⟩ := htakes
  have hrun : clientTakeRetry hrr client.env client.sent = (.ok sh, client.retried hrr) :=
    Prod.ext hok rfl
  obtain ⟨cs, hcs, halgos, hretried, hsecret⟩ := clientTakeRetry_eq_ok hrun haead habsorbed
  rw [hctx] at hcs hsecret
  rw [hsuite cs hcs] at halgos hretried hsecret
  constructor
  · obtain ⟨⟨generation, secret⟩, hparts⟩ : ∃ parts, (client.retried hrr).secret = some parts := by
      obtain ⟨sched, hsched, -⟩ := Option.map_eq_some_iff.mp halgos
      exact ⟨_, by rw [Session.secret, hsched]; rfl⟩
    rw [keySchedule_of_parts halgos hparts hretried]
    rfl
  · intro hticket
    have hparts : (client.retried hrr).secret = some (1, earlySecret suite.hash
        ((client.ctx.preSharedKey.map PreSharedKey.secret).getD
          (zeros suite.hash.digestSize))) := by
      obtain ⟨hfirst, hkept⟩ | hreset := hsecret
      · rw [hkept]
        exact hearly suite.hash hfirst hticket
      · exact hreset
    rw [keySchedule_of_parts halgos hparts hretried, retrySchedule_eq]
    rfl

end HelloClient

/-! ## Agreement -/

namespace HelloCall

variable {issuer call : HelloCall} {key : HashAlgorithm × Bytes} {terms : CookieTerms}

/-- The session after a call has restored the transcript from a cookie, if it does. -/
def restored (call : HelloCall) : Option Session :=
  match call.reading with
  | (.ok (_, ch, some (algo, _)), u) => do
    let cookie ← ch.cookie
    match serverAcceptCookie call.emitter call.properties ch cookie algo call.env u with
    | (.ok _, v) => some v
    | _ => none
  | _ => none

end HelloCall

section Pair

variable {issuer call : HelloCall} {key : HashAlgorithm × Bytes} {terms : CookieTerms}
  {message₁ message₂ : Bytes} {ch₁ ch₂ : ClientHello}
  {keyShare₁ : Option (KeyExchangeAlgorithm × Bytes)} {algo group : KeyExchangeAlgorithm}
  {peerkey : Bytes} {u₁ u₂ : Session} {cookie : ClientHelloCookie}

/-- The HelloRetryRequest that is written once more is the one that was sent. -/
theorem HelloCall.RetryPair.rebuilt (h : HelloCall.RetryPair issuer call key terms message₁ message₂
    ch₁ ch₂ keyShare₁ algo peerkey u₁ u₂ suite group cookie)
    (hkey : u₁.tls.cookieKey issuer.properties = some key) :
    rebuiltRetry ch₂ suite algo cookie =
      cookieRetry u₁.tls issuer.properties suite group ch₁ message₁ keyShare₁.isNone := by
  have hwell := h.read₂.hello.cookie cookie h.presented
  have hall : cookie.all =
      retryCookie u₁.tls issuer.properties suite group message₁ keyShare₁.isNone := by
    rw [hwell.all, hwell.tbs, h.signature, h.ch1Hash, h.sentKeyShare, h.settled, retryCookie, hkey]
    rfl
  have hgroup : (if cookie.sentKeyShare then some algo else none : Option KeyExchangeAlgorithm) =
      if keyShare₁.isNone then some group else none := by
    rw [h.sentKeyShare]
    cases hshare : keyShare₁ with
    | none => rw [h.requested hshare]
    | some found => rfl
  rw [rebuiltRetry, cookieRetry, h.session, h.read₂.version, h.read₁.version, hall, hgroup]

/-- A call that restores the transcript has the key schedule after the retry, and goes on to answer
the hello. -/
theorem HelloCall.RetryPair.restored {v : Session} (h : HelloCall.RetryPair issuer call key terms
    message₁ message₂ ch₁ ch₂ keyShare₁ algo peerkey u₁ u₂ suite group cookie)
    (hmemory : ∀ tick, call.env.alloc tick = true) (hrestored : call.restored = some v) :
    serverHandleHello call.emitter call.message (some call.properties) call.env call.before =
      serverAnswerHello call.emitter message₂ ch₂ (some (algo, peerkey)) true
        (some call.properties) call.env v ∧
    v.tls.keySchedule = some (retrySchedule suite
      (u₁.tls.ctx.preSharedKey.map PreSharedKey.secret)
      (ch1Transcript suite (Crypto.hash suite.hash message₁) ++
        rebuiltRetry ch₂ suite algo cookie)) := by
  have henc : u₂.tls.enc.aead = none := by
    rw [h.read₂.enc]
    rfl
  rw [HelloCall.restored, h.reading₂] at hrestored
  dsimp only at hrestored
  rw [h.presented, Option.bind_eq_bind, Option.bind_some] at hrestored
  rcases haccept : serverAcceptCookie call.emitter call.properties ch₂ cookie algo call.env u₂
    with ⟨_ | _, v'⟩ <;> simp only [haccept] at hrestored
  · cases hrestored
  · cases hrestored
    refine ⟨HelloCall.answers_of_accepts h.reading₂ h.presented haccept, ?_⟩
    obtain ⟨-, tick, offs, rfl⟩ := (serverAcceptCookie_run hmemory h.read₂.cipherSuite
      h.read₂.schedule henc).1 v haccept
    rw [← h.ctx, ← h.ch1Hash]
    rfl

end Pair

/-- After a retry with a cookie, a fresh server object that gets the cookie back goes on with the
key schedule that the first object would have kept: that of a server which sends a HelloRetryRequest
without a cookie, as a function of what it sends. The object has the transcript of the client. It
has the early secret of the client as well, if both ends are configured with the same external
pre-shared key or with none, and the client does not use a session ticket for the hash of the
selected suite. It is assumed that memory is available, that the application treats the two hellos
alike, and that both ends mean the same hash by the number of a suite. -/
theorem retry_transcripts_agree {issuer call : HelloCall} {key : HashAlgorithm × Bytes}
    {terms : CookieTerms} {v : Session} (hissued : issuer.issued = some (key, terms, hrr))
    (hrepeats : call.Repeats issuer key terms) (hanswers : call.SameAnswers issuer)
    (hmemory : ∀ tick, call.env.alloc tick = true)
    (hmemory' : ∀ tick, issuer.env.alloc tick = true) (hrestored : call.restored = some v) :
    (∃ message ch keyShare,
      serverHandleHello call.emitter call.message (some call.properties) call.env call.before =
        serverAnswerHello call.emitter message ch keyShare true (some call.properties) call.env v) ∧
    (∃ w, keepRetry issuer.message hrr issuer.env issuer.reading.2 = (.ok (), w) ∧
      v.tls.keySchedule = w.tls.keySchedule) ∧
    (∀ properties ch missing progress t,
      properties.any HandshakeProperties.retryUsesCookie = false →
      serverSendRetry issuer.emitter properties issuer.message ch missing issuer.env
        issuer.reading.2 = (.ok progress, t) →
      ∃ sent w, t.trace.findSome? Event.sentMessage = some sent ∧
        keepRetry issuer.message sent issuer.env issuer.reading.2 = (.ok (), w) ∧
        t.tls.keySchedule = w.tls.keySchedule) ∧
    ∀ client : HelloClient, client.Sends issuer.message → client.Takes hrr →
      (∀ cs ∈ client.ctx.cipherSuites, ∀ suite ∈ issuer.settled.ctx.cipherSuites,
        cs.id = suite.id → cs.hash = suite.hash) →
      (∃ sh, ∀ emitter properties, clientHandleHello emitter hrr properties client.env client.sent =
        handleHelloRetryRequest emitter sh properties client.env (client.retried hrr)) ∧
      (client.retried hrr).tls.keySchedule.map KeySchedule.hashes =
        v.tls.keySchedule.map KeySchedule.hashes ∧
      (client.ctx.preSharedKey.map PreSharedKey.secret =
          issuer.settled.ctx.preSharedKey.map PreSharedKey.secret →
        (∀ suite, issuer.settled.cipherSuite = some suite → ¬ client.UsesTicket suite.hash) →
        (client.retried hrr).tls.keySchedule = v.tls.keySchedule) := by
  obtain ⟨message₁, message₂, ch₁, ch₂, keyShare₁, algo, peerkey, u₁, u₂, suite, group, cookie,
    hpair⟩ := hrepeats.pair hissued hanswers
  obtain ⟨message, ch, keyShare, u, group', suite', hread, hhello, hech, hgroup,
    hkey, -, -, hhrr⟩ :=
    HelloCall.issued_sent hissued
  cases hpair.reading₁.symm.trans hread
  obtain rfl : suite = suite' :=
    Option.some.inj (hpair.read₁.cipherSuite.symm.trans hhello.cipherSuite)
  obtain rfl : group = group' := Except.ok.inj (hpair.negotiated.symm.trans hgroup)
  have hmessage : message₁ = issuer.message :=
    serverReadHello_message issuer.before_first hpair.reading₁ hech
  have hsettled : issuer.settled = u₁.tls := by
    rw [HelloCall.settled, hpair.reading₁]
  have hsession : issuer.reading.2 = u₁ := by
    rw [hpair.reading₁]
  obtain ⟨hcontinues, hschedule⟩ := hpair.restored hmemory hrestored
  rw [hpair.rebuilt hkey, ← hhrr, hmessage] at hschedule
  refine ⟨⟨_, _, _, hcontinues⟩,
    ⟨_, keepRetry_run hmemory' (by rw [hsession]; exact hhello.schedule), ?_⟩, ?_, ?_⟩
  · rw [hschedule, hsession]
    rfl
  · intro properties ch missing progress t hcookie hsends
    rw [hsession] at hsends ⊢
    refine serverSendRetry_keeps hmemory' hhello.cipherSuite hhello.schedule ?_ ?_ hcookie
      hech hsends
    · rw [hhello.enc]
      rfl
    · rw [hhello.trace]
      rfl
  · intro client hsends htakes hhashes
    have hsessionId : ch₁.legacySessionId.length < 256 :=
      lt_of_le_of_lt hhello.hello.session (by decide)
    obtain ⟨hconfigured, hid⟩ := selectCipher_eq_ok hhello.selected
    obtain ⟨hretry, hnumber⟩ : helloIsRetry hrr = true ∧ helloCipherSuiteId hrr = suite.id := by
      rw [hhrr, cookieRetry]
      exact helloRetryRequest_read hsessionId hid
    have hsuite (cs : CipherSuite) (hcs : helloSuite client.ctx hrr = some cs) :
        cs.hash = suite.hash := by
      rw [helloSuite, hnumber] at hcs
      refine hhashes cs (List.mem_of_find?_eq_some hcs) suite
        (by rw [hsettled]; exact hconfigured) ?_
      simpa using List.find?_some hcs
    obtain ⟨htranscript, hsecret⟩ := hsends.retried htakes hsuite
    refine ⟨?_, ?_, fun hpsk hticket => ?_⟩
    · obtain ⟨sh, hok⟩ := htakes
      exact ⟨sh, fun emitter properties =>
        clientHandleHello_retry emitter properties hretry (Prod.ext hok rfl)⟩
    · rw [htranscript, hschedule, retrySchedule_eq]
      rfl
    · rw [hsecret (hticket suite (by rw [hsettled]; exact hhello.cipherSuite)), hschedule, hpsk,
        hsettled]

namespace Sample

/-- A session ticket for the first of the sample suites. -/
def storedTicket : Bytes :=
  zeros 8 ++ toBE 2 29 ++ toBE 2 0x1301 ++
    block 3 (zeros 4 ++ zeros 4 ++ block 1 [] ++ block 2 [1] ++ block 2 []) ++ block 2 [4, 5]

/-- A new client, which may have a session ticket. -/
def helloClient (resumes : Bool) : HelloClient where
  env := environment
  ctx := context
  emitter := .record
  properties := some { sessionTicket := if resumes then some storedTicket else none }
  start := (ptlsClientNew context environment (.initial context false)).2

/-- The cookie extension of the server. -/
def retryCookieExtension (resumes : Bool) : Bytes :=
  [0, 44] ++ block 2 (block 2 ([0, 4] ++ block 1 (if resumes then [71, 71] else [78, 78]) ++ [0] ++
    block 1 (if resumes then [225, 225] else [49, 49])))

/-- A hello of the client, with a cookie or without one. -/
def retryHello (resumes : Bool) (cookie binder : Bytes) : Bytes :=
  message HandshakeType.clientHello ([3, 3] ++ List.replicate helloRandomSize 1 ++ [0] ++
    block 2 [19, 1, 19, 2] ++ [1, 0] ++ block 2 (
      [0, 51] ++ block 2 (block 2 ([0, 29] ++ block 2 [7])) ++ [0, 43] ++
        block 2 (block 1 [3, 4]) ++
      [0, 13] ++ block 2 (block 2 [8, 5, 8, 4, 5, 3, 4, 3, 4, 1, 2, 1]) ++
      [0, 10] ++ block 2 (block 2 [0, 29]) ++ cookie ++
      if resumes then [0, 45] ++ block 2 (block 1 [0, 1]) ++
        [0, 41] ++ block 2 (block 2 (block 2 [1] ++ zeros 4) ++ block 2 (block 1 binder)) else []))

/-- The first hello of the client. -/
def firstHello (resumes : Bool) : Bytes := retryHello resumes [] [172, 172]

/-- The HelloRetryRequest that answers it. -/
def sentRetry (resumes : Bool) : Bytes :=
  Sample.hello helloRetryRandom 0x1301 ([0, 43] ++ block 2 [3, 4] ++ retryCookieExtension resumes)

/-- The second hello of the client. -/
def secondHello (resumes : Bool) : Bytes :=
  retryHello resumes (retryCookieExtension resumes) [76, 76]

/-- A call with a server that always asks for another hello. -/
def retryCall (message : Bytes) : HelloCall := { helloCall none message with
  properties := { cookieKey := some [1, 2], retryUsesCookie := true, enforceRetry := true } }

omit [Crypto] in
/-- All calls are to the same server. -/
theorem retryCall_same (message message' : Bytes) :
    (retryCall message).ctx = (retryCall message').ctx ∧
    (retryCall message).properties = (retryCall message').properties ∧
    (retryCall message).SameAnswers (retryCall message') :=
  ⟨rfl, rfl, fun _ _ _ _ _ => ⟨rfl, rfl⟩⟩

/-- The terms of the cookie. -/
def retryTerms (resumes : Bool) : CookieTerms where
  clientRandom := List.replicate helloRandomSize 1
  serverName := none
  cipherSuite := 0x1301
  group := 29
  additionalData := []
  ch1Hash := if resumes then [71, 71] else [78, 78]
  sentKeyShare := false

omit [Crypto] in
/-- The server answers the first hello with a cookie. -/
theorem retry_issued (resumes : Bool) :
    @HelloCall.issued crypto (retryCall (firstHello resumes)) =
      some ((hash 0, [1, 2]), retryTerms resumes, sentRetry resumes) := by
  cases resumes <;> decide +kernel

omit [Crypto] in
/-- The client repeats its hello with the cookie. -/
theorem retry_repeats (resumes : Bool) :
    @HelloCall.Repeats crypto (retryCall (secondHello resumes)) (retryCall (firstHello resumes))
      (hash 0, [1, 2]) (retryTerms resumes) := by
  have hrandom : (@HelloCall.settled crypto (retryCall (secondHello resumes))).clientRandom =
      (@HelloCall.settled crypto (retryCall (firstHello resumes))).clientRandom := by
    cases resumes <;> decide +kernel
  let shares := some (block 2 ([0, 29] ++ block 2 [7]))
  obtain ⟨hctx, hproperties, -⟩ := retryCall_same (secondHello resumes) (firstHello resumes)
  exact @HelloCall.Repeats.mk crypto _ _ _ _ hctx
    (congrArg HandshakeProperties.cookieKey hproperties)
    (congrArg HandshakeProperties.cookieAdditionalData hproperties) hrandom
    (@exists_repeats _ _ [] [19, 1, 19, 2] _ none shares shares _
      (by cases resumes <;> decide +kernel) (by cases resumes <;> decide +kernel)
      fun _ _ h₁ h₂ => h₂.trans h₁.symm)

omit [Crypto] in
/-- The client sends its first hello. -/
theorem retry_sends (resumes : Bool) :
    @HelloClient.Sends crypto (helloClient resumes) (firstHello resumes) := by
  have hsends : (@sendClientHello crypto (helloClient resumes).emitter
      (helloClient resumes).properties none (helloClient resumes).env
      (helloClient resumes).start).1 = .ok () := by
    cases resumes <;> decide +kernel
  have hsent : (@HelloClient.sent crypto (helloClient resumes)).tls.ech.state = .none ∧
      (@HelloClient.sent crypto (helloClient resumes)).trace.findSome? Event.sentMessage =
        some (firstHello resumes) := by
    cases resumes <;> decide +kernel
  obtain ⟨s, hrun, hnew⟩ := ptlsClientNew_run context environment
  have hstart : (helloClient resumes).start = s := congrArg Prod.snd hrun
  exact @HelloClient.Sends.mk crypto _ _ (hstart ▸ hnew) hsends hsent.1 hsent.2

omit [Crypto] in
/-- The client accepts the HelloRetryRequest. -/
theorem retry_takes (resumes : Bool) :
    @HelloClient.Takes crypto (helloClient resumes) (sentRetry resumes) := by
  have htakes : (@clientTakeRetry crypto (sentRetry resumes) (helloClient resumes).env
      (@HelloClient.sent crypto (helloClient resumes))).1.toOption.isSome = true := by
    cases resumes <;> decide +kernel
  rcases htaken : (@clientTakeRetry crypto (sentRetry resumes) (helloClient resumes).env
    (@HelloClient.sent crypto (helloClient resumes))).1 with fault | sh
  · rw [htaken] at htakes
    cases htakes
  · exact ⟨sh, htaken⟩

end Sample

open Sample

omit [Crypto] in
/-- A client that offers a session ticket keeps the early secret of the ticket. -/
theorem retry_secrets_differ :
    ∃ v, @HelloCall.issued crypto (retryCall (firstHello true)) =
        some ((Sample.hash 0, [1, 2]), retryTerms true, sentRetry true) ∧
      @HelloCall.Repeats crypto (retryCall (secondHello true))
        (retryCall (firstHello true)) (Sample.hash 0, [1, 2])
        (retryTerms true) ∧
      @HelloCall.restored crypto (retryCall (secondHello true)) = some v ∧
      @HelloClient.Sends crypto (helloClient true) (firstHello true) ∧
      @HelloClient.Takes crypto (helloClient true) (sentRetry true) ∧
      (@HelloClient.retried crypto (helloClient true)
        (sentRetry true)).tls.keySchedule ≠ v.tls.keySchedule := by
  have hserver : (@HelloCall.restored crypto (retryCall
      (secondHello true))).map Session.secret = some (some (1, [60, 60])) := by
    decide +kernel
  obtain ⟨v, hv, hsecret⟩ := Option.map_eq_some_iff.mp hserver
  have hclient : (@HelloClient.retried crypto (helloClient true)
      (sentRetry true)).secret = some (1, [128, 128]) := by
    decide +kernel
  refine ⟨v, retry_issued true, retry_repeats true, hv, retry_sends true,
    retry_takes true, fun hsame => ?_⟩
  rw [Session.secret, ← hsame] at hsecret
  cases hclient.symm.trans hsecret

omit [Crypto] in
/-- Without a session ticket the key schedules agree. -/
theorem retry_transcripts_agree_sample :
    ∃ v, @HelloCall.restored crypto (retryCall (secondHello false)) = some v ∧
      (@HelloClient.retried crypto (helloClient false)
        (sentRetry false)).tls.keySchedule = v.tls.keySchedule := by
  have hrestored : (@HelloCall.restored crypto (retryCall
      (secondHello false))).isSome = true := by
    decide +kernel
  obtain ⟨v, hv⟩ := Option.isSome_iff_exists.mp hrestored
  have hsettled : (@HelloCall.settled crypto (retryCall
      (firstHello false))).ctx.cipherSuites = context.cipherSuites ∧
      (@HelloCall.settled crypto (retryCall
        (firstHello false))).ctx.preSharedKey.map PreSharedKey.secret = none := by
    decide +kernel
  have hplain : (@HelloClient.sent crypto (helloClient false)).tls.offeredPsk =
      false := by
    decide +kernel
  refine ⟨v, hv, ((@retry_transcripts_agree crypto _ _ _ _ _ _ (retry_issued false)
    (retry_repeats false) (retryCall_same _ _).2.2 (fun _ => rfl) (fun _ => rfl) hv).2.2.2
    (helloClient false) (retry_sends false) (retry_takes false) ?_).2.2 ?_ ?_⟩
  · rw [hsettled.1]
    decide +kernel
  · rw [hsettled.2]
    rfl
  · rintro suite - ⟨hoffered, -⟩
    rw [hplain] at hoffered
    cases hoffered

end Picotls
