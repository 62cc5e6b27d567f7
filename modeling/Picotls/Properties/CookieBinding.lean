import Picotls.Server.FirstFlight
import Picotls.ServerInvariants
import Picotls.Sample

/-!
# Retry cookies bind the first flight

A server that answers a hello with a cookie forgets it. When the cookie comes back, a fresh server
object restores the transcript from it. Under the assumption that signatures cannot be forged, the
cookie was sent by a server with the same key in answer to a hello that agrees with the new one in
everything that the signature covers.
-/

namespace Picotls

open Foundation Procedure

variable [Crypto] {env : Environment} {s u : Session} {hrr : Bytes}

/-! ## Messages that were sent -/

/-- A message that was sent. -/
def Event.sentMessage : Event → Option Bytes
  | .sent message => some message
  | _ => none

omit [Crypto] in
/-- Steps of effects that send no message leave the first one that was sent alone. -/
theorem Steps.findSome_sentMessage {E : List Effect} (h : Via E s u)
    (hE : ∀ e ∈ E, e.emits .sent = false) :
    u.trace.findSome? Event.sentMessage = s.trace.findSome? Event.sentMessage := by
  have hfilter (trace : List Event) : (trace.filter (·.kind = .sent)).findSome? Event.sentMessage =
      trace.findSome? Event.sentMessage := by
    induction trace with
    | nil => rfl
    | cons event trace ih => cases event <;> first | exact ih | rfl
  rw [← hfilter, ← hfilter s.trace, Steps.filter_kind .sent h hE]

/-! ## Sending a cookie -/

/-- The session after the first hello has been absorbed. -/
def Session.absorbedHello (u : Session) (message : Bytes) : Session :=
  { u with tls := u.tls.absorb message, trace := u.trace ++ [.absorbHello message none] }

/-- The writer of the extensions that a HelloRetryRequest with a cookie adds. -/
def pushRetryCookie (properties : HandshakeProperties) (missing : Bool)
    (group : KeyExchangeAlgorithm) : Proc (Option ℕ) := do
  let confirmOff ← pure none
  whenSome (some properties) fun properties => pushCookieExtension properties missing group
  return confirmOff

section Sending

variable {emitter : Emitter} {properties : HandshakeProperties} {message : Bytes}
  {ch : ClientHello} {missing : Bool} {group : KeyExchangeAlgorithm} {suite : CipherSuite}
  {keyShare : Option (KeyExchangeAlgorithm × Bytes)}

/-- A server that asks for another hello absorbs the hello first. -/
theorem serverSendRetry_absorbs (properties : Option HandshakeProperties)
    (hgroups : ch.negotiatedGroups.isSome = true)
    (hgroup : selectNegotiatedGroup (u.tls.ctx.keyExchanges.getD [])
      (ch.negotiatedGroups.getD []) = .ok group)
    (hschedule : u.tls.keySchedule = some { hashes := [{ algo := suite.hash }] }) :
    serverSendRetry emitter properties message ch missing env u =
      serverEmitRetry emitter
        (properties.filter fun p => p.retryUsesCookie && u.tls.ech.state ≠ .accepted) ch missing
        group env (u.absorbedHello message) := by
  have hnone : ¬ ch.negotiatedGroups.isNone = true := by
    rw [← Option.not_isSome, hgroups]
    decide
  have hselect : (liftM (selectNegotiatedGroup (u.tls.ctx.keyExchanges.getD [])
      (ch.negotiatedGroups.getD [])) : Proc KeyExchangeAlgorithm) env u = (.ok group, u) :=
    liftM_eq_ok.mpr ⟨hgroup, rfl⟩
  have habsorb : keyScheduleUpdateHash message false env u =
      (.ok (), { u with tls := u.tls.absorb message }) :=
    keyScheduleUpdateHash_run message hschedule
  have hget : getKeySchedule env (u.absorbedHello message) =
      (.ok { hashes := [{ algo := suite.hash, ctx := message }] }, u.absorbedHello message) := by
    rw [getKeySchedule, getTls_bind, Session.absorbedHello, Tls.absorb, hschedule]
    rfl
  rw [serverSendRetry, getTls_bind, throwIf_bind_of_not hnone, bind_of_ok hselect,
    bind_of_ok habsorb, emitEvent_bind]
  change (getKeySchedule >>= _) env (u.absorbedHello message) = _
  rw [bind_of_ok hget]
  rfl

/-- A server that uses cookies absorbs the hello and sends the HelloRetryRequest. -/
theorem serverSendRetry_cookie
    (hgroups : ch.negotiatedGroups.isSome = true)
    (hgroup : selectNegotiatedGroup (u.tls.ctx.keyExchanges.getD [])
      (ch.negotiatedGroups.getD []) = .ok group)
    (hschedule : u.tls.keySchedule = some { hashes := [{ algo := suite.hash }] })
    (hcookie : properties.retryUsesCookie = true) (hech : u.tls.ech.state ≠ .accepted) :
    serverSendRetry emitter (some properties) message ch missing env u =
      (do
        let hrr ← emitHelloRetryRequest emitter ch (if missing then some group else none)
          (pushRetryCookie properties missing group)
        emitEvent (.sent hrr)
        pushChangeCipherSpec emitter
        throwCode Error.statelessRetry : Proc Progress) env (u.absorbedHello message) := by
  have hech' : (u.absorbedHello message).tls.ech.state ≠ .accepted := hech
  have hfilter : (some properties).filter (fun p => p.retryUsesCookie &&
      u.tls.ech.state ≠ .accepted) = some properties := by
    simp [hcookie, hech]
  rw [serverSendRetry_absorbs _ hgroups hgroup hschedule, hfilter, serverEmitRetry, getTls_bind]
  simp only [hech']
  rfl

/-- The writer of the message does not record it as sent. -/
theorem emitCookieRetry_sent (v : Session) :
    (emitHelloRetryRequest emitter ch (if missing then some group else none)
      (pushRetryCookie properties missing group) env v).2.trace.findSome? Event.sentMessage =
      v.trace.findSome? Event.sentMessage := by
  have hpush : Within [.io, .transcript, .encrypt, .note .derive]
      (pushRetryCookie properties missing group) := by
    unfold pushRetryCookie
    infer_instance
  have hwithin : Within [.io, .transcript, .encrypt, .note .derive] (emitHelloRetryRequest emitter
      ch (if missing then some group else none) (pushRetryCookie properties missing group)) :=
    inferInstance
  exact Steps.findSome_sentMessage (hwithin.relates env v) (by decide)

/-- The signed part of the cookie that answers a hello. -/
def retryTbs (suite : CipherSuite) (message : Bytes) (missing : Bool) : Bytes :=
  cookieTbs (Crypto.hash suite.hash message) missing

/-- The cookie extension that answers a hello. -/
def retryCookie (tls : Tls) (properties : HandshakeProperties) (suite : CipherSuite)
    (group : KeyExchangeAlgorithm) (message : Bytes) (missing : Bool) : Bytes :=
  cookieData (retryTbs suite message missing) (cookieSignature (tls.cookieKey properties)
    (tls.cookieBinding properties suite.id group.id (retryTbs suite message missing)))

/-- The HelloRetryRequest with a cookie that answers a hello. -/
def cookieRetry (tls : Tls) (properties : HandshakeProperties) (suite : CipherSuite)
    (group : KeyExchangeAlgorithm) (ch : ClientHello) (message : Bytes) (missing : Bool) : Bytes :=
  helloRetryRequest ch.legacySessionId suite.id ch.selectedVersion
    ((if missing then some group else none : Option KeyExchangeAlgorithm).map
      KeyExchangeAlgorithm.id)
    (encodeExtension ExtensionType.cookie (retryCookie tls properties suite group message missing))

/-- The HelloRetryRequest with a cookie is the function of the connection and the hello. -/
theorem emitCookieRetry_emits (hsuite : u.tls.cipherSuite = some suite)
    (hschedule : u.tls.keySchedule = some { hashes := [{ algo := suite.hash }] })
    (henc : u.tls.enc.aead = none) :
    Emits (((u.tls.cookieKey properties).isSome = true ∧ (u.tls.cookieBinding properties suite.id
          group.id (retryTbs suite message missing)).Fits) ∧
        RetryFits emitter (u.absorbedHello message) (u.tls.absorb message).forgetHello
          ch.legacySessionId suite.id ch.selectedVersion
          ((if missing then some group else none : Option KeyExchangeAlgorithm).map
            KeyExchangeAlgorithm.id)
          (encodeExtension ExtensionType.cookie
            (retryCookie u.tls properties suite group message missing))) env
      (u.absorbedHello message)
      (emitHelloRetryRequest emitter ch (if missing then some group else none)
        (pushRetryCookie properties missing group) env (u.absorbedHello message))
      (emitter.wrap (cookieRetry u.tls properties suite group ch message missing))
      (cookieRetry u.tls properties suite group ch message missing)
      ((u.tls.absorb message).forgetHello.absorb
        (cookieRetry u.tls properties suite group ch message missing)) := by
  have hsched : (u.tls.absorb message).keySchedule =
      some { hashes := [{ algo := suite.hash, ctx := message }] } := by
    rw [Tls.absorb, hschedule]
    rfl
  have hpush (w : Session) (hw : w.tls = u.tls.absorb message) :
      Builds ((u.tls.cookieKey properties).isSome = true ∧ (u.tls.cookieBinding properties suite.id
          group.id (retryTbs suite message missing)).Fits) env w
        (pushRetryCookie properties missing group env w)
        (encodeExtension ExtensionType.cookie
          (retryCookie u.tls properties suite group message missing)) none
        (u.tls.absorb message).forgetHello := by
    have hcookie (v : Session) (hv : v.tls = u.tls.absorb message) :
        Builds ((u.tls.cookieKey properties).isSome = true ∧ (u.tls.cookieBinding properties
            suite.id group.id (retryTbs suite message missing)).Fits) env v
          (pushCookieExtension properties missing group env v)
          (encodeExtension ExtensionType.cookie
            (retryCookie u.tls properties suite group message missing)) ()
          (u.tls.absorb message).forgetHello := by
      have hbuilds : Builds _ env v (pushCookieExtension properties missing group env v) _ ()
          v.tls.forgetHello :=
        pushCookieExtension_builds (by rw [hv]; exact hsuite) (by rw [hv]; exact hsched) rfl rfl
      rw [hv] at hbuilds
      exact hbuilds
    rw [pushRetryCookie]
    refine (Builds.value w none).seq fun tick => ?_
    exact (hcookie (w.appended w.tls [] tick) hw).andReturn fun tick' => rfl
  have hforgot : (u.tls.absorb message).forgetHello.keySchedule =
      some { hashes := [{ algo := suite.hash }] } := by
    rw [Tls.forgetHello, hsched]
    rfl
  exact emitHelloRetryRequest_emits (fun header tick => hpush _ rfl) hsuite henc hforgot

/-- A server accepts a cookie only with the signature of what it binds. -/
theorem serverAcceptCookie_signed {cookie : ClientHelloCookie} {v : Session}
    (hsuite : u.tls.cipherSuite = some suite)
    (h : serverAcceptCookie emitter properties ch cookie group env u = (.ok (), v)) :
    (u.tls.cookieBinding properties suite.id group.id cookie.tbs).Fits ∧
      cookie.signature = cookieSignature (u.tls.cookieKey properties)
        (u.tls.cookieBinding properties suite.id group.id cookie.tbs) := by
  rw [serverAcceptCookie] at h
  obtain ⟨signature, s₁, hsign, h⟩ := bind_eq_ok.mp h
  obtain ⟨⟨-, hfits⟩, rfl, -⟩ :=
    (calcCookieSignature_builds cookie.tbs hsuite).returns signature s₁ hsign
  obtain ⟨_, s₂, hcheck, -⟩ := bind_eq_ok.mp h
  exact ⟨hfits, not_not.mp (throwIf_eq_ok.mp hcheck).1⟩

end Sending

/-! ## Calls with a hello -/

/-- A call that hands a hello to a fresh server object. -/
structure HelloCall where
  env : Environment
  ctx : Context
  emitter : Emitter
  sendbuf : Bytes
  epochOffsets : List ℕ
  properties : HandshakeProperties
  message : Bytes

/-- What a cookie says, and what it is bound to. -/
structure CookieTerms where
  clientRandom : Bytes
  serverName : Option Bytes
  cipherSuite : ℕ
  group : ℕ
  additionalData : Bytes
  ch1Hash : Bytes
  sentKeyShare : Bool
  deriving DecidableEq

namespace CookieTerms

/-- The signed part of the cookie. -/
def tbs (terms : CookieTerms) : Bytes := cookieTbs terms.ch1Hash terms.sentKeyShare

/-- What the signature covers. -/
def binding (terms : CookieTerms) : CookieBinding where
  clientRandom := terms.clientRandom
  serverName := terms.serverName.getD []
  cipherSuite := terms.cipherSuite
  group := terms.group
  additionalData := terms.additionalData
  tbs := terms.tbs

end CookieTerms

/-- The terms of a cookie of a connection. -/
def Tls.cookieTerms (tls : Tls) (properties : HandshakeProperties) (suite group : ℕ)
    (ch1Hash : Bytes) (sentKeyShare : Bool) : CookieTerms where
  clientRandom := tls.clientRandom
  serverName := tls.serverName
  cipherSuite := suite
  group := group
  additionalData := properties.cookieAdditionalData
  ch1Hash := ch1Hash
  sentKeyShare := sentKeyShare

namespace HelloCall

/-- The session before the call. -/
def before (call : HelloCall) : Session :=
  { Session.newServer call.ctx with sendbuf := call.sendbuf, epochOffsets := call.epochOffsets }

/-- The session after the call. -/
def after (call : HelloCall) : Session :=
  (serverHandleHello call.emitter call.message (some call.properties) call.env call.before).2

/-- The hello as it is read before the server decides on a retry. -/
def reading (call : HelloCall) :
    Except Fault (Bytes × ClientHello × Option (KeyExchangeAlgorithm × Bytes)) × Session :=
  serverReadHello call.message (some call.properties) call.env call.before

/-- The cookie of the hello. -/
def presented (call : HelloCall) : Option ClientHelloCookie :=
  match call.reading with
  | (.ok (_, ch, _), _) => ch.cookie
  | _ => none

/-- The key and the terms of the cookie that the call accepts, if it takes that branch with
success. -/
def accepted (call : HelloCall) : Option ((HashAlgorithm × Bytes) × CookieTerms) :=
  match call.reading with
  | (.ok (_, ch, some (algo, _)), u) => do
    let cookie ← ch.cookie
    let suite ← u.tls.cipherSuite
    let key ← u.tls.cookieKey call.properties
    match serverAcceptCookie call.emitter call.properties ch cookie algo call.env u with
    | (.ok _, _) => return (key, u.tls.cookieTerms call.properties suite.id algo.id
        cookie.ch1Hash cookie.sentKeyShare)
    | _ => none
  | _ => none

/-- The key and the terms of the cookie that the call sends, and the HelloRetryRequest with it. -/
def issued (call : HelloCall) : Option ((HashAlgorithm × Bytes) × CookieTerms × Bytes) :=
  match call.reading with
  | (.ok (message, ch, keyShare), u) =>
    if ¬ (ch.cookie.isSome ∧ keyShare.isSome) ∧
        serverNeedsRetry u.tls ch keyShare (some call.properties) ∧
        call.properties.retryUsesCookie ∧ u.tls.ech.state ≠ .accepted then do
      let group ← (selectNegotiatedGroup (u.tls.ctx.keyExchanges.getD [])
        (ch.negotiatedGroups.getD [])).toOption
      let suite ← u.tls.cipherSuite
      let key ← u.tls.cookieKey call.properties
      let hrr ← call.after.trace.findSome? Event.sentMessage
      return (key, u.tls.cookieTerms call.properties suite.id group.id
        (Crypto.hash suite.hash message) keyShare.isNone, hrr)
    else none
  | _ => none

end HelloCall

/-! ## Terms are determined by what is signed -/

/-- The terms fit into the signed octets. -/
structure CookieTerms.Encodable (terms : CookieTerms) : Prop where
  fits : terms.binding.Fits
  cipherSuite : terms.cipherSuite < 256 ^ 2
  group : terms.group < 256 ^ 2

omit [Crypto] in
/-- Terms with the same signed octets agree, up to the difference between no name and the empty
one. -/
theorem CookieTerms.eq_of_encode {terms terms' : CookieTerms} (h : terms.Encodable)
    (h' : terms'.Encodable) (hencode : terms'.binding.encode = terms.binding.encode) :
    terms' = { terms with serverName := terms'.serverName } ∧
      terms'.serverName.getD [] = terms.serverName.getD [] := by
  have hbinding := CookieBinding.encode_inj h'.fits h.fits h'.cipherSuite h.cipherSuite h'.group
    h.group hencode
  have hhash {terms : CookieTerms} (h : terms.Encodable) : terms.ch1Hash.length < 256 := by
    have hlength : terms.tbs.length < 255 := h.fits.tbs
    rw [tbs, cookieTbs_length] at hlength
    omega
  obtain ⟨hch1, hsent⟩ := cookieTbs_inj (hhash h') (hhash h)
    (congrArg CookieBinding.tbs hbinding : terms'.tbs = terms.tbs)
  refine ⟨?_, congrArg CookieBinding.serverName hbinding⟩
  cases terms
  cases terms'
  simp_all [binding]

namespace HelloCall

variable {call : HelloCall} {key : HashAlgorithm × Bytes} {terms : CookieTerms}

/-- What a call knows that accepts a cookie. -/
theorem accepted_eq_some (h : call.accepted = some (key, terms)) :
    ∃ message ch algo peerkey u v cookie suite,
      call.reading = (.ok (message, ch, some (algo, peerkey)), u) ∧ ch.cookie = some cookie ∧
      u.tls.cipherSuite = some suite ∧ u.tls.cookieKey call.properties = some key ∧
      serverAcceptCookie call.emitter call.properties ch cookie algo call.env u = (.ok (), v) ∧
      terms = u.tls.cookieTerms call.properties suite.id algo.id cookie.ch1Hash
        cookie.sentKeyShare := by
  rw [accepted] at h
  rcases hread : call.reading with ⟨_ | ⟨message, ch, _ | ⟨algo, peerkey⟩⟩, u⟩ <;>
    simp only [hread] at h
  · cases h
  · cases h
  · obtain ⟨cookie, hcookie, h⟩ := Option.bind_eq_some_iff.mp h
    obtain ⟨suite, hsuite, h⟩ := Option.bind_eq_some_iff.mp h
    obtain ⟨key', hkey, h⟩ := Option.bind_eq_some_iff.mp h
    rcases haccept : serverAcceptCookie call.emitter call.properties ch cookie algo call.env u
      with ⟨_ | _, v⟩ <;> simp only [haccept] at h
    · cases h
    · cases h
      exact ⟨message, ch, algo, peerkey, u, v, cookie, suite, rfl, hcookie, hsuite, hkey, haccept,
        rfl⟩

/-- What a call knows that sends a cookie. -/
theorem issued_eq_some (h : call.issued = some (key, terms, hrr)) :
    ∃ message ch keyShare u group suite,
      call.reading = (.ok (message, ch, keyShare), u) ∧
      (¬ (ch.cookie.isSome ∧ keyShare.isSome) ∧
        serverNeedsRetry u.tls ch keyShare (some call.properties) ∧
        call.properties.retryUsesCookie ∧ u.tls.ech.state ≠ .accepted) ∧
      selectNegotiatedGroup (u.tls.ctx.keyExchanges.getD []) (ch.negotiatedGroups.getD []) =
        .ok group ∧
      u.tls.cipherSuite = some suite ∧ u.tls.cookieKey call.properties = some key ∧
      call.after.trace.findSome? Event.sentMessage = some hrr ∧
      terms = u.tls.cookieTerms call.properties suite.id group.id
        (Crypto.hash suite.hash message) keyShare.isNone := by
  rw [issued] at h
  rcases hread : call.reading with ⟨_ | ⟨message, ch, keyShare⟩, u⟩ <;> simp only [hread] at h
  · cases h
  · refine of_ite_eq h (fun hretry h => ?_) fun _ h => by cases h
    obtain ⟨group, hgroup, h⟩ := Option.bind_eq_some_iff.mp h
    obtain ⟨suite, hsuite, h⟩ := Option.bind_eq_some_iff.mp h
    obtain ⟨key', hkey, h⟩ := Option.bind_eq_some_iff.mp h
    obtain ⟨hrr', hsent, h⟩ := Option.bind_eq_some_iff.mp h
    cases h
    have hselect : selectNegotiatedGroup (u.tls.ctx.keyExchanges.getD [])
        (ch.negotiatedGroups.getD []) = .ok group := by
      cases hsel : selectNegotiatedGroup (u.tls.ctx.keyExchanges.getD [])
        (ch.negotiatedGroups.getD []) <;> rw [hsel] at hgroup <;> cases hgroup
      rfl
    exact ⟨message, ch, keyShare, u, group, suite, rfl, hretry, hselect, hsuite, hkey, hsent, rfl⟩

omit [Crypto] in
/-- A fresh object waits for a first hello. -/
theorem before_first (call : HelloCall) :
    call.before.tls.state ≠ .serverExpectSecondClientHello := by
  intro h
  cases h

/-- The call takes the branch of the cookie with success, and goes on to answer the hello. -/
def Continues (call : HelloCall) : Prop :=
  ∃ message ch algo peerkey u v cookie,
    call.reading = (.ok (message, ch, some (algo, peerkey)), u) ∧ ch.cookie = some cookie ∧
    serverAcceptCookie call.emitter call.properties ch cookie algo call.env u = (.ok (), v) ∧
    serverHandleHello call.emitter call.message (some call.properties) call.env call.before =
      serverAnswerHello call.emitter message ch (some (algo, peerkey)) true (some call.properties)
        call.env v

/-- A call that accepts the cookie of its hello goes on to answer the hello. -/
theorem answers_of_accepts {message peerkey : Bytes} {ch : ClientHello}
    {algo : KeyExchangeAlgorithm} {cookie : ClientHelloCookie} {v : Session}
    (hread : call.reading = (.ok (message, ch, some (algo, peerkey)), u))
    (hcookie : ch.cookie = some cookie)
    (haccept : serverAcceptCookie call.emitter call.properties ch cookie algo call.env u =
      (.ok (), v)) :
    serverHandleHello call.emitter call.message (some call.properties) call.env call.before =
      serverAnswerHello call.emitter message ch (some (algo, peerkey)) true (some call.properties)
        call.env v := by
  have hfirst : decide (call.before.tls.state = .serverExpectSecondClientHello) = false :=
    decide_eq_false call.before_first
  rw [serverHandleHello_run, bind_of_ok hread]
  dsimp only
  rw [serverDecideRetry, getTls_bind, hfirst, hcookie]
  exact bind_of_ok haccept

/-- A call for which a cookie counts as accepted continues. -/
theorem accepted_continues (h : call.accepted = some (key, terms)) : call.Continues := by
  obtain ⟨message, ch, algo, peerkey, u, v, cookie, suite, hread, hcookie, -, -, haccept, -⟩ :=
    accepted_eq_some h
  exact ⟨message, ch, algo, peerkey, u, v, cookie, hread, hcookie, haccept,
    answers_of_accepts hread hcookie haccept⟩

/-- A call that asks for another hello. -/
theorem after_retry {message : Bytes} {ch : ClientHello}
    {keyShare : Option (KeyExchangeAlgorithm × Bytes)}
    (hread : call.reading = (.ok (message, ch, keyShare), u))
    (hcookie : ¬ (ch.cookie.isSome ∧ keyShare.isSome))
    (hretry : serverNeedsRetry u.tls ch keyShare (some call.properties)) :
    call.after = (serverSendRetry call.emitter (some call.properties) message ch keyShare.isNone
      call.env u).2 := by
  have hfirst : decide (call.before.tls.state = .serverExpectSecondClientHello) = false :=
    decide_eq_false call.before_first
  rw [after, serverHandleHello_run, bind_of_ok hread]
  dsimp only
  rw [serverDecideRetry, getTls_bind, hfirst, hretry]
  cases hc : ch.cookie with
  | none => rfl
  | some cookie =>
    cases keyShare with
    | none => rfl
    | some found => simp [hc] at hcookie

omit [Crypto] in
/-- What was sent in a run that sends at most a HelloRetryRequest. -/
theorem sent_of_retry {emitter : Emitter} {write : Proc Bytes}
    (hwrite : (write env u).2.trace.findSome? Event.sentMessage = none)
    (hsent : ((do
        let hrr ← write
        emitEvent (.sent hrr)
        pushChangeCipherSpec emitter
        throwCode Error.statelessRetry : Proc Progress) env u).2.trace.findSome?
      Event.sentMessage = some hrr) : ∃ v, write env u = (.ok hrr, v) := by
  rcases hrun : write env u with ⟨fault | hrr', v⟩
  · rw [bind_of_error hrun] at hsent
    rw [hrun] at hwrite
    dsimp only at hwrite hsent
    rw [hwrite] at hsent
    cases hsent
  · rw [bind_of_ok hrun, emitEvent_bind] at hsent
    rw [hrun] at hwrite
    have hwithin : Within [.io, .misc] (pushChangeCipherSpec emitter >>= fun _ =>
        throwCode Error.statelessRetry : Proc Progress) := inferInstance
    rw [Steps.findSome_sentMessage (hwithin.relates env _) (by decide)] at hsent
    dsimp only at hwrite hsent
    rw [List.findSome?_append, hwrite] at hsent
    cases hsent
    exact ⟨v, rfl⟩

/-- What is known of a call that sends a cookie, the HelloRetryRequest included. -/
theorem issued_sent (h : call.issued = some (key, terms, hrr)) :
    ∃ message ch keyShare u group suite,
      call.reading = (.ok (message, ch, keyShare), u) ∧
      HelloRead (some call.properties) call.before u ch keyShare suite ∧
      u.tls.ech.state ≠ .accepted ∧
      selectNegotiatedGroup (u.tls.ctx.keyExchanges.getD []) (ch.negotiatedGroups.getD []) =
        .ok group ∧
      u.tls.cookieKey call.properties = some key ∧
      terms = u.tls.cookieTerms call.properties suite.id group.id
        (Crypto.hash suite.hash message) keyShare.isNone ∧
      terms.binding.Fits ∧
      hrr = cookieRetry u.tls call.properties suite group ch message keyShare.isNone := by
  obtain ⟨message, ch, keyShare, u, group, suite, hread, ⟨hnocookie, hretry, hcookies, hech⟩,
    hgroup, hsuite, hkey, hsent, rfl⟩ := issued_eq_some h
  obtain ⟨suite', hhello⟩ := serverReadHello_first call.before_first hread
  obtain rfl : suite' = suite := Option.some.inj (hhello.cipherSuite.symm.trans hsuite)
  have hgroups : ch.negotiatedGroups.isSome = true := by
    cases hnone : ch.negotiatedGroups with
    | some groups => rfl
    | none =>
      rw [hnone] at hgroup
      cases hgroup
  have henc : u.tls.enc.aead = none := by
    rw [hhello.enc]
    rfl
  rw [after_retry hread hnocookie hretry, serverSendRetry_cookie hgroups hgroup hhello.schedule
    hcookies hech] at hsent
  have hnone : (u.absorbedHello message).trace.findSome? Event.sentMessage = none := by
    rw [Session.absorbedHello, hhello.trace]
    rfl
  obtain ⟨v, hrun⟩ := sent_of_retry ((emitCookieRetry_sent _).trans hnone) hsent
  obtain ⟨⟨⟨-, hfits⟩, -⟩, rfl, -⟩ :=
    (emitCookieRetry_emits hsuite hhello.schedule henc).returns _ _ hrun
  exact ⟨message, ch, keyShare, u, group, suite', hread, hhello, hech, hgroup, hkey, rfl, hfits,
    rfl⟩

/-- A call that sends a cookie sends the HelloRetryRequest that carries the signature of its
terms. -/
theorem issued_retry (h : call.issued = some (key, terms, hrr)) :
    terms.Encodable ∧ ∃ sessionId version, hrr = helloRetryRequest sessionId terms.cipherSuite
      version (if terms.sentKeyShare then some terms.group else none)
      (encodeExtension ExtensionType.cookie
        (cookieData terms.tbs (hmac key.1 key.2 terms.binding.encode))) := by
  obtain ⟨message, ch, keyShare, u, group, suite, -, hhello, -, hgroup, hkey, rfl, hfits, rfl⟩ :=
    issued_sent h
  refine ⟨⟨hfits, (selectCipher_eq_ok hhello.selected).2, (selectNegotiatedGroup_eq_ok hgroup).2⟩,
    ch.legacySessionId, ch.selectedVersion, ?_⟩
  rw [cookieRetry, retryCookie, hkey]
  cases keyShare <;> rfl

/-- A call accepts a cookie that carries the signature of its terms. -/
theorem accepted_signed (h : call.accepted = some (key, terms)) :
    terms.Encodable ∧ ∃ cookie, call.presented = some cookie ∧ cookie.tbs = terms.tbs ∧
      cookie.all = cookieData terms.tbs (hmac key.1 key.2 terms.binding.encode) := by
  obtain ⟨message, ch, algo, peerkey, u, v, cookie, suite, hread, hcookie, hsuite, hkey, haccept,
    rfl⟩ := accepted_eq_some h
  obtain ⟨suite', hhello⟩ := serverReadHello_first call.before_first hread
  obtain rfl : suite' = suite := Option.some.inj (hhello.cipherSuite.symm.trans hsuite)
  obtain ⟨hfits, hsignature⟩ := serverAcceptCookie_signed hsuite haccept
  have hwell := hhello.hello.cookie cookie hcookie
  have hbinding : (u.tls.cookieTerms call.properties suite'.id algo.id cookie.ch1Hash
      cookie.sentKeyShare).binding =
        u.tls.cookieBinding call.properties suite'.id algo.id cookie.tbs := by
    rw [hwell.tbs]
    rfl
  refine ⟨⟨hbinding ▸ hfits, (selectCipher_eq_ok hhello.selected).2,
    (selectedKeyShare_found hhello.shares algo peerkey rfl).2⟩, cookie, ?_, hwell.tbs, ?_⟩
  · rw [presented, hread]
    exact hcookie
  · rw [hbinding, hwell.all, hsignature, hkey, hwell.tbs]
    rfl

end HelloCall

/-! ## Cookies bind the first flight -/

/-- If the octets whose signature a call verifies have been signed by one of the servers with the
key, then a cookie that the call accepts is one that such a server sent in a HelloRetryRequest, for
a hello with the same random value, cipher suite, group and data of the application, and with the
same name of the server, where no name is the same as the empty one. The hash of the first hello and
the flag that restore the transcript are those that this server wrote. -/
theorem accepted_cookie_was_issued {issuers : Set HelloCall} {call : HelloCall}
    {key : HashAlgorithm × Bytes} {terms : CookieTerms}
    (hunforgeable : ∀ key terms, call.accepted = some (key, terms) → ∃ issuer ∈ issuers,
      ∃ terms' hrr, issuer.issued = some (key, terms', hrr) ∧
        terms'.binding.encode = terms.binding.encode)
    (haccepted : call.accepted = some (key, terms)) :
    ∃ issuer ∈ issuers, ∃ name hrr cookie sessionId version,
      issuer.issued = some (key, { terms with serverName := name }, hrr) ∧
      name.getD [] = terms.serverName.getD [] ∧
      call.presented = some cookie ∧ cookie.tbs = terms.tbs ∧
      hrr = helloRetryRequest sessionId terms.cipherSuite version
        (if terms.sentKeyShare then some terms.group else none)
        (encodeExtension ExtensionType.cookie cookie.all) := by
  obtain ⟨issuer, hissuer, terms', hrr, hissued, hencode⟩ := hunforgeable key terms haccepted
  obtain ⟨hencodable, cookie, hcookie, htbs, hall⟩ := HelloCall.accepted_signed haccepted
  obtain ⟨hencodable', sessionId, version, hhrr⟩ := HelloCall.issued_retry hissued
  obtain ⟨hterms, hname⟩ := CookieTerms.eq_of_encode hencodable hencodable' hencode
  refine ⟨issuer, hissuer, terms'.serverName, hrr, cookie, sessionId, version, ?_, hname, hcookie,
    htbs, ?_⟩
  · rw [← hterms]
    exact hissued
  · rw [hhrr, hencode, hterms, hall]
    rfl

namespace Sample

/-- A call with the sample context and a cookie key, where the application may name the server. -/
def helloCall (serverName : Option Bytes) (message : Bytes) : HelloCall where
  env := { environment with onClientHello := fun _ _ => { ret := 0, serverName := serverName } }
  ctx := { context with onClientHello := true }
  emitter := .record
  sendbuf := []
  epochOffsets := []
  properties := { cookieKey := some [1, 2], retryUsesCookie := true }
  message := message

/-- The call that sends a cookie. -/
def issuingCall (serverName : Option Bytes) : HelloCall :=
  helloCall serverName (clientHello (clientExtensions [0, 29] []))

/-- The call in which the cookie comes back. -/
def acceptingCall : HelloCall :=
  helloCall none (cookieHello [0, 29] ([0, 29] ++ block 2 [9]) [0, 4, 2, 118, 118, 1] [181, 181])

/-- The terms of the cookie. -/
def cookieTerms (serverName : Option Bytes) : CookieTerms where
  clientRandom := zeros helloRandomSize
  serverName := serverName
  cipherSuite := 0x1301
  group := 29
  additionalData := []
  ch1Hash := [118, 118]
  sentKeyShare := true

omit [Crypto] in
/-- The second call accepts the cookie. -/
theorem acceptingCall_accepted : @HelloCall.accepted crypto acceptingCall =
    some ((hash 0, [1, 2]), cookieTerms none) := by decide +kernel

omit [Crypto] in
/-- A call that sends a cookie sends it in some message. -/
theorem exists_issued {call : HelloCall} {key : HashAlgorithm × Bytes} {terms : CookieTerms}
    (h : (@HelloCall.issued crypto call).map (fun cookie => (cookie.1, cookie.2.1)) =
      some (key, terms)) : ∃ hrr, @HelloCall.issued crypto call = some (key, terms, hrr) := by
  obtain ⟨⟨key, terms, hrr⟩, hissue, hpair⟩ := Option.map_eq_some_iff.mp h
  cases hpair
  exact ⟨hrr, hissue⟩

end Sample

open Sample

omit [Crypto] in
/-- A server that has recorded the empty name sends a cookie that a server without a name
accepts. -/
theorem cookie_confuses_no_name_with_empty :
    ¬ ∀ (issuers : Set HelloCall) (call : HelloCall) (key : HashAlgorithm × Bytes)
        (terms : CookieTerms),
      (∀ key terms, @HelloCall.accepted crypto call = some (key, terms) →
        ∃ issuer ∈ issuers, ∃ terms' hrr,
          @HelloCall.issued crypto issuer = some (key, terms', hrr) ∧
          terms'.binding.encode = terms.binding.encode) →
      @HelloCall.accepted crypto call = some (key, terms) →
      ∃ issuer ∈ issuers, ∃ hrr, @HelloCall.issued crypto issuer = some (key, terms, hrr) := by
  have haccepted := acceptingCall_accepted
  obtain ⟨hrr, hissue⟩ : ∃ hrr, @HelloCall.issued crypto (issuingCall (some [])) =
      some ((Sample.hash 0, [1, 2]), cookieTerms (some []), hrr) :=
    exists_issued (by decide +kernel)
  intro hclaim
  obtain ⟨issuer, rfl, hrr', hsame⟩ := hclaim {issuingCall (some [])} acceptingCall _ _
    (fun key terms h => ⟨_, rfl, _, hrr, by
      cases haccepted.symm.trans h
      exact ⟨hissue, by decide +kernel⟩⟩) haccepted
  cases hissue.symm.trans hsame

omit [Crypto] in
/-- The cookie of a server without a name comes back to another such server. -/
theorem accepted_cookie_was_issued_sample :
    @HelloCall.accepted crypto acceptingCall =
        some ((Sample.hash 0, [1, 2]), cookieTerms none) ∧
      ∃ issuer ∈ ({issuingCall none} : Set HelloCall),
      ∃ name hrr cookie sessionId version,
        @HelloCall.issued crypto issuer =
          some ((Sample.hash 0, [1, 2]), { cookieTerms none with serverName := name }, hrr) ∧
        name.getD [] = (cookieTerms none).serverName.getD [] ∧
        @HelloCall.presented crypto acceptingCall = some cookie ∧
        cookie.tbs = (cookieTerms none).tbs ∧
        hrr = helloRetryRequest sessionId (cookieTerms none).cipherSuite version
          (if (cookieTerms none).sentKeyShare then some (cookieTerms none).group
            else none) (encodeExtension ExtensionType.cookie cookie.all) := by
  have haccepted := acceptingCall_accepted
  obtain ⟨hrr, hissue⟩ : ∃ hrr, @HelloCall.issued crypto (issuingCall none) =
      some ((Sample.hash 0, [1, 2]), cookieTerms none, hrr) :=
    exists_issued (by decide +kernel)
  refine ⟨haccepted, @accepted_cookie_was_issued crypto _ _ _ _ (fun key terms h => ?_)
    haccepted⟩
  cases haccepted.symm.trans h
  exact ⟨_, rfl, _, hrr, hissue, rfl⟩

end Picotls
