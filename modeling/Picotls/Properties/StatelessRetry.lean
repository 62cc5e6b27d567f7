import Picotls.Properties.CookieBinding
import Picotls.Server.CookieRestore

/-!
# Stateless retries

A client that has been asked for another hello repeats its first one with the cookie, and with the
key share that was asked for. A fresh server object reads the cookie back. It signs what it has
settled itself, so the cookie is accepted only if both objects have settled the same things; the
group is taken from different places. Where the cookie is accepted, the key schedule is the one that
the first object would have kept.
-/

namespace Picotls

open Foundation Procedure

variable [Crypto] {issuer call : HelloCall} {key : HashAlgorithm × Bytes} {terms : CookieTerms}
  {hrr : Bytes}

/-! ## The second hello -/

/-- The group that the HelloRetryRequest with a cookie asks for. -/
def CookieTerms.requested (terms : CookieTerms) : Option ℕ :=
  if terms.sentKeyShare then some terms.group else none

/-- The cookie with given terms. -/
def CookieTerms.cookie (terms : CookieTerms) (key : HashAlgorithm × Bytes) : Bytes :=
  cookieData terms.tbs (hmac key.1 key.2 terms.binding.encode)

/-- The key shares of a second hello: one for the requested group, or else those of the first. -/
def ClientHello.SharesAsRequested (ch₂ ch₁ : ClientHello) : Option ℕ → Prop
  | none => ch₂.keyShares = ch₁.keyShares
  | some id => ∃ share, (toBE 2 id ++ encodeBlock 2 share).length < 256 ^ 2 ∧
      ch₂.keyShares = some (encodeBlock 2 (toBE 2 id ++ encodeBlock 2 share))

/-- A second hello that repeats the first one as it has to. -/
structure ClientHello.Repeats (ch₂ ch₁ : ClientHello) (group : Option ℕ) (cookie : Bytes) :
    Prop where
  session : ch₂.legacySessionId = ch₁.legacySessionId
  serverName : ch₂.serverName = ch₁.serverName
  cipherSuites : ch₂.cipherSuites = ch₁.cipherSuites
  cookie : ch₂.cookie.map ClientHelloCookie.all = some cookie
  keyShares : ch₂.SharesAsRequested ch₁ group

namespace HelloCall

/-- The hello that the server goes on with. -/
def hello (call : HelloCall) : Option ClientHello :=
  match call.reading with
  | (.ok (_, ch, _), _) => some ch
  | _ => none

/-- What the server has settled when it decides on a retry. -/
def settled (call : HelloCall) : Tls := call.reading.2.tls

/-- A call that hands the repeated hello to a server with the same configuration. -/
structure Repeats (call issuer : HelloCall) (key : HashAlgorithm × Bytes) (terms : CookieTerms) :
    Prop where
  ctx : call.ctx = issuer.ctx
  cookieKey : call.properties.cookieKey = issuer.properties.cookieKey
  additionalData :
    call.properties.cookieAdditionalData = issuer.properties.cookieAdditionalData
  random : call.settled.clientRandom = issuer.settled.clientRandom
  hello : ∃ ch₁ ch₂, issuer.hello = some ch₁ ∧ call.hello = some ch₂ ∧
    ch₂.Repeats ch₁ terms.requested (terms.cookie key)

/-- The application treats hellos with the same name alike. -/
def SameAnswers (call issuer : HelloCall) : Prop :=
  ∀ tick tick' params params', params'.serverName = params.serverName →
    (call.env.onClientHello tick' params').context =
      (issuer.env.onClientHello tick params).context ∧
    (call.env.onClientHello tick' params').serverName =
      (issuer.env.onClientHello tick params).serverName

/-- How the cookie of the hello fares, if the call takes its branch. -/
def acceptance (call : HelloCall) : Option (Except Fault Unit) :=
  match call.reading with
  | (.ok (_, ch, some (algo, _)), u) => ch.cookie.map fun cookie =>
      (serverAcceptCookie call.emitter call.properties ch cookie algo call.env u).1
  | _ => none

/-- A call that continues has accepted its cookie. -/
theorem Continues.acceptance (h : call.Continues) : call.acceptance = some (.ok ()) := by
  obtain ⟨message, ch, algo, peerkey, u, v, cookie, hread, hcookie, haccept, -⟩ := h
  rw [HelloCall.acceptance, hread]
  dsimp only
  rw [hcookie, Option.map_some, haccept]

/-- A key share of the hello that the server accepts is of the group that it would ask for. -/
def SharePreferred (issuer : HelloCall) : Prop :=
  ∀ ch algo share group, issuer.hello = some ch →
    ch.selectedKeyShare issuer.settled.ctx = .ok (some (algo, share)) →
    selectNegotiatedGroup (issuer.settled.ctx.keyExchanges.getD [])
      (ch.negotiatedGroups.getD []) = .ok group →
    algo.id = group.id

omit [Crypto] in
/-- A single key share is selected if its group is known. -/
theorem selectKeyShare_single {candidates : List KeyExchangeAlgorithm}
    {algo : KeyExchangeAlgorithm} {share : Bytes}
    (hfind : candidates.find? (·.id = algo.id) = some algo) (hid : algo.id < 256 ^ 2)
    (hshare : (toBE 2 algo.id ++ encodeBlock 2 share).length < 256 ^ 2) :
    selectKeyShare candidates (encodeBlock 2 (toBE 2 algo.id ++ encodeBlock 2 share)) =
      .ok (some (algo, share)) := by
  have hlength : share.length < 256 ^ 2 := by
    rw [List.length_append, encodeBlock_length] at hshare
    omega
  have hopen := Src.decodeOpenBlock_encodeBlock 0 [] hshare
  rw [List.append_nil] at hopen
  have hnumber := Src.decodeUInt_toBE (0 + 2) (encodeBlock 2 share) hid
  have hblock := Src.decodeOpenBlock_encodeBlock (0 + 2 + 2) [] hlength
  rw [List.append_nil] at hblock
  have hentry : decodeKeyShareEntry ⟨0 + 2, toBE 2 algo.id ++ encodeBlock 2 share⟩ =
      .ok (algo.id, share, ⟨0 + 2 + 2 + 2 + share.length, []⟩) :=
    except_bind_eq_ok.mpr ⟨_, hnumber, except_bind_eq_ok.mpr ⟨_, hblock, rfl⟩⟩
  have hend (fuel off : ℕ) (selected : Option (KeyExchangeAlgorithm × Bytes)) :
      selectKeyShareLoop candidates fuel selected ⟨off, []⟩ = .ok selected := by
    cases fuel <;> rfl
  have hloop (fuel : ℕ) : selectKeyShareLoop candidates (fuel + 1) none
      ⟨0 + 2, toBE 2 algo.id ++ encodeBlock 2 share⟩ = .ok (some (algo, share)) := by
    have hdata : toBE 2 algo.id ++ encodeBlock 2 share ≠ [] := by simp [toBE]
    rw [selectKeyShareLoop, if_neg hdata]
    refine except_bind_eq_ok.mpr ⟨_, hentry, ?_⟩
    dsimp only
    rw [hfind]
    exact hend _ _ _
  have hfuel : (toBE 2 algo.id ++ encodeBlock 2 share).length = share.length + 3 + 1 := by
    rw [List.length_append, toBE_length, encodeBlock_length]
    omega
  refine except_bind_eq_ok.mpr ⟨_, hopen, except_bind_eq_ok.mpr ⟨some (algo, share), ?_, rfl⟩⟩
  dsimp only
  rw [hfuel]
  exact hloop _

/-! ## What the two objects settle -/

/-- What is known when a server reads the hello that repeats one to which it has sent a cookie. -/
structure RetryPair (issuer call : HelloCall) (key : HashAlgorithm × Bytes) (terms : CookieTerms)
    (message₁ message₂ : Bytes) (ch₁ ch₂ : ClientHello)
    (keyShare₁ : Option (KeyExchangeAlgorithm × Bytes)) (algo : KeyExchangeAlgorithm)
    (peerkey : Bytes) (u₁ u₂ : Session) (suite : CipherSuite) (group : KeyExchangeAlgorithm)
    (cookie : ClientHelloCookie) : Prop where
  reading₁ : issuer.reading = (.ok (message₁, ch₁, keyShare₁), u₁)
  reading₂ : call.reading = (.ok (message₂, ch₂, some (algo, peerkey)), u₂)
  read₁ : HelloRead (some issuer.properties) issuer.before u₁ ch₁ keyShare₁ suite
  read₂ : HelloRead (some call.properties) call.before u₂ ch₂ (some (algo, peerkey)) suite
  session : ch₂.legacySessionId = ch₁.legacySessionId
  negotiated :
    selectNegotiatedGroup (u₁.tls.ctx.keyExchanges.getD []) (ch₁.negotiatedGroups.getD []) =
    .ok group
  ctx : u₂.tls.ctx = u₁.tls.ctx
  cookieKey : u₂.tls.cookieKey call.properties = some key
  settled : terms = u₁.tls.cookieTerms issuer.properties suite.id group.id
    (Crypto.hash suite.hash message₁) keyShare₁.isNone
  binding : u₂.tls.cookieBinding call.properties suite.id algo.id cookie.tbs =
    { terms.binding with group := algo.id }
  presented : ch₂.cookie = some cookie
  ch1Hash : cookie.ch1Hash = Crypto.hash suite.hash message₁
  sentKeyShare : cookie.sentKeyShare = keyShare₁.isNone
  signature : cookie.signature = hmac key.1 key.2 terms.binding.encode
  candidate : algo ∈ u₁.tls.ctx.keyExchanges.getD []
  share : ∀ algo₁ share, keyShare₁ = some (algo₁, share) → algo = algo₁
  requested : keyShare₁ = none → algo = group

/-- A hello is known only from its reading. -/
theorem hello_eq_some {ch : ClientHello} (h : call.hello = some ch) :
    ∃ message keyShare u, call.reading = (.ok (message, ch, keyShare), u) := by
  rw [hello] at h
  rcases hread : call.reading with ⟨_ | ⟨message, ch', keyShare⟩, u⟩ <;> simp only [hread] at h
  · cases h
  · cases h
    exact ⟨message, keyShare, u, rfl⟩

/-- The two objects agree on the context and on the name. -/
theorem SameAnswers.admitted {message₁ message₂ : Bytes} {ch₁ ch₂ : ClientHello}
    {keyShare₁ keyShare₂ : Option (KeyExchangeAlgorithm × Bytes)} {u₁ u₂ : Session}
    (h : call.SameAnswers issuer) (hctx : call.ctx = issuer.ctx)
    (hname : ch₂.serverName = ch₁.serverName)
    (hread₁ : issuer.reading = (.ok (message₁, ch₁, keyShare₁), u₁))
    (hread₂ : call.reading = (.ok (message₂, ch₂, keyShare₂), u₂)) :
    u₂.tls.ctx = u₁.tls.ctx ∧ u₂.tls.serverName = u₁.tls.serverName := by
  obtain ⟨tick₁, hadmitted₁⟩ := serverReadHello_admits issuer.before_first hread₁
  obtain ⟨tick₂, hadmitted₂⟩ := serverReadHello_admits call.before_first hread₂
  obtain ⟨hcontext, hserverName⟩ := h tick₁ tick₂ (helloParameters ch₁ message₁)
    (helloParameters ch₂ message₂) hname
  have hbefore : call.before.tls = issuer.before.tls := by
    rw [before, before, hctx]
  have hsame : (u₂.tls.ctx, u₂.tls.serverName) = (u₁.tls.ctx, u₁.tls.serverName) := by
    rw [hadmitted₁, hadmitted₂, hbefore, Tls.admitted, Tls.admitted, hcontext, hserverName]
  exact ⟨congrArg Prod.fst hsame, congrArg Prod.snd hsame⟩

omit [Crypto] in
/-- The key share of the repeated hello is the requested one, or that of the first hello. -/
theorem shares_of_repeats {ch₁ ch₂ : ClientHello} {ctx : Context}
    {keyShare₁ keyShare₂ : Option (KeyExchangeAlgorithm × Bytes)} {group : KeyExchangeAlgorithm}
    (hshares : ch₂.SharesAsRequested ch₁ (if keyShare₁.isNone then some group.id else none))
    (hgroup : selectNegotiatedGroup (ctx.keyExchanges.getD []) (ch₁.negotiatedGroups.getD []) =
      .ok group)
    (hselect₁ : ch₁.selectedKeyShare ctx = .ok keyShare₁)
    (hselect₂ : ch₂.selectedKeyShare ctx = .ok keyShare₂) :
    ∃ algo share, keyShare₂ = some (algo, share) ∧ algo ∈ ctx.keyExchanges.getD [] ∧
      (∀ algo₁ share₁, keyShare₁ = some (algo₁, share₁) → algo = algo₁) ∧
      (keyShare₁ = none → algo = group) := by
  cases keyShare₁ with
  | some found =>
    obtain ⟨algo, share⟩ := found
    have hkeyShares : ch₂.keyShares = ch₁.keyShares := hshares
    have hsame : ch₂.selectedKeyShare ctx = ch₁.selectedKeyShare ctx := by
      rw [ClientHello.selectedKeyShare, ClientHello.selectedKeyShare, hkeyShares]
    obtain rfl : keyShare₂ = some (algo, share) :=
      Except.ok.inj (hselect₂.symm.trans (hsame.trans hselect₁))
    refine ⟨algo, share, rfl, (selectedKeyShare_found hselect₁ algo share rfl).1, ?_, ?_⟩
    · rintro algo₁ share₁ ⟨⟩
      rfl
    · intro hnone
      cases hnone
  | none =>
    obtain ⟨share, hlength, hkeyShares⟩ := hshares
    obtain ⟨hfind, hid⟩ := selectNegotiatedGroup_eq_ok hgroup
    have hmem := List.mem_of_find?_eq_some hfind
    cases halgos : ctx.keyExchanges with
    | none =>
      rw [halgos] at hmem
      cases hmem
    | some algos =>
      rw [halgos] at hfind hmem
      have hselect : ch₂.selectedKeyShare ctx = .ok (some (group, share)) := by
        rw [ClientHello.selectedKeyShare, hkeyShares, halgos]
        exact selectKeyShare_single hfind hid hlength
      obtain rfl := Except.ok.inj (hselect₂.symm.trans hselect)
      refine ⟨group, share, rfl, hmem, ?_, fun _ => rfl⟩
      intro algo₁ share₁ hsome
      cases hsome

/-- What is known of a hello that repeats one to which a cookie was sent. -/
theorem Repeats.pair (hissued : issuer.issued = some (key, terms, hrr))
    (hrepeats : call.Repeats issuer key terms) (hanswers : call.SameAnswers issuer) :
    ∃ message₁ message₂ ch₁ ch₂ keyShare₁ algo peerkey u₁ u₂ suite group cookie,
      RetryPair issuer call key terms message₁ message₂ ch₁ ch₂ keyShare₁ algo peerkey u₁ u₂ suite
        group cookie := by
  obtain ⟨message₁, ch₁, keyShare₁, u₁, group, suite, hread₁, -, hgroup, hsuite, hkey, -, rfl⟩ :=
    issued_eq_some hissued
  obtain ⟨suite', hhello₁⟩ := serverReadHello_first issuer.before_first hread₁
  obtain rfl : suite' = suite := Option.some.inj (hhello₁.cipherSuite.symm.trans hsuite)
  obtain ⟨ch₁', ch₂, hch₁, hch₂, hhello⟩ := hrepeats.hello
  obtain rfl : ch₁ = ch₁' := by
    rw [HelloCall.hello, hread₁] at hch₁
    exact Option.some.inj hch₁
  obtain ⟨message₂, keyShare₂, u₂, hread₂⟩ := hello_eq_some hch₂
  obtain ⟨suite₂, hhello₂⟩ := serverReadHello_first call.before_first hread₂
  obtain ⟨hctx, hname⟩ := hanswers.admitted hrepeats.ctx hhello.serverName hread₁ hread₂
  obtain rfl : suite' = suite₂ := by
    have hselected := hhello₂.selected
    rw [hctx, hhello.cipherSuites, hhello₁.selected] at hselected
    exact Except.ok.inj hselected
  have hrandom : u₂.tls.clientRandom = u₁.tls.clientRandom := by
    have hsettled := hrepeats.random
    rwa [settled, settled, hread₁, hread₂] at hsettled
  obtain ⟨algo, share, rfl, hcandidate, hshare, hrequested⟩ :=
    shares_of_repeats hhello.keyShares hgroup hhello₁.shares (hctx ▸ hhello₂.shares)
  obtain ⟨cookie, hcookie, hall⟩ := Option.map_eq_some_iff.mp hhello.cookie
  have hwell := hhello₂.hello.cookie cookie hcookie
  have hdigest : (Crypto.hash suite'.hash message₁).length < 256 := by
    rw [Crypto.hash_length]
    exact lt_of_le_of_lt suite'.hash.digestSize_le (by decide)
  have hmac : (hmac key.1 key.2 (u₁.tls.cookieTerms issuer.properties suite'.id group.id
      (Crypto.hash suite'.hash message₁) keyShare₁.isNone).binding.encode).length < 256 := by
    rw [hmac_length]
    exact lt_of_le_of_lt key.1.digestSize_le (by decide)
  obtain ⟨hhash, hsent, hsignature⟩ := cookieData_inj hwell.hash hdigest hwell.signature hmac
    (by rw [← hwell.tbs, ← hwell.all, hall]; rfl)
  refine ⟨message₁, message₂, ch₁, ch₂, keyShare₁, algo, share, u₁, u₂, suite', group, cookie,
    hread₁, hread₂, hhello₁, hhello₂, hhello.session, hgroup, hctx, ?_, rfl, ?_, hcookie, hhash,
    hsent, hsignature, hcandidate, hshare, hrequested⟩
  · rw [← hkey, Tls.cookieKey, Tls.cookieKey, hctx, hrepeats.cookieKey]
  · rw [Tls.cookieBinding, hrandom, hname, hrepeats.additionalData, hwell.tbs, hhash, hsent]
    rfl

section Pair

variable {message₁ message₂ : Bytes} {ch₁ ch₂ : ClientHello}
  {keyShare₁ : Option (KeyExchangeAlgorithm × Bytes)} {algo group : KeyExchangeAlgorithm}
  {peerkey : Bytes} {u₁ u₂ : Session} {suite : CipherSuite} {cookie : ClientHelloCookie}

/-- A call continues if it accepts the cookie. -/
theorem RetryPair.continues_iff (h : RetryPair issuer call key terms message₁ message₂ ch₁ ch₂
    keyShare₁ algo peerkey u₁ u₂ suite group cookie) :
    call.Continues ↔ ∃ v, serverAcceptCookie call.emitter call.properties ch₂ cookie algo call.env
      u₂ = (.ok (), v) := by
  constructor
  · rintro ⟨message, ch, algo', peerkey', u, v, cookie', hread, hcookie, haccept, -⟩
    cases h.reading₂.symm.trans hread
    cases h.presented.symm.trans hcookie
    exact ⟨v, haccept⟩
  · rintro ⟨v, haccept⟩
    exact ⟨message₂, ch₂, algo, peerkey, u₂, v, cookie, h.reading₂, h.presented, haccept,
      answers_of_accepts h.reading₂ h.presented haccept⟩

/-- With memory at hand, the cookie is accepted exactly if the key share is of the signed group. -/
theorem RetryPair.accepts_iff (h : RetryPair issuer call key terms message₁ message₂ ch₁ ch₂
    keyShare₁ algo peerkey u₁ u₂ suite group cookie) (hencodable : terms.Encodable)
    (hmemory : ∀ tick, call.env.alloc tick = true)
    (hoffs : call.emitter = .raw → ∀ off ∈ call.epochOffsets, off = call.sendbuf.length)
    (hcollision : ∀ algo ∈ u₁.tls.ctx.keyExchanges.getD [],
      hmac key.1 key.2 { terms with group := algo.id }.binding.encode =
        hmac key.1 key.2 terms.binding.encode → algo.id = terms.group) :
    (∃ v, serverAcceptCookie call.emitter call.properties ch₂ cookie algo call.env u₂ =
      (.ok (), v)) ↔ algo.id = terms.group := by
  have henc : u₂.tls.enc.aead = none := by
    rw [h.read₂.enc]
    rfl
  have hrun : _ ∧ (AcceptsCookie call.emitter u₂ call.properties ch₂ suite algo cookie → _) :=
    serverAcceptCookie_run hmemory h.read₂.cipherSuite h.read₂.schedule henc
  constructor
  · rintro ⟨v, haccept⟩
    have hsignature := (hrun.1 v haccept).1.signature
    rw [h.cookieKey, h.binding, h.signature] at hsignature
    exact hcollision algo h.candidate hsignature.symm
  · intro hgroup
    have hbinding : u₂.tls.cookieBinding call.properties suite.id algo.id cookie.tbs =
        terms.binding := by
      rw [h.binding, hgroup]
      rfl
    have hwell := h.read₂.hello.cookie cookie h.presented
    have hall : cookie.all.length ≤ 1020 := by
      have hhash := hwell.hash
      have hsignature := hwell.signature
      rw [hwell.all, cookieData, encodeBlock_length, List.length_append, hwell.tbs,
        cookieTbs_length, encodeBlock_length]
      omega
    refine hrun.2 ⟨by rw [h.cookieKey]; rfl, by rw [hbinding]; exact hencodable.fits, ?_, by omega,
      RetryFits.of_short h.read₂.hello.session ?_ ?_⟩
    · rw [hbinding, h.signature, h.cookieKey]
      rfl
    · rw [encodeExtension_length]
      omega
    · rw [h.read₂.epochOffsets, h.read₂.sendbuf]
      exact hoffs

end Pair

end HelloCall

/-! ## Completeness -/

/-- A hello that repeats one to which a cookie was sent continues the handshake of a fresh server
object exactly if the first hello had no acceptable key share other than for the group that the
server would have asked for. It is assumed that memory is available, that the application treats the
two hellos alike, that no messages of later epochs are in the way, and that the signatures for the
configured groups differ. -/
theorem stateless_retry_continues_iff (hissued : issuer.issued = some (key, terms, hrr))
    (hrepeats : call.Repeats issuer key terms) (hanswers : call.SameAnswers issuer)
    (hmemory : ∀ tick, call.env.alloc tick = true)
    (hoffs : call.emitter = .raw → ∀ off ∈ call.epochOffsets, off = call.sendbuf.length)
    (hcollision : ∀ algo ∈ issuer.settled.ctx.keyExchanges.getD [],
      hmac key.1 key.2 { terms with group := algo.id }.binding.encode =
        hmac key.1 key.2 terms.binding.encode → algo.id = terms.group) :
    (∃ sessionId version, hrr = helloRetryRequest sessionId terms.cipherSuite version
      terms.requested (encodeExtension ExtensionType.cookie (terms.cookie key))) ∧
    (call.Continues ↔ issuer.SharePreferred) := by
  obtain ⟨hencodable, hretry⟩ := HelloCall.issued_retry hissued
  refine ⟨hretry, ?_⟩
  obtain ⟨message₁, message₂, ch₁, ch₂, keyShare₁, algo, peerkey, u₁, u₂, suite, group, cookie,
    hpair⟩ := hrepeats.pair hissued hanswers
  have hsettled : issuer.settled = u₁.tls := by
    rw [HelloCall.settled, hpair.reading₁]
  have hhello : issuer.hello = some ch₁ := by
    rw [HelloCall.hello, hpair.reading₁]
  have hgroup : terms.group = group.id := by
    rw [hpair.settled]
    rfl
  rw [hsettled] at hcollision
  rw [hpair.continues_iff, hpair.accepts_iff hencodable hmemory hoffs hcollision, hgroup]
  constructor
  · intro hsame ch algo' share group' hch hshare hnegotiated
    rw [hsettled] at hshare hnegotiated
    cases hhello.symm.trans hch
    cases hpair.negotiated.symm.trans hnegotiated
    cases hpair.read₁.shares.symm.trans hshare
    rw [← hpair.share algo' share rfl]
    exact hsame
  · intro hpreferred
    cases keyShare₁ with
    | none => rw [hpair.requested rfl]
    | some found =>
      obtain ⟨algo₁, share⟩ := found
      rw [hpair.share algo₁ share rfl]
      refine hpreferred ch₁ algo₁ share group hhello ?_ ?_
      · rw [hsettled]
        exact hpair.read₁.shares
      · rw [hsettled]
        exact hpair.negotiated

namespace Sample

/-- What a repeated hello is compared by. -/
def repeatedParts (ch : ClientHello) : Bytes × Option Bytes × Bytes × Option Bytes × Option Bytes :=
  (ch.legacySessionId, ch.serverName, ch.cipherSuites, ch.keyShares,
    ch.cookie.map ClientHelloCookie.all)

omit [Crypto] in
/-- A hello repeats another one if their parts agree. -/
theorem exists_repeats {issuer call : HelloCall} {session suites cookie : Bytes}
    {name shares₁ shares₂ : Option Bytes} {group : Option ℕ}
    (hfirst : (@HelloCall.hello crypto issuer).map repeatedParts =
      some (session, name, suites, shares₁, none))
    (hsecond : (@HelloCall.hello crypto call).map repeatedParts =
      some (session, name, suites, shares₂, some cookie))
    (hshares : ∀ ch₁ ch₂ : ClientHello, ch₁.keyShares = shares₁ → ch₂.keyShares = shares₂ →
      ch₂.SharesAsRequested ch₁ group) :
    ∃ ch₁ ch₂, @HelloCall.hello crypto issuer = some ch₁ ∧ @HelloCall.hello crypto call = some ch₂ ∧
      ch₂.Repeats ch₁ group cookie := by
  obtain ⟨ch₁, hch₁, hparts₁⟩ := Option.map_eq_some_iff.mp hfirst
  obtain ⟨ch₂, hch₂, hparts₂⟩ := Option.map_eq_some_iff.mp hsecond
  simp only [repeatedParts, Prod.mk.injEq] at hparts₁ hparts₂
  obtain ⟨hsession₁, hname₁, hsuites₁, hshares₁, -⟩ := hparts₁
  obtain ⟨hsession₂, hname₂, hsuites₂, hshares₂, hcookie⟩ := hparts₂
  exact ⟨ch₁, ch₂, hch₁, hch₂, hsession₂.trans hsession₁.symm, hname₂.trans hname₁.symm,
    hsuites₂.trans hsuites₁.symm, hcookie, hshares ch₁ ch₂ hshares₁ hshares₂⟩

/-- A call with a server that supports two groups and always asks for another hello. -/
def enforcingCall (message : Bytes) : HelloCall := { helloCall none message with
  ctx := { context with keyExchanges := some [⟨29, 0⟩, ⟨23, 0⟩] }
  properties := { cookieKey := some [1, 2], retryUsesCookie := true, enforceRetry := true } }

/-- The first hello prefers a group other than that of its key share. -/
def enforcedCall : HelloCall :=
  enforcingCall (clientHello (clientExtensions [0, 23, 0, 29] ([0, 29] ++ block 2 [9])))

/-- The call in which the cookie comes back, with the same key share. -/
def refusedCall : HelloCall :=
  enforcingCall (cookieHello [0, 23, 0, 29] ([0, 29] ++ block 2 [9]) [0, 4, 2, 109, 109, 0]
    [233, 233])

/-- The terms of the cookie that is refused. -/
def refusedTerms : CookieTerms :=
  { cookieTerms none with group := 23, ch1Hash := [109, 109], sentKeyShare := false }

end Sample

open Sample

omit [Crypto] in
/-- A server that asks for another hello although the first one has an acceptable key share refuses
the repeated hello, if the client prefers another group. -/
theorem stateless_retry_refused :
    (∃ hrr, @HelloCall.issued crypto enforcedCall =
      some ((Sample.hash 0, [1, 2]), refusedTerms, hrr)) ∧
    @HelloCall.Repeats crypto refusedCall enforcedCall
      (Sample.hash 0, [1, 2]) refusedTerms ∧
    refusedCall.SameAnswers enforcedCall ∧
    (∀ tick, refusedCall.env.alloc tick = true) ∧
    ¬ @HelloCall.Continues crypto refusedCall ∧
    (@serverHandleHello crypto refusedCall.emitter refusedCall.message
      (some refusedCall.properties) refusedCall.env refusedCall.before).1 =
        .error (.code Alert.handshakeFailure) := by
  have hrefused : @HelloCall.acceptance crypto refusedCall =
      some (.error (.code Alert.handshakeFailure)) := by decide +kernel
  refine ⟨exists_issued (by decide +kernel), @HelloCall.Repeats.mk crypto _ _ _ _
    rfl rfl rfl (by decide +kernel) ?_, fun _ _ _ _ _ => ⟨rfl, rfl⟩, fun _ => rfl,
    fun hcontinues => ?_, by decide +kernel⟩
  · let shares := some (block 2 ([0, 29] ++ block 2 [9]))
    exact @exists_repeats _ _ [] [19, 1] _ none shares shares _ (by decide +kernel)
      (by decide +kernel) fun _ _ h₁ h₂ => h₂.trans h₁.symm
  · have haccepted := @HelloCall.Continues.acceptance crypto _ hcontinues
    rw [hrefused] at haccepted
    cases haccepted

omit [Crypto] in
/-- The cookie of a server that asked for a key share comes back with that key share. -/
theorem stateless_retry_continues_sample :
    @HelloCall.Repeats crypto acceptingCall (issuingCall none)
      (Sample.hash 0, [1, 2]) (cookieTerms none) ∧
    (@HelloCall.Continues crypto acceptingCall ↔
      @HelloCall.SharePreferred crypto (issuingCall none)) := by
  obtain ⟨hrr, hissue⟩ : ∃ hrr, @HelloCall.issued crypto (issuingCall none) =
      some ((Sample.hash 0, [1, 2]), cookieTerms none, hrr) :=
    exists_issued (by decide +kernel)
  have hrepeats : @HelloCall.Repeats crypto acceptingCall (issuingCall none)
      (Sample.hash 0, [1, 2]) (cookieTerms none) :=
    @HelloCall.Repeats.mk crypto _ _ _ _ rfl rfl rfl (by decide +kernel)
      (@exists_repeats _ _ [] [19, 1] _ none (some (block 2 []))
        (some (block 2 ([0, 29] ++ block 2 [9]))) _ (by decide +kernel)
        (by decide +kernel) fun _ _ _ hshares => ⟨[9], by decide, hshares⟩)
  have hgroups : (@HelloCall.settled crypto (issuingCall none)).ctx.keyExchanges =
      some [⟨29, 0⟩] := by decide +kernel
  refine ⟨hrepeats, (@stateless_retry_continues_iff crypto _ _ _ _ _ hissue hrepeats
    (fun _ _ _ _ _ => ⟨rfl, rfl⟩) (fun _ => rfl) (fun h => by cases h) ?_).2⟩
  intro algo halgo _
  rw [hgroups] at halgo
  cases List.mem_singleton.mp halgo
  rfl

end Picotls
