import Picotls.Sample
import Picotls.Server.FirstFlight
import Picotls.Server.PskSelection
import Picotls.ServerInvariants

/-!
# When early data is accepted

Early data is to be accepted only in the first flight of a connection and for its first identity; if
that is a ticket, the ticket is to be alive and of the right age, and to agree with the connection
in its cipher suite, server name and application protocol. Two of these conditions are not ensured:
an external key lets early data pass in a flight that answers a cookie, and a ticket without a
protocol is accepted for a connection with one.
-/

namespace Picotls

open Foundation Procedure

-- the size of an instance counts a nested one once per enclosing sequence
variable [Crypto] {env : Environment} {s t : Session}

/-! ## Keys for early data -/

/-- The keys for early data that a server has installed. -/
def earlyKeys (trace : List Event) : List (Option AeadContext) := trace.filterMap fun
  | .acceptEarlyData aead => some aead
  | _ => none

/-- No key for early data is installed. -/
def SameEarlyKeys (s t : Session) : Prop := earlyKeys t.trace = earlyKeys s.trace

instance : IsPreorder Session SameEarlyKeys where
  refl _ := rfl
  trans _ _ _ h h' := h'.trans h

/-- The effects of the procedures around the installation of a key for early data. -/
abbrev aroundEarlyEffects : List Effect :=
  .schedule :: .names :: .negotiation :: .suite :: .psk :: .ech :: .keyUpdate :: .startSkip ::
    .context :: .refuse :: .state .serverExpectSecondClientHello :: .note .absorb ::
    .note .exchange :: .note .handshakeSecret :: .note .startSchedule :: finishEffects

instance (priority := low) {α : Type} (m : Proc α) [h : Within aroundEarlyEffects m] :
    Respects SameEarlyKeys m where
  relates env s := Steps.filterMap_eq .acceptEarly
    (fun event hkind => by cases event <;> trivial) (h.relates env s) (by decide)

instance : Respects SameEarlyKeys (emitEvent .acceptBinder) where
  relates env s := by simp [SameEarlyKeys, emitEvent, earlyKeys]

instance (message : Bytes) (psk : SelectedPsk) (tag : Bytes) :
    Respects SameEarlyKeys (comparePskBinder message psk tag) := by
  unfold comparePskBinder
  infer_instance

instance (ch : ClientHello) (message : Bytes) (hashEnd : ℕ) (isSecondFlight : Bool) :
    Respects SameEarlyKeys (tryPskHandshake ch message hashEnd isSecondFlight) := by
  unfold tryPskHandshake
  infer_instance

instance (message : Bytes) (ch : ClientHello) (isSecondFlight : Bool) :
    Respects SameEarlyKeys (serverSelectPsk message ch isSecondFlight) := by
  unfold serverSelectPsk
  split <;> infer_instance

/-! ## Acceptances -/

/-- An acceptance of early data: the handled message and the session before it, the hello that was
read from it and the session then, the session in which the search for a key began, the identity it
found, and the ticket of that identity if it is one. -/
structure EarlyAcceptance where
  message : Bytes
  properties : Option HandshakeProperties
  before : Session
  hello : ClientHello
  keyShare : Option (KeyExchangeAlgorithm × Bytes)
  read : Session
  search : Session
  identity : PskIdentity
  psk : SelectedPsk
  ticket : Option SessionIdentifier

namespace EarlyAcceptance

variable (a : EarlyAcceptance)

/-- The time of the search. -/
def now (env : Environment) : ℕ := env.getTime a.search.tick

/-- The hello is answered because of a cookie that it carries. -/
def AnswersCookie : Prop :=
  a.properties.isSome ∧ a.hello.cookie.isSome ∧ a.keyShare.isSome

/-- The acceptance takes place: the hello is read in the session before it, the terms of the
connection are those that were settled then, and the search for a key finds the identity for early
data, as the external key or as a ticket that the application opened. -/
structure Occurs (env : Environment) : Prop where
  reads : ∃ message', serverReadHello a.message a.properties env a.before =
    (.ok (message', a.hello, a.keyShare), a.read)
  terms : SameTerms a.read a.search
  selects : ∃ message' isSecondFlight t, serverSelectPsk message' a.hello isSecondFlight env
    a.search = (.ok (some a.psk), t) ∧ a.psk.acceptEarlyData = true
  listed : a.hello.pskIdentities[a.psk.index]? = some a.identity
  external : a.ticket = none → ∃ key, a.read.tls.ctx.preSharedKey = some key ∧
    a.identity.identity = key.identity
  opened : ∀ ticket, a.ticket = some ticket → a.read.tls.ctx.preSharedKey = none ∧
    ∃ octets, env.encryptTicket (a.search.tick + 1) false a.identity.identity = (0, octets) ∧
      decodeSessionIdentifier octets = .ok ticket

/-- The ticket is alive, the client knows its age, and it was issued on the terms of the
connection. -/
structure TicketFits (env : Environment) (ticket : SessionIdentifier) : Prop where
  issued : ticket.issuedAt ≤ a.now env
  alive : a.now env - ticket.issuedAt ≤ a.read.tls.ctx.ticketLifetime * 1000
  timely : (((a.now env : ℤ) - ticket.issuedAt) -
    ((a.identity.obfuscatedTicketAge : ℤ) - ticket.ticketAgeAdd) % 2 ^ 32).natAbs ≤
      earlyDataMaxDelay
  suite : a.read.tls.cipherSuite.map CipherSuite.id = some ticket.csid
  context : a.read.tls.HasTicketContext ticket.ticketCtx
  protocol : a.read.tls.negotiatedProtocol =
    if ticket.negotiatedProtocol = [] then none else some ticket.negotiatedProtocol

/-- Early data is accepted rightly: in the first flight of the connection, for the first identity,
and if that is a ticket, for one that fits. -/
structure Justified (env : Environment) : Prop where
  noRetry : a.before.tls.state ≠ .serverExpectSecondClientHello
  noCookie : ¬ a.AnswersCookie
  first : a.psk.index = 0
  ticketFits : ∀ ticket, a.ticket = some ticket → a.TicketFits env ticket

/-- No cookie comes with an external key, and no ticket without a protocol is used for a connection
with one. -/
def Unaffected : Prop :=
  (a.read.tls.ctx.preSharedKey.isSome → ¬ a.AnswersCookie) ∧
    ∀ ticket, a.ticket = some ticket →
      ticket.negotiatedProtocol ≠ [] ∨ a.read.tls.negotiatedProtocol = none

/-- The session after the hello has been handled. -/
def after (env : Environment) (emitter : Emitter) : Session :=
  (serverHandleHello emitter a.message a.properties env a.before).2

/-- Handling the hello installs keys for early data, of which this is one. -/
def Installs (env : Environment) (emitter : Emitter) (key : Option AeadContext) : Prop :=
  key ∈ earlyKeys (a.after env emitter).trace ∧ ¬ SameEarlyKeys a.before (a.after env emitter)

end EarlyAcceptance

/-! ## Where early data is accepted -/

variable {message : Bytes} {properties : Option HandshakeProperties} {ch : ClientHello}
  {keyShare : Option (KeyExchangeAlgorithm × Bytes)}

omit [Crypto] in
/-- The age that is added to a ticket's is a number of four octets. -/
theorem decodeSessionIdentifier_ageAdd_lt {octets : Bytes} {ticket : SessionIdentifier}
    (h : decodeSessionIdentifier octets = .ok ticket) : ticket.ticketAgeAdd < 2 ^ 32 := by
  unfold decodeSessionIdentifier at h
  obtain ⟨block, -, h⟩ := except_bind_eq_ok.mp h
  obtain ⟨⟨magic, src⟩, -, h⟩ := except_bind_eq_ok.mp h
  dsimp only at h
  split_ifs at h with hmagic
  obtain ⟨⟨issuedAt, src₁⟩, -, h⟩ := except_bind_eq_ok.mp h
  obtain ⟨⟨psk, src₂⟩, -, h⟩ := except_bind_eq_ok.mp h
  obtain ⟨⟨keyExchangeId, src₃⟩, -, h⟩ := except_bind_eq_ok.mp h
  obtain ⟨⟨csid, src₄⟩, -, h⟩ := except_bind_eq_ok.mp h
  obtain ⟨⟨ageAdd, src₅⟩, hageAdd, h⟩ := except_bind_eq_ok.mp h
  obtain ⟨⟨context, src₆⟩, -, h⟩ := except_bind_eq_ok.mp h
  obtain ⟨⟨protocol, src₇⟩, -, h⟩ := except_bind_eq_ok.mp h
  obtain ⟨_, -, h⟩ := except_bind_eq_ok.mp h
  cases h
  have hlt : ageAdd < 256 ^ 4 := Src.decodeUInt_lt hageAdd
  exact hlt

omit [Crypto] in
/-- The wrapping difference that the server computes is that of the integers modulo the size of a
word. -/
theorem earlyDataIsTimely_iff {now issuedAt obfuscatedTicketAge ageAdd : ℕ}
    (hissued : issuedAt ≤ now) (hageAdd : ageAdd < 2 ^ 32) :
    earlyDataIsTimely now issuedAt obfuscatedTicketAge ageAdd = true ↔
      (((now : ℤ) - issuedAt) - ((obfuscatedTicketAge : ℤ) - ageAdd) % 2 ^ 32).natAbs ≤
        earlyDataMaxDelay := by
  have hwrapped : (((obfuscatedTicketAge + 2 ^ 32 - ageAdd) % 2 ^ 32 : ℕ) : ℤ) =
      ((obfuscatedTicketAge : ℤ) - ageAdd) % 2 ^ 32 := by
    omega
  rw [earlyDataIsTimely, decide_eq_true_iff, hwrapped, Int.ofNat_sub hissued]

/-- A key that is found is one of the identities of the hello: it is the external key, or a ticket
in a first flight. -/
theorem serverSelectPsk_eq_some {isSecondFlight : Bool} {psk : SelectedPsk}
    (h : serverSelectPsk message ch isSecondFlight env s = (.ok (some psk), t)) :
    ∃ identity u, ch.pskIdentities[psk.index]? = some identity ∧ SameTerms s u ∧
      (psk.index = 0 → u = { s with tick := s.tick + 1 }) ∧
      ((∃ external, s.tls.ctx.preSharedKey = some external ∧
          identity.identity = external.identity ∧
          (psk.acceptEarlyData = true → ch.earlyDataIndication = true)) ∨
        (s.tls.ctx.preSharedKey = none ∧ isSecondFlight = false ∧ ∃ ret ticket,
          UsesTicket env (env.getTime s.tick) ch psk.index identity u psk ret ticket)) := by
  rw [serverSelectPsk, getTls_bind] at h
  cases hend : ch.pskHashEnd with
  | none =>
    simp only [hend] at h
    cases h
  | some hashEnd =>
    simp only [hend] at h
    split_ifs at h with htry
    · obtain ⟨found, s₁, hfound, h⟩ := bind_eq_ok.mp h
      obtain ⟨_, s₂, -, h⟩ := bind_eq_ok.mp h
      cases found with
      | none => cases h
      | some found =>
        obtain ⟨psk, tag⟩ := found
        cases h
        obtain ⟨s₃, -, hfind, -⟩ := pskBeforeComparison_eq_some hfound
        obtain ⟨before, identity, after, u, hlist, hterms, hfirst, htried, -⟩ :=
          findPsk_eq_some hfind
        rw [Nat.zero_add] at htried
        have hterms' : SameTerms s u :=
          ⟨hterms.ctx, hterms.serverName, hterms.negotiatedProtocol, hterms.cipherSuite,
            hterms.algos⟩
        have hlisted : ch.pskIdentities[before.length]? = some identity := by
          rw [hlist]
          simp
        have hbefore (hindex : before.length = 0) : u = { s with tick := s.tick + 1 } :=
          hfirst (List.length_eq_zero_iff.mp hindex)
        rcases tryPskIdentity_eq_some htried with ⟨external, hexternal, hname, hpsk⟩ |
          ⟨hexternal, ret, ticket, huses⟩
        · have hindex : psk.index = before.length := by rw [hpsk]
          rw [hindex]
          refine ⟨identity, u, hlisted, hterms', hbefore, .inl ⟨external, ?_, hname, ?_⟩⟩
          · rw [← hterms'.ctx, hexternal]
          · intro haccept
            rw [hpsk] at haccept
            exact (Bool.and_eq_true_iff.mp haccept).1
        · have hindex : psk.index = before.length := by rw [huses.selected]
          rw [hindex]
          have hnone : s.tls.ctx.preSharedKey = none := by rw [← hterms'.ctx, hexternal]
          refine ⟨identity, u, hlisted, hterms', hbefore, .inr ⟨hnone, ?_, ret, ticket, huses⟩⟩
          have hflight : isSecondFlight = false ∧ s.tls.ctx.encryptTicket = true := by
            simpa [hnone] using htry.2.2
          exact hflight.1
    · cases h

omit [Crypto] in
/-- A step that installs no key, followed by a part that installs one only in some situation. -/
theorem sameEarlyKeys_bind {α β : Type} {m : Proc α} {f : α → Proc β} {C : Prop} {u : Session}
    [hm : Respects SameEarlyKeys m] (hu : SameEarlyKeys s u)
    (hf : ∀ a v, m env u = (.ok a, v) → SameEarlyKeys s v → SameEarlyKeys s (f a env v).2 ∨ C) :
    SameEarlyKeys s ((m >>= f) env u).2 ∨ C := by
  have hkeeps : SameEarlyKeys s (m env u).2 := (hm.relates env u).trans hu
  refine bind_cases (Q := fun p => SameEarlyKeys s p.2 ∨ C) (fun fault v hrun => ?_)
    fun a v hrun => ?_
  · rw [hrun] at hkeeps
    exact .inl hkeeps
  · rw [hrun] at hkeeps
    exact hf a v hrun hkeeps

set_option synthInstance.maxSize 256 in
/-- Keys for early data are only installed once a key was found for the first identity, with early
data. -/
theorem serverAnswerHello_earlyKeys {emitter : Emitter} {isSecondFlight : Bool} {C : Prop}
    (hC : ∀ psk u v, SameTerms s u → serverSelectPsk message ch isSecondFlight env u =
      (.ok (some psk), v) → psk.acceptEarlyData = true → psk.index = 0 → C) :
    SameEarlyKeys s (serverAnswerHello emitter message ch keyShare isSecondFlight properties
      env s).2 ∨ C := by
  unfold serverAnswerHello
  refine sameEarlyKeys_bind rfl fun _ s₁ hreport hs₁ => ?_
  have hterms : SameTerms s s₁ := by
    have hsteps : Via [.io] s s₁ := Within.steps inferInstance hreport
    exact Steps.sameTerms hsteps (by decide)
  refine sameEarlyKeys_bind hs₁ fun psk s₂ hselect hs₂ => ?_
  by_cases haccept : psk.any (fun psk => psk.acceptEarlyData && psk.index = 0)
  · cases psk with
    | none => cases haccept
    | some found =>
      have hboth := Bool.and_eq_true_iff.mp haccept
      exact .inr (hC found s₁ s₂ hterms hselect hboth.1 (of_decide_eq_true hboth.2))
  have hrefuses : Respects SameEarlyKeys (serverAcceptEarlyData psk) := by
    refine ⟨fun env u => ?_⟩
    rw [serverAcceptEarlyData, getTls_bind, runIf, if_neg (fun h => haccept h.1)]
    rfl
  have hfinish {u : Session} (sendCertVerify : Bool) (algos : Option (List ℕ))
      (hu : SameEarlyKeys s u) :
      SameEarlyKeys s (serverFinishHandshake emitter sendCertVerify algos env u).2 ∨ C :=
    .inl (Eq.trans (Respects.relates (R := SameEarlyKeys) env u) hu)
  refine sameEarlyKeys_bind hs₂ fun tls s₃ _ hs₃ => sameEarlyKeys_bind hs₃ fun _ s₄ _ hs₄ =>
    sameEarlyKeys_bind hs₄ fun mode s₅ _ hs₅ => sameEarlyKeys_bind hs₅ fun _ s₆ _ hs₆ =>
    sameEarlyKeys_bind hs₆ fun _ s₇ _ hs₇ => sameEarlyKeys_bind hs₇ fun exchanged s₈ _ hs₈ =>
    sameEarlyKeys_bind hs₈ fun _ s₉ _ hs₉ => sameEarlyKeys_bind hs₉ fun _ s₁₀ _ hs₁₀ =>
    sameEarlyKeys_bind hs₁₀ fun _ s₁₁ _ hs₁₁ => sameEarlyKeys_bind hs₁₁ fun _ s₁₂ _ hs₁₂ =>
    sameEarlyKeys_bind hs₁₂ fun _ s₁₃ _ hs₁₃ => ?_
  split_ifs
  · exact sameEarlyKeys_bind hs₁₃ fun _ s₁₄ _ hs₁₄ => sameEarlyKeys_bind hs₁₄ fun _ s₁₅ _ hs₁₅ =>
      sameEarlyKeys_bind hs₁₅ fun _ s₁₆ _ hs₁₆ => hfinish _ _ hs₁₆
  · exact hfinish _ _ hs₁₃

set_option synthInstance.maxSize 256 in
/-- A hello that installs a key for early data: it is answered with a key for the first identity,
as a second flight just if the connection expected one or the hello came with a cookie. -/
theorem serverDecideRetry_earlyKeys {emitter : Emitter} {isSecondFlight : Bool} {C : Prop}
    (hC : ∀ flight psk u v, SameTerms s u →
      (flight = true ↔ isSecondFlight = true ∨
        properties.isSome ∧ ch.cookie.isSome ∧ keyShare.isSome) →
      serverSelectPsk message ch flight env u = (.ok (some psk), v) →
      psk.acceptEarlyData = true → psk.index = 0 → C) :
    SameEarlyKeys s (serverDecideRetry emitter message ch keyShare isSecondFlight properties
      env s).2 ∨ C := by
  have hanswer (flight : Bool) (hflight : flight = true ↔ isSecondFlight = true ∨
        properties.isSome ∧ ch.cookie.isSome ∧ keyShare.isSome) {u : Session}
      (hterms : SameTerms s u) (hu : SameEarlyKeys s u) :
      SameEarlyKeys s (serverAnswerHello emitter message ch keyShare flight properties env u).2 ∨
        C := by
    refine (serverAnswerHello_earlyKeys fun psk v w hv => ?_).imp_left fun h => Eq.trans h hu
    exact hC flight psk v w (hterms.trans hv) hflight
  have hdefault (hcookie : ¬ (properties.isSome ∧ ch.cookie.isSome ∧ keyShare.isSome)) :
      SameEarlyKeys s ((if !isSecondFlight && serverNeedsRetry s.tls ch keyShare properties then
        serverSendRetry emitter properties message ch keyShare.isNone
        else serverAnswerHello emitter message ch keyShare isSecondFlight properties) env s).2 ∨
        C := by
    split_ifs with hneeds
    · exact .inl (Respects.relates (R := SameEarlyKeys) env s)
    · exact hanswer isSecondFlight (by simp only [hcookie, or_false]) (.refl s) rfl
  unfold serverDecideRetry
  rw [getTls_bind]
  rcases properties with _ | p
  · exact hdefault (by simp)
  rcases hcookie : ch.cookie with _ | cookie
  · exact hdefault (by simp [hcookie])
  rcases keyShare with _ | ⟨algo, peerkey⟩
  · exact hdefault (by simp)
  dsimp only
  split_ifs with hsecond
  · exact hanswer true (by simp [hsecond]) (.refl s) rfl
  · refine sameEarlyKeys_bind rfl fun _ u haccept hu => ?_
    have hterms : SameTerms s u := by
      have hsteps : Via [.io, .transcript, .advance, .encrypt, .note .derive,
          .note .absorb] s u := Within.steps inferInstance haccept
      exact Steps.sameTerms hsteps (by decide)
    exact hanswer true (by simp [hcookie]) hterms hu

omit [Crypto] in
/-- A ticket that is used for early data fits just if the connection has no protocol that is missing
in it. -/
theorem UsesTicket.ticketFits_iff {a : EarlyAcceptance} {ret : Code} {ticket : SessionIdentifier}
    (huses : UsesTicket env (a.now env) a.hello a.psk.index a.identity
      { a.search with tick := a.search.tick + 1 } a.psk ret ticket)
    (hterms : SameTerms a.read a.search)
    (htimely : earlyDataIsTimely (a.now env) ticket.issuedAt a.identity.obfuscatedTicketAge
      ticket.ticketAgeAdd = true) :
    a.TicketFits env ticket ↔
      ticket.negotiatedProtocol ≠ [] ∨ a.read.tls.negotiatedProtocol = none := by
  constructor
  · intro hfits
    have hprotocol := hfits.protocol
    by_cases hempty : ticket.negotiatedProtocol = []
    · rw [if_pos hempty] at hprotocol
      exact .inr hprotocol
    · exact .inl hempty
  · intro hunaffected
    obtain ⟨octets, -, hdecode⟩ := huses.opened
    have hageAdd := decodeSessionIdentifier_ageAdd_lt hdecode
    refine ⟨huses.issued, ?_, (earlyDataIsTimely_iff huses.issued hageAdd).mp htimely, ?_, ?_, ?_⟩
    · rw [← hterms.ctx]
      exact huses.alive
    · rw [← hterms.cipherSuite]
      exact huses.suite
    · have hcontext := huses.context
      simp only [Tls.HasTicketContext] at hcontext ⊢
      rw [← hterms.ctx, ← hterms.serverName]
      exact hcontext
    · have hprotocol : ticket.negotiatedProtocol = [] ∨
          a.read.tls.negotiatedProtocol = some ticket.negotiatedProtocol := by
        rw [← hterms.negotiatedProtocol]
        exact huses.protocol
      rcases hunaffected with hnamed | hwithout
      · rw [if_neg hnamed, hprotocol.resolve_left hnamed]
      · have hempty : ticket.negotiatedProtocol = [] := by
          refine hprotocol.resolve_right fun hsome => ?_
          rw [hwithout] at hsome
          cases hsome
        rw [if_pos hempty]
        exact hwithout

/-- A hello that installs a key for early data is an acceptance. It is the first flight unless an
external key is used in answer to a cookie, and its ticket fits apart from its protocol. -/
theorem serverHandleHello_earlyKeys (emitter : Emitter)
    (hkeys : ¬ SameEarlyKeys s (serverHandleHello emitter message properties env s).2) :
    ∃ a : EarlyAcceptance, a.message = message ∧ a.properties = properties ∧ a.before = s ∧
      a.Occurs env ∧ (a.Justified env ↔ a.Unaffected) := by
  rw [serverHandleHello_run] at hkeys
  refine (sameEarlyKeys_bind (C := ∃ a : EarlyAcceptance, a.message = message ∧
    a.properties = properties ∧ a.before = s ∧ a.Occurs env ∧ (a.Justified env ↔ a.Unaffected))
    rfl fun p t hread ht => ?_).resolve_left hkeys
  obtain ⟨message', ch, keyShare⟩ := p
  refine (serverDecideRetry_earlyKeys fun flight psk u v hterms hflight hselect haccept hindex =>
    ?_).imp_left fun h => Eq.trans h ht
  obtain ⟨identity, w, hlisted, -, hw, hfound⟩ := serverSelectPsk_eq_some hselect
  have hctx : u.tls.ctx = t.tls.ctx := hterms.ctx
  -- a second hello that offers early data is refused when it is read
  have hfirst (hindication : ch.earlyDataIndication = true) :
      s.tls.state ≠ .serverExpectSecondClientHello := by
    intro hsecond
    rw [serverReadHello_second hsecond hread] at hindication
    cases hindication
  rcases hfound with ⟨external, hexternal, hname, hindication⟩ |
    ⟨hnone, hflight', ret, ticket, huses⟩
  · refine ⟨⟨message, properties, s, ch, keyShare, t, u, identity, psk, none⟩, rfl, rfl, rfl,
      ⟨⟨message', hread⟩, hterms, ⟨_, _, _, hselect, haccept⟩, hlisted,
        fun _ => ⟨external, ?_, hname⟩,
      fun _ h => by cases h⟩, ?_⟩
    · rw [← hctx]
      exact hexternal
    · constructor
      · intro hjustified
        exact ⟨fun _ => hjustified.noCookie, fun _ h => by cases h⟩
      · intro hunaffected
        refine ⟨hfirst (hindication haccept), hunaffected.1 ?_, hindex, fun _ h => by cases h⟩
        change t.tls.ctx.preSharedKey.isSome
        rw [← hctx, hexternal]
        rfl
  · obtain rfl : w = { u with tick := u.tick + 1 } := hw hindex
    obtain ⟨octets, hopened, hdecode⟩ := huses.opened
    have hselected := huses.selected
    have hearly : (ch.earlyDataIndication && decide (psk.index = 0 ∧ ret = 0 ∧
        u.tls.ctx.maxEarlyDataSize ≠ 0) && earlyDataIsTimely (env.getTime u.tick) ticket.issuedAt
        identity.obfuscatedTicketAge ticket.ticketAgeAdd) = true := by
      have haccept' := haccept
      rw [hselected] at haccept'
      exact haccept'
    obtain ⟨hoffered, htimely⟩ := Bool.and_eq_true_iff.mp hearly
    obtain ⟨hindication, hret⟩ := Bool.and_eq_true_iff.mp hoffered
    obtain rfl : ret = 0 := (of_decide_eq_true hret).2.1
    have hnoCookie : ¬ (properties.isSome ∧ ch.cookie.isSome ∧ keyShare.isSome) := by
      intro hcookie
      rw [hflight.mpr (.inr hcookie)] at hflight'
      cases hflight'
    let a : EarlyAcceptance :=
      ⟨message, properties, s, ch, keyShare, t, u, identity, psk, some ticket⟩
    have hfits : a.TicketFits env ticket ↔ _ := huses.ticketFits_iff hterms htimely
    refine ⟨a, rfl, rfl, rfl, ⟨⟨message', hread⟩, hterms, ⟨_, _, _, hselect, haccept⟩, hlisted,
      fun h => (by cases h), ?_⟩, ?_⟩
    · intro other hother
      cases hother
      exact ⟨by rw [← hctx]; exact hnone, octets, hopened, hdecode⟩
    · constructor
      · intro hjustified
        refine ⟨fun _ => hnoCookie, fun other hother => ?_⟩
        cases hother
        exact hfits.mp (hjustified.ticketFits ticket rfl)
      · intro hunaffected
        refine ⟨hfirst hindication, hnoCookie, hindex, fun other hother => ?_⟩
        cases hother
        exact hfits.mpr (hunaffected.2 ticket rfl)

/-! ## Runs -/

/-- Every key for early data goes back to an acceptance in the history of the session. -/
def Session.AcceptsEarly (env : Environment) (s : Session) : Prop :=
  ∀ key ∈ earlyKeys s.trace, ∃ a : EarlyAcceptance, (a.after env .record).trace <+: s.trace ∧
    a.Installs env .record key ∧ a.Occurs env ∧ (a.Justified env ↔ a.Unaffected)

/-- Steps that install no key leave the acceptances as they are. -/
theorem Session.AcceptsEarly.of_steps {E : List Effect} (hs : s.AcceptsEarly env)
    (h : Via E s t) (hE : ∀ e ∈ E, e.emits .acceptEarly = false) :
    t.AcceptsEarly env := by
  intro key hkey
  have hkeys : earlyKeys t.trace = earlyKeys s.trace :=
    Steps.filterMap_eq .acceptEarly (fun event hkind => by cases event <;> trivial) h hE
  rw [hkeys] at hkey
  obtain ⟨a, htrace, hrest⟩ := hs key hkey
  exact ⟨a, htrace.trans (Steps.trace_prefix h), hrest⟩

/-- A hello adds its own acceptance, if it adds any. -/
theorem serverHandleHello_acceptsEarly (hs : s.AcceptsEarly env) :
    Session.AcceptsEarly env (serverHandleHello .record message properties env s).2 := by
  intro key hkey
  by_cases hsame : SameEarlyKeys s (serverHandleHello .record message properties env s).2
  · rw [hsame] at hkey
    obtain ⟨a, htrace, hrest⟩ := hs key hkey
    exact ⟨a, htrace.trans (Steps.trace_prefix (Performs.steps.relates env s)), hrest⟩
  · obtain ⟨a, rfl, rfl, rfl, hoccurs, hiff⟩ := serverHandleHello_earlyKeys .record hsame
    exact ⟨a, List.prefix_rfl, ⟨hkey, hsame⟩, hoccurs, hiff⟩

theorem acceptsEarly_isServerInvariant :
    IsServerInvariant (fun _ => Session.AcceptsEarly env) env where
  weaken _ := id
  steps live s s' hsteps hs := hs.of_steps hsteps (by decide)
  hello properties message s hserver hstate hs :=
    ⟨serverHandleHello_acceptsEarly hs, fun _ => serverHandleHello_acceptsEarly hs⟩
  resume s hserver hstate hs := by
    have hafter : Session.AcceptsEarly env (serverFinishHandshake .record true none env s).2 :=
      hs.of_steps (Performs.steps.relates env s) (by decide)
    exact ⟨hafter, fun _ => hafter⟩
  certificate message s hserver hstate hs := by
    have hafter : Session.AcceptsEarly env (serverHandleCertificate message env s).2 :=
      hs.of_steps (Performs.steps.relates env s) (by decide)
    exact ⟨hafter, fun _ => hafter⟩
  certificateVerify message s hserver hstate hs := by
    have hafter : Session.AcceptsEarly env (serverHandleCertificateVerify message env s).2 :=
      hs.of_steps (Performs.steps.relates env s) (by decide)
    exact ⟨hafter, fun _ => hafter⟩
  endOfEarlyData live message s hserver hstate hs :=
    hs.of_steps (Performs.steps.relates env s) (by decide)
  finished live message s hserver hstate hs :=
    hs.of_steps (Performs.steps.relates env s) (by decide)

/-- Early data is accepted rightly just if no cookie comes with an external key and no ticket
without a protocol is used for a connection with one. This holds for every hello that is handled,
and for every key for early data that is installed in a run. -/
theorem early_data_justified_iff (env : Environment) :
    (∀ (emitter : Emitter) (message : Bytes) (properties : Option HandshakeProperties)
      (s : Session), ¬ SameEarlyKeys s (serverHandleHello emitter message properties env s).2 →
      ∃ a : EarlyAcceptance, a.message = message ∧ a.properties = properties ∧ a.before = s ∧
        a.Occurs env ∧ (a.Justified env ↔ a.Unaffected)) ∧
    ∀ (ctx : Context) (operations : List Operation),
      ∀ key ∈ earlyKeys (serverRun env ctx operations).trace,
        ∃ a : EarlyAcceptance,
          (a.after env .record).trace <+: (serverRun env ctx operations).trace ∧
          a.Installs env .record key ∧ a.Occurs env ∧ (a.Justified env ↔ a.Unaffected) := by
  constructor
  · intro emitter message properties s hkeys
    exact serverHandleHello_earlyKeys emitter hkeys
  · intro ctx operations
    have hnew : Session.AcceptsEarly env (.newServer ctx) := nofun
    exact acceptsEarly_isServerInvariant.serverRun_inv hnew operations

namespace Sample

/-- The contents of a ticket that was issued just now, for a protocol if there is one. -/
def sessionIdentifier (protocol : Bytes) : Bytes :=
  block 2 (sessionIdentifierMagic ++ zeros 8 ++ block 2 [4, 5] ++ toBE 2 29 ++ toBE 2 0x1301 ++
    zeros 4 ++ block 2 [] ++ block 1 protocol)

/-- A hello that offers early data with an identity. -/
def earlyHello (extensions identity binder : Bytes) : Bytes :=
  clientHello (clientExtensions [0, 29] ([0, 29] ++ block 2 [7]) ++ extensions ++
    [0, 45] ++ block 2 (block 1 [pskKeModePskDhe]) ++ [0, 42] ++ block 2 [] ++
    [0, 41] ++ block 2 (block 2 (block 2 identity ++ zeros 4) ++ block 2 (block 1 binder)))

/-- The hello offers a ticket without a protocol. -/
def earlyTicketHello : Bytes := earlyHello [] (sessionIdentifier []) [188, 188]

/-- The hello offers the external key and carries a cookie. -/
def earlyCookieHello : Bytes :=
  earlyHello ([0, 44] ++ block 2 (block 2 ([0, 4, 2, 109, 109, 0] ++ block 1 [1, 1]))) [1]
    [252, 252]

/-- The properties of a server that uses cookies. -/
def cookieProperties : HandshakeProperties := { cookieKey := some [1, 2], retryUsesCookie := true }

/-- A server that accepts tickets and early data. -/
def earlyContext : Context := { context with
  ticketLifetime := 10, encryptTicket := true, maxEarlyDataSize := 10, onClientHello := true }

/-- A server that accepts early data with the external key. -/
def earlyPskContext : Context := { pskContext with maxEarlyDataSize := 10 }

/-- The application settles on a protocol. -/
def protocolEnvironment : Environment := { environment with
  onClientHello := fun _ _ => { ret := 0, negotiatedProtocol := some [104] } }

/-- What a server reads from a hello. -/
def readEarly (env : Environment) (ctx : Context) (properties : Option HandshakeProperties)
    (message : Bytes) :
    Except Fault (Bytes × ClientHello × Option (KeyExchangeAlgorithm × Bytes)) × Session :=
  @serverReadHello crypto message properties env (.newServer ctx)

/-- The keys for early data that handling a hello installs. -/
def earlyKeysOf (env : Environment) (ctx : Context) (properties : Option HandshakeProperties)
    (message : Bytes) : List (Option AeadContext) :=
  earlyKeys (@serverHandleHello crypto .record message properties env (.newServer ctx)).2.trace

omit [Crypto] in
/-- A new server has installed no key, so that one after a hello comes from it. -/
theorem not_sameEarlyKeys {env : Environment} {ctx : Context}
    {properties : Option HandshakeProperties} {message : Bytes}
    (h : (earlyKeysOf env ctx properties message).length = 1) :
    ¬ SameEarlyKeys (.newServer ctx)
      (@serverHandleHello crypto .record message properties env (.newServer ctx)).2 := by
  intro hsame
  have hnone : earlyKeysOf env ctx properties message = [] := hsame
  rw [hnone] at h
  cases h

omit [Crypto] in
/-- An acceptance on a new server goes back to what the server reads. -/
theorem readEarly_eq {env : Environment} {ctx : Context}
    {properties : Option HandshakeProperties} {message : Bytes} {a : EarlyAcceptance}
    (hoccurs : @EarlyAcceptance.Occurs crypto a env) (hmessage : a.message = message)
    (hproperties : a.properties = properties) (hbefore : a.before = .newServer ctx) :
    ∃ message', readEarly env ctx properties message =
      (.ok (message', a.hello, a.keyShare), a.read) := by
  subst hmessage hproperties
  rw [readEarly, ← hbefore]
  exact @EarlyAcceptance.Occurs.reads crypto a env hoccurs

omit [Crypto] in
/-- The ticket of the sample, as it is used by an acceptance. -/
theorem earlyTicket_eq {env : Environment} {a : EarlyAcceptance}
    (hoccurs : @EarlyAcceptance.Occurs crypto a env)
    (hmessage : a.message = earlyTicketHello) (hproperties : a.properties = none)
    (hbefore : a.before = .newServer earlyContext)
    (hticket : ∀ tick octets, env.encryptTicket tick false octets = (0, octets))
    (hread : (readEarly env earlyContext none earlyTicketHello).1.map
      (fun result => result.2.1.pskIdentities.map PskIdentity.identity) =
        .ok [sessionIdentifier []])
    (hctx : (readEarly env earlyContext none
      earlyTicketHello).2.tls.ctx.preSharedKey.isNone = true) :
    ∃ ticket, a.ticket = some ticket ∧ ticket.negotiatedProtocol = [] := by
  obtain ⟨message', hreads⟩ := readEarly_eq hoccurs hmessage hproperties hbefore
  rw [hreads] at hread hctx
  have hidentities : a.hello.pskIdentities.map PskIdentity.identity =
      [sessionIdentifier []] := Except.ok.inj hread
  cases hticketOf : a.ticket with
  | none =>
    obtain ⟨key, hkey, -⟩ := @EarlyAcceptance.Occurs.external crypto a env hoccurs hticketOf
    rw [hkey] at hctx
    cases hctx
  | some ticket =>
    obtain ⟨-, octets, hopened, hdecode⟩ :=
      @EarlyAcceptance.Occurs.opened crypto a env hoccurs ticket hticketOf
    have hmem : a.identity.identity ∈ a.hello.pskIdentities.map PskIdentity.identity :=
      List.mem_map_of_mem (List.mem_of_getElem?
        (@EarlyAcceptance.Occurs.listed crypto a env hoccurs))
    rw [hidentities, List.mem_singleton] at hmem
    rw [hmem, hticket] at hopened
    cases hopened
    have hprotocol : (decodeSessionIdentifier (sessionIdentifier [])).map
        SessionIdentifier.negotiatedProtocol = .ok [] := by decide +kernel
    rw [hdecode] at hprotocol
    exact ⟨ticket, rfl, Except.ok.inj hprotocol⟩

end Sample

open Sample

omit [Crypto] in
/-- A new server accepts early data in a flight that answers a cookie, if an external key is used;
and it accepts early data for a connection with a protocol by a ticket without one. -/
theorem early_data_unjustified :
    (∃ a : EarlyAcceptance, a.message = earlyCookieHello ∧
      a.properties = some cookieProperties ∧ a.before = .newServer earlyPskContext ∧
      @EarlyAcceptance.Occurs crypto a environment ∧ a.AnswersCookie ∧
      ¬ a.Justified environment) ∧
    (∃ a : EarlyAcceptance, a.message = earlyTicketHello ∧ a.properties = none ∧
      a.before = .newServer earlyContext ∧
      @EarlyAcceptance.Occurs crypto a protocolEnvironment ∧
      a.read.tls.negotiatedProtocol = some [104] ∧ ¬ a.Justified protocolEnvironment) := by
  constructor
  · have hkeys : (earlyKeysOf environment earlyPskContext
        (some cookieProperties) earlyCookieHello).length = 1 := by decide +kernel
    obtain ⟨a, hmessage, hproperties, hbefore, hoccurs, -⟩ :=
      @serverHandleHello_earlyKeys crypto _ _ _ _ .record (not_sameEarlyKeys hkeys)
    have hread : (readEarly environment earlyPskContext
        (some cookieProperties) earlyCookieHello).1.map
        (fun result => (result.2.1.cookie.isSome, result.2.2.isSome)) = .ok (true, true) := by
      decide +kernel
    obtain ⟨message', hreads⟩ := readEarly_eq hoccurs hmessage hproperties hbefore
    rw [hreads] at hread
    obtain ⟨hcookie, hkeyShare⟩ := Prod.mk.inj (Except.ok.inj hread)
    have hanswers : a.AnswersCookie := ⟨by rw [hproperties]; rfl, hcookie, hkeyShare⟩
    exact ⟨a, hmessage, hproperties, hbefore, hoccurs, hanswers, fun h => h.noCookie hanswers⟩
  · have hkeys : (earlyKeysOf protocolEnvironment earlyContext none
        earlyTicketHello).length = 1 := by decide +kernel
    obtain ⟨a, hmessage, hproperties, hbefore, hoccurs, -⟩ :=
      @serverHandleHello_earlyKeys crypto _ _ _ _ .record (not_sameEarlyKeys hkeys)
    obtain ⟨ticket, hticket, hprotocol⟩ := earlyTicket_eq hoccurs hmessage hproperties hbefore
      (fun _ _ => rfl) (by decide +kernel) (by decide +kernel)
    have hread : (readEarly protocolEnvironment earlyContext none
        earlyTicketHello).2.tls.negotiatedProtocol = some [104] := by decide +kernel
    obtain ⟨message', hreads⟩ := readEarly_eq hoccurs hmessage hproperties hbefore
    rw [hreads] at hread
    refine ⟨a, hmessage, hproperties, hbefore, hoccurs, hread, fun h => ?_⟩
    have hfits := (h.ticketFits ticket hticket).protocol
    rw [if_pos hprotocol, show a.read.tls.negotiatedProtocol = some [104] from hread] at hfits
    cases hfits

omit [Crypto] in
/-- Early data is accepted rightly by a ticket without a protocol for a connection without one; the
run of the server installs the key. -/
theorem early_data_justified_sample :
    (∃ a : EarlyAcceptance, a.message = earlyTicketHello ∧ a.properties = none ∧
      a.before = .newServer earlyContext ∧
      @EarlyAcceptance.Occurs crypto a environment ∧
      a.Justified environment) ∧
    ∃ key ∈ earlyKeys (@serverRun crypto environment earlyContext
        [.handshake none (record earlyTicketHello)]).trace,
      ∃ a : EarlyAcceptance, @EarlyAcceptance.Installs crypto a environment .record key ∧
        (a.Justified environment ↔ a.Unaffected) := by
  constructor
  · have hkeys : (earlyKeysOf environment earlyContext none
        earlyTicketHello).length = 1 := by decide +kernel
    obtain ⟨a, hmessage, hproperties, hbefore, hoccurs, hiff⟩ :=
      (@early_data_justified_iff crypto environment).1 .record _ _ _
        (not_sameEarlyKeys hkeys)
    have hread : (readEarly environment earlyContext none
        earlyTicketHello).2.tls.negotiatedProtocol = none ∧
        (readEarly environment earlyContext none
          earlyTicketHello).2.tls.ctx.preSharedKey.isNone = true := by decide +kernel
    obtain ⟨message', hreads⟩ := readEarly_eq hoccurs hmessage hproperties hbefore
    rw [hreads] at hread
    refine ⟨a, hmessage, hproperties, hbefore, hoccurs, hiff.mpr ⟨fun hsome => ?_, fun _ _ =>
      .inr hread.1⟩⟩
    rw [Option.isNone_iff_eq_none.mp hread.2] at hsome
    cases hsome
  · have hkeys : (earlyKeys (@serverRun crypto environment earlyContext
        [.handshake none (record earlyTicketHello)]).trace).length = 1 := by
      decide +kernel
    obtain ⟨key, hkey⟩ := List.exists_mem_of_length_pos (hkeys ▸ Nat.one_pos)
    obtain ⟨a, -, hinstalls, -, hiff⟩ :=
      (@early_data_justified_iff crypto environment).2 _ _ key hkey
    exact ⟨key, hkey, a, hinstalls, hiff⟩

end Picotls
