import Picotls.Server.Cookie
import Picotls.Effects.KeySchedule

/-!
# Restoring a transcript from a cookie

A server that gets a cookie back puts the hash of the first hello into the transcript, as the
message that stands for that hello, and writes the HelloRetryRequest once more. The output is cut
back afterwards, so that only the key schedule and the message offsets have changed.
-/

namespace Picotls

open Foundation Procedure

variable [Crypto] {env : Environment} {s u : Session}

/-- With memory at hand, the first extraction makes the early secret. -/
theorem attemptExtract_first (halloc : ∀ tick, env.alloc tick = true) (ikm : Option Bytes)
    {sched : KeySchedule} {slot : HashSlot} (hsched : s.tls.keySchedule = some sched)
    (hslot : sched.hashes.head? = some slot) (hgeneration : sched.generation = 0) :
    attemptCode (keyScheduleExtract ikm) env s = (.ok (.ok ()), { s with
      tls := { s.tls with keySchedule := some (sched.extract slot.algo ikm) }
      tick := s.tick + 1 }) := by
  have hfirst : firstHash env s = (.ok slot, s) := firstHash_eq_ok.mpr ⟨sched, hsched, hslot, rfl⟩
  have hsalt : keyScheduleDeriveSalt slot.algo env s = (.ok (), s) := by
    rw [keyScheduleDeriveSalt, bind_of_ok (getKeySchedule_eq_ok.mpr ⟨hsched, rfl⟩), hgeneration]
    rfl
  have hextract : keyScheduleExtract ikm env s = (.ok (), { s with
      tls := { s.tls with keySchedule := some (sched.extract slot.algo ikm) }
      tick := s.tick + 1 }) := by
    rw [keyScheduleExtract, bind_of_ok hfirst]
    dsimp only
    rw [bind_of_ok hsalt]
    simp [bind_run, getKeySchedule, deref, setKeySchedule, hkdfExtract_run, halloc, hsched,
      KeySchedule.extract, KeySchedule.salt, hgeneration]
  rw [attemptCode_run, hextract]

/-- The key schedule after a retry: the early secret, and a transcript. -/
def retrySchedule (suite : CipherSuite) (psk : Option Bytes) (transcript : Bytes) : KeySchedule :=
  KeySchedule.extract { hashes := [{ algo := suite.hash, ctx := transcript }] } suite.hash psk

/-- The transcript that stands for a first hello, given its hash. -/
def ch1Transcript (suite : CipherSuite) (ch1Hash : Bytes) : Bytes :=
  messageHashHeader suite.hash ++ ch1Hash

/-- The connection with the key schedule after a retry. -/
def Tls.retried (tls : Tls) (suite : CipherSuite) (transcript : Bytes) : Tls :=
  { tls with keySchedule := some (retrySchedule suite
      (tls.ctx.preSharedKey.map PreSharedKey.secret) transcript) }

/-- Absorbing a message after a retry extends the transcript. -/
@[simp] theorem Tls.retried_absorb (tls : Tls) (suite : CipherSuite) (transcript message : Bytes) :
    (tls.retried suite transcript).absorb message =
      tls.retried suite (transcript ++ message) := rfl

section Accepting

variable {emitter : Emitter} {properties : HandshakeProperties} {ch : ClientHello}
  {cookie : ClientHelloCookie} {group : KeyExchangeAlgorithm} {suite : CipherSuite}

/-- The HelloRetryRequest that is written once more for a cookie. -/
def rebuiltRetry (ch : ClientHello) (suite : CipherSuite) (group : KeyExchangeAlgorithm)
    (cookie : ClientHelloCookie) : Bytes :=
  helloRetryRequest ch.legacySessionId suite.id ch.selectedVersion
    ((if cookie.sentKeyShare then some group else none : Option KeyExchangeAlgorithm).map
      KeyExchangeAlgorithm.id)
    (encodeExtension ExtensionType.cookie cookie.all)

/-- What a server needs in order to accept a cookie: a key, parts that are short enough to be
signed, the right signature, and room for the HelloRetryRequest. -/
structure AcceptsCookie (emitter : Emitter) (u : Session) (properties : HandshakeProperties)
    (ch : ClientHello) (suite : CipherSuite) (group : KeyExchangeAlgorithm)
    (cookie : ClientHelloCookie) : Prop where
  keyed : (u.tls.cookieKey properties).isSome = true
  fits : (u.tls.cookieBinding properties suite.id group.id cookie.tbs).Fits
  signature : cookie.signature = cookieSignature (u.tls.cookieKey properties)
    (u.tls.cookieBinding properties suite.id group.id cookie.tbs)
  extension : cookie.all.length < 256 ^ 2
  retry : RetryFits emitter u (u.tls.retried suite (ch1Transcript suite cookie.ch1Hash))
    ch.legacySessionId suite.id ch.selectedVersion
    ((if cookie.sentKeyShare then some group else none : Option KeyExchangeAlgorithm).map
      KeyExchangeAlgorithm.id) (encodeExtension ExtensionType.cookie cookie.all)

/-- The session after a transcript has been restored. -/
def Session.restored (u : Session) (ch : ClientHello) (suite : CipherSuite)
    (group : KeyExchangeAlgorithm) (cookie : ClientHelloCookie) (tick : ℕ) (offs : List ℕ) :
    Session :=
  { u with
    tls := u.tls.retried suite (ch1Transcript suite cookie.ch1Hash ++
      rebuiltRetry ch suite group cookie)
    tick := tick
    epochOffsets := offs
    trace := u.trace ++ [.absorbCookie cookie.ch1Hash (rebuiltRetry ch suite group cookie)] }

/-- The key schedule before the HelloRetryRequest is written. -/
theorem restoreFromCookie_eq (halloc : ∀ tick, env.alloc tick = true)
    (hschedule : u.tls.keySchedule = some { hashes := [{ algo := suite.hash }] }) :
    restoreFromCookie emitter ch cookie group env u =
      rebuildRetry emitter ch cookie group env { u with
        tls := u.tls.retried suite (ch1Transcript suite cookie.ch1Hash)
        tick := u.tick + 1 } := by
  have hfirst : firstHash env u = (.ok { algo := suite.hash }, u) :=
    firstHash_eq_ok.mpr ⟨_, hschedule, rfl, rfl⟩
  have hheader : keyScheduleUpdateCh1hashPrefix env u =
      (.ok (), { u with tls := u.tls.absorb (messageHashHeader suite.hash) }) := by
    rw [keyScheduleUpdateCh1hashPrefix, bind_of_ok hfirst]
    exact keyScheduleUpdateHash_run _ hschedule
  have hsched : (u.tls.absorb (messageHashHeader suite.hash)).keySchedule = some
      { hashes := [{ algo := suite.hash, ctx := messageHashHeader suite.hash }] } := by
    rw [Tls.absorb, hschedule]
    rfl
  set w : Session := { u with
    tls := (u.tls.absorb (messageHashHeader suite.hash)).absorb cookie.ch1Hash } with hw
  have hhash : keyScheduleUpdateHash cookie.ch1Hash false env
      { u with tls := u.tls.absorb (messageHashHeader suite.hash) } = (.ok (), w) :=
    keyScheduleUpdateHash_run _ hsched
  have hsched' : w.tls.keySchedule = some
      { hashes := [{ algo := suite.hash, ctx := ch1Transcript suite cookie.ch1Hash }] } := by
    rw [hw, Tls.absorb, hsched]
    rfl
  have hextract := attemptExtract_first halloc (w.tls.ctx.preSharedKey.map PreSharedKey.secret)
    hsched' rfl rfl
  rw [restoreFromCookie, bind_of_ok hheader, bind_of_ok hhash, getTls_bind, bind_of_ok hextract]
  rfl

/-- With memory at hand, the transcript is restored exactly if there is room for the
HelloRetryRequest. -/
theorem restoreFromCookie_run (halloc : ∀ tick, env.alloc tick = true)
    (hsuite : u.tls.cipherSuite = some suite)
    (hschedule : u.tls.keySchedule = some { hashes := [{ algo := suite.hash }] })
    (henc : u.tls.enc.aead = none) :
    let C := cookie.all.length < 256 ^ 2 ∧ RetryFits emitter u
      (u.tls.retried suite (ch1Transcript suite cookie.ch1Hash)) ch.legacySessionId suite.id
      ch.selectedVersion
      ((if cookie.sentKeyShare then some group else none : Option KeyExchangeAlgorithm).map
        KeyExchangeAlgorithm.id) (encodeExtension ExtensionType.cookie cookie.all)
    (∀ v, restoreFromCookie emitter ch cookie group env u = (.ok (), v) →
      C ∧ ∃ tick offs, v = u.restored ch suite group cookie tick offs) ∧
    (C → ∃ v, restoreFromCookie emitter ch cookie group env u = (.ok (), v)) := by
  intro C
  set w : Session := { u with
    tls := u.tls.retried suite (ch1Transcript suite cookie.ch1Hash)
    tick := u.tick + 1 } with hw
  have hpush (header : Bytes) (tick : ℕ) : Builds (cookie.all.length < 256 ^ 2) env
      (w.appended w.tls header tick)
      ((do
        bufferPushExtension ExtensionType.cookie (bufferPushv cookie.all)
        return none : Proc (Option ℕ)) env (w.appended w.tls header tick))
      (encodeExtension ExtensionType.cookie cookie.all) none w.tls := by
    have hextension : Builds (cookie.all.length < 256 ^ 2) env (w.appended w.tls header tick)
        (bufferPushExtension ExtensionType.cookie (bufferPushv cookie.all) env
          (w.appended w.tls header tick))
        (encodeExtension ExtensionType.cookie cookie.all) () w.tls :=
      (Builds.bufferPushExtension fun tick => Builds.bufferPushv _ _).of_iff (by simp)
    exact hextension.andReturn fun tick => rfl
  have hemits : Emits C env w (emitHelloRetryRequest emitter ch
      (if cookie.sentKeyShare then some group else none) (do
        bufferPushExtension ExtensionType.cookie (bufferPushv cookie.all)
        return none) env w) (emitter.wrap (rebuiltRetry ch suite group cookie))
      (rebuiltRetry ch suite group cookie)
      (w.tls.absorb (rebuiltRetry ch suite group cookie)) :=
    (emitHelloRetryRequest_emits hpush hsuite henc rfl).of_iff
      (and_congr_right fun _ => ⟨fun h => h.of_eq rfl rfl, fun h => h.of_eq rfl rfl⟩)
  rw [restoreFromCookie_eq halloc hschedule, rebuildRetry, sendbufOff, observe_bind]
  refine ⟨fun v hrun => ?_, fun hC => ?_⟩
  · obtain ⟨hrr, w', hemit, hrun⟩ := bind_eq_ok.mp hrun
    obtain ⟨hC, rfl, tick, offs, rfl⟩ := hemits.returns hrr w' hemit
    cases hrun
    refine ⟨hC, tick, offs, ?_⟩
    simp [Session.restored, Session.emitted, hw]
  · obtain ⟨hrr, w', hemit⟩ := hemits.succeeds hC halloc
    exact ⟨_, bind_of_ok hemit⟩

/-- With memory at hand, a cookie is accepted exactly if the server has what it needs for that, and
then the transcript is restored. -/
theorem serverAcceptCookie_run (halloc : ∀ tick, env.alloc tick = true)
    (hsuite : u.tls.cipherSuite = some suite)
    (hschedule : u.tls.keySchedule = some { hashes := [{ algo := suite.hash }] })
    (henc : u.tls.enc.aead = none) :
    (∀ v, serverAcceptCookie emitter properties ch cookie group env u = (.ok (), v) →
      AcceptsCookie emitter u properties ch suite group cookie ∧
      ∃ tick offs, v = u.restored ch suite group cookie tick offs) ∧
    (AcceptsCookie emitter u properties ch suite group cookie →
      ∃ v, serverAcceptCookie emitter properties ch cookie group env u = (.ok (), v)) := by
  have hsign : Builds ((u.tls.cookieKey properties).isSome = true ∧
      (u.tls.cookieBinding properties suite.id group.id cookie.tbs).Fits) env u
      (calcCookieSignature properties (some group) cookie.tbs env u) [] _ u.tls :=
    calcCookieSignature_builds cookie.tbs hsuite
  refine ⟨fun v hrun => ?_, fun h => ?_⟩
  · rw [serverAcceptCookie] at hrun
    obtain ⟨signature, s₁, hcalc, hrun⟩ := bind_eq_ok.mp hrun
    obtain ⟨⟨hkeyed, hfits⟩, rfl, tick, rfl⟩ := hsign.returns signature s₁ hcalc
    obtain ⟨_, s₂, hcheck, hrun⟩ := bind_eq_ok.mp hrun
    obtain ⟨hsignature, rfl⟩ := throwIf_eq_ok.mp hcheck
    rw [Session.appended_nil] at hrun
    obtain ⟨⟨hall, hretry⟩, tick', offs, rfl⟩ :=
      (restoreFromCookie_run (u := { u with tick := tick }) halloc hsuite hschedule henc).1 v hrun
    exact ⟨⟨hkeyed, hfits, not_not.mp hsignature, hall, hretry.of_eq rfl rfl⟩, tick', offs, rfl⟩
  · obtain ⟨tick, hcalc⟩ := hsign.run ⟨h.keyed, h.fits⟩ halloc
    have hretry : RetryFits emitter { u with tick := tick }
        (u.tls.retried suite (ch1Transcript suite cookie.ch1Hash)) ch.legacySessionId suite.id
        ch.selectedVersion _ (encodeExtension ExtensionType.cookie cookie.all) :=
      h.retry.of_eq rfl rfl
    obtain ⟨v, hrest⟩ := (restoreFromCookie_run (u := { u with tick := tick }) halloc hsuite
      hschedule henc).2 ⟨h.extension, hretry⟩
    refine ⟨v, ?_⟩
    rw [serverAcceptCookie, bind_of_ok hcalc, throwIf_bind_of_not (not_not.mpr h.signature),
      Session.appended_nil]
    exact hrest

end Accepting

end Picotls
