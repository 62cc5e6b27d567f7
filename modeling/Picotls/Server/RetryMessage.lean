import Picotls.Sending.MessageWriter
import Picotls.Server.Retry

/-!
# The octets of a HelloRetryRequest

A server writes a HelloRetryRequest when it asks for another hello, and once more when it gets its
own cookie back. Both writers append the same function of the session identifier, the cipher suite,
the group, and the cookie, and absorb it into the transcript.
-/

namespace Picotls

open Foundation Procedure

variable {env : Environment} {s : Session} {sessionId : Bytes} {version : ℕ}

/-- The connection after a message has been absorbed. -/
def Tls.absorb (tls : Tls) (message : Bytes) : Tls :=
  { tls with keySchedule := tls.keySchedule.map fun sched =>
      { sched with hashes := sched.hashes.map (HashSlot.absorb message false) } }

theorem keyScheduleUpdateHash_run {sched : KeySchedule} (message : Bytes)
    (hsched : s.tls.keySchedule = some sched) :
    keyScheduleUpdateHash message false env s =
      (.ok (), { s with tls := s.tls.absorb message }) := by
  have hget : getKeySchedule env s = (.ok sched, s) := by
    rw [getKeySchedule, getTls_bind, hsched]
    rfl
  rw [keyScheduleUpdateHash, bind_of_ok hget, Bool.false_and, mapHashes]
  have hset :
      setKeySchedule { sched with hashes := sched.hashes.map (HashSlot.absorb message false) }
        env s = (.ok (), { s with tls := s.tls.absorb message }) := by
    rw [setKeySchedule, modifyTls_run, Tls.absorb, hsched]
    rfl
  rw [← hset, runIf, if_neg Bool.false_ne_true, bind_run, pure_run]
  exact bind_of_ok hget

/-- The extensions of a HelloRetryRequest. -/
def helloRetryExtensions (version : ℕ) (group : Option ℕ) (additional : Bytes) : Bytes :=
  encodeExtension ExtensionType.supportedVersions (toBE 2 version) ++
    (group.elim [] (fun id => encodeExtension ExtensionType.keyShare (toBE 2 id)) ++ additional)

/-- The body of a HelloRetryRequest. -/
def helloRetryBody (sessionId : Bytes) (suite version : ℕ) (group : Option ℕ)
    (additional : Bytes) : Bytes :=
  toBE 2 0x0303 ++ (helloRetryRandom ++ (encodeBlock 1 sessionId ++ (toBE 2 suite ++ ([0] ++
    encodeBlock 2 (helloRetryExtensions version group additional)))))

/-- A HelloRetryRequest. -/
def helloRetryRequest (sessionId : Bytes) (suite version : ℕ) (group : Option ℕ)
    (additional : Bytes) : Bytes :=
  encodeMessage HandshakeType.serverHello (helloRetryBody sessionId suite version group additional)

theorem pushRetryGroup_builds (s : Session) (group : Option KeyExchangeAlgorithm) :
    Builds True env s (whenSome group (fun algo =>
        bufferPushExtension ExtensionType.keyShare (bufferPushUInt 2 algo.id)) env s)
      ((group.map KeyExchangeAlgorithm.id).elim [] fun id =>
        encodeExtension ExtensionType.keyShare (toBE 2 id)) () s.tls := by
  cases group with
  | none => exact Builds.value s ()
  | some algo =>
    refine (Builds.bufferPushExtension fun tick => Builds.bufferPushUInt _ 2 algo.id).of_iff ?_
    simp

/-- What a HelloRetryRequest needs in order to be written: the parts fit into their length fields,
and the message can be committed. -/
structure RetryFits (emitter : Emitter) (s : Session) (tls : Tls) (sessionId : Bytes)
    (suite version : ℕ) (group : Option ℕ) (additional : Bytes) : Prop where
  session : sessionId.length < 256 ^ 1
  extensions : (helloRetryExtensions version group additional).length < 256 ^ 2
  body : (helloRetryBody sessionId suite version group additional).length < 256 ^ 3
  commits : (emitter.commitOffsets tls (helloRetryRequest sessionId suite version group additional)
    s.sendbuf.length s.epochOffsets).isSome = true

/-- Only the end of the output and the message offsets matter. -/
theorem RetryFits.of_eq {emitter : Emitter} {u : Session} {tls : Tls} {suite : ℕ} {group : Option ℕ}
    {additional : Bytes} (h : RetryFits emitter s tls sessionId suite version group additional)
    (hsendbuf : u.sendbuf = s.sendbuf) (hoffs : u.epochOffsets = s.epochOffsets) :
    RetryFits emitter u tls sessionId suite version group additional where
  session := h.session
  extensions := h.extensions
  body := h.body
  commits := by
    rw [hsendbuf, hoffs]
    exact h.commits

/-- Offsets that stand at the end of the output can be advanced. -/
theorem advanceEpochOffsets_isSome {epoch start stop i : ℕ} {offs : List ℕ}
    (h : ∀ off ∈ offs, off = start) :
    (advanceEpochOffsets epoch start stop i offs).isSome = true := by
  induction offs generalizing i with
  | nil => rfl
  | cons off offs ih =>
    have hrest : (advanceEpochOffsets epoch start stop (i + 1) offs).isSome = true :=
      ih fun off' hoff' => h off' (List.mem_cons_of_mem off hoff')
    rw [advanceEpochOffsets, if_pos (h off List.mem_cons_self)]
    split_ifs <;> rwa [Option.isSome_map]

/-- A short HelloRetryRequest can be written, where no output of later epochs is in the way. -/
theorem RetryFits.of_short {emitter : Emitter} {tls : Tls} {suite : ℕ} {group : Option ℕ}
    {additional : Bytes} (hsession : sessionId.length ≤ 32) (hadditional : additional.length ≤ 1024)
    (hoffs : emitter = .raw → ∀ off ∈ s.epochOffsets, off = s.sendbuf.length) :
    RetryFits emitter s tls sessionId suite version group additional := by
  have hextensions : (helloRetryExtensions version group additional).length ≤ 1036 := by
    cases group <;> simp only [helloRetryExtensions, List.length_append, encodeExtension_length,
      toBE_length, Option.elim, List.length_nil] <;> omega
  have hbody : (helloRetryBody sessionId suite version group additional).length ≤ 1108 := by
    simp only [helloRetryBody, List.length_append, toBE_length, encodeBlock_length,
      List.length_singleton]
    have hrandom : helloRetryRandom.length = 32 := rfl
    omega
  refine ⟨by omega, by omega, by omega, ?_⟩
  cases emitter with
  | record =>
    have hfits : (helloRetryRequest sessionId suite version group additional).length ≤
        maxPlaintextRecordSize := by
      rw [helloRetryRequest, encodeMessage_length]
      exact le_trans (Nat.add_le_add_left hbody 4) (by decide)
    rw [Emitter.commitOffsets, if_pos hfits]
    rfl
  | raw => exact advanceEpochOffsets_isSome (hoffs rfl)

variable [Crypto]

section Writer

variable {C : Prop} {emitter : Emitter} {ch : ClientHello} {group : Option KeyExchangeAlgorithm}
  {additional : Proc (Option ℕ)} {octets : Bytes} {tls : Tls} {suite : CipherSuite}
  {sched : KeySchedule}

omit [Crypto] in
theorem pushRetryExtensions_builds
    (hadditional : ∀ header tick, Builds C env (s.appended s.tls header tick)
      (additional env (s.appended s.tls header tick)) octets none tls) (header : Bytes)
    (tick : ℕ) :
    Builds C env (s.appended s.tls header tick)
      ((do
        bufferPushExtension ExtensionType.supportedVersions (bufferPushUInt 2 ch.selectedVersion)
        pushRetryExtensions group additional : Proc (Option ℕ)) env (s.appended s.tls header tick))
      (helloRetryExtensions ch.selectedVersion (group.map KeyExchangeAlgorithm.id) octets)
      none tls := by
  have hversion : Builds True env (s.appended s.tls header tick)
      (bufferPushExtension ExtensionType.supportedVersions (bufferPushUInt 2 ch.selectedVersion)
        env (s.appended s.tls header tick))
      (encodeExtension ExtensionType.supportedVersions (toBE 2 ch.selectedVersion)) () s.tls :=
    (Builds.bufferPushExtension fun tick => Builds.bufferPushUInt _ 2 _).of_iff (by simp)
  refine hversion.seq fun tick => (pushRetryGroup_builds _ group).seq fun tick => ?_
  rw [Session.appended_appended, Session.appended_appended]
  exact hadditional _ tick

omit [Crypto] in
/-- The body of a HelloRetryRequest is the function of its parts. -/
theorem pushHelloRetryBody_builds
    (hadditional : ∀ header tick, Builds C env (s.appended s.tls header tick)
      (additional env (s.appended s.tls header tick)) octets none tls)
    (hsuite : s.tls.cipherSuite = some suite) (header : Bytes) (tick : ℕ) :
    Builds (ch.legacySessionId.length < 256 ^ 1 ∧ C ∧ (helloRetryExtensions ch.selectedVersion
        (group.map KeyExchangeAlgorithm.id) octets).length < 256 ^ 2) env
      (s.appended s.tls header tick)
      (pushServerHelloBody ch (pure (helloRetryRandom, none)) (pushRetryExtensions group additional)
        env (s.appended s.tls header tick))
      (helloRetryBody ch.legacySessionId suite.id ch.selectedVersion
        (group.map KeyExchangeAlgorithm.id) octets)
      ((s.sendbuf ++ header).length - handshakeHeaderSize, none) tls := by
  have hsession (u : Session) : Builds (ch.legacySessionId.length < 256 ^ 1) env u
      (bufferPushBlock 1 (bufferPushv ch.legacySessionId) env u)
      (encodeBlock 1 ch.legacySessionId) () u.tls :=
    (Builds.bufferPushBlock fun tick => Builds.bufferPushv _ _).of_iff (by simp)
  rw [pushServerHelloBody, sendbufOff, observe_bind]
  refine (Builds.bufferPushUInt _ 2 0x0303).seq fun _ => (Builds.allocate _).seq fun _ =>
    (Builds.value _ (helloRetryRandom, none)).seq fun _ =>
    (Builds.appendReserved _ helloRetryRandom).seq fun _ => (hsession _).bind fun _ _ => ?_
  rw [getTls_bind]
  simp only [Session.appended_tls, Session.appended_appended]
  rw [hsuite, deref_some_bind]
  refine (Builds.bufferPushUInt _ 2 suite.id).seq fun _ => (Builds.bufferPushv _ [0]).seq fun _ =>
    Builds.andReturn (Builds.bufferPushBlock fun _ => ?_) fun _ => rfl
  simp only [Session.appended_appended]
  exact pushRetryExtensions_builds hadditional _ _

/-- A HelloRetryRequest is written as the function of its parts and absorbed. -/
theorem emitHelloRetryRequest_emits
    (hadditional : ∀ header tick, Builds C env (s.appended s.tls header tick)
      (additional env (s.appended s.tls header tick)) octets none tls)
    (hsuite : s.tls.cipherSuite = some suite) (henc : tls.enc.aead = none)
    (hsched : tls.keySchedule = some sched) :
    Emits (C ∧ RetryFits emitter s tls ch.legacySessionId suite.id ch.selectedVersion
        (group.map KeyExchangeAlgorithm.id) octets) env s
      (emitHelloRetryRequest emitter ch group additional env s)
      (emitter.wrap (helloRetryRequest ch.legacySessionId suite.id ch.selectedVersion
        (group.map KeyExchangeAlgorithm.id) octets))
      (helloRetryRequest ch.legacySessionId suite.id ch.selectedVersion
        (group.map KeyExchangeAlgorithm.id) octets)
      (tls.absorb (helloRetryRequest ch.legacySessionId suite.id ch.selectedVersion
        (group.map KeyExchangeAlgorithm.id) octets)) := by
  generalize hgroup : group.map KeyExchangeAlgorithm.id = id
  set hrr := helloRetryRequest ch.legacySessionId suite.id ch.selectedVersion id octets with hhrr
  have hwritten : Emits (C ∧ RetryFits emitter s tls ch.legacySessionId suite.id
      ch.selectedVersion id octets) env s (writeMessage emitter false HandshakeType.serverHello
        (pushServerHelloBody ch (pure (helloRetryRandom, none))
          (pushRetryExtensions group additional)) env s) (emitter.wrap hrr)
      (((s.sendbuf ++ (emitter.header ++ ([HandshakeType.serverHello] ++ zeros 3))).length -
        handshakeHeaderSize, none), hrr) tls :=
    (writeMessage_emits (fun tick => hgroup ▸
      pushHelloRetryBody_builds hadditional hsuite _ tick) henc).of_iff ⟨
        fun h => ⟨h.1.1.2.1, h.1.1.1, h.1.1.2.2, h.1.2, h.2⟩,
        fun h => ⟨⟨⟨h.2.session, h.1, h.2.extensions⟩, h.2.body⟩, h.2.commits⟩⟩
  refine hwritten.andThen fun tick offs => ?_
  clear_value hrr
  have hdrop : (s.emitted tls (emitter.wrap hrr) tick offs).sendbuf.drop ((s.sendbuf ++
      (emitter.header ++ ([HandshakeType.serverHello] ++ zeros 3))).length - handshakeHeaderSize) =
      hrr := by
    have hstart : (s.sendbuf ++ (emitter.header ++ ([HandshakeType.serverHello] ++
        zeros 3))).length - handshakeHeaderSize = s.sendbuf.length + emitter.header.length := by
      simp only [List.length_append, List.length_singleton, zeros_length, handshakeHeaderSize]
      omega
    rw [hstart]
    exact emitter.drop_wrap s.sendbuf hrr
  have habsorb : keyScheduleUpdateHash hrr false env (s.emitted tls (emitter.wrap hrr) tick offs) =
      (.ok (), s.emitted (tls.absorb hrr) (emitter.wrap hrr) tick offs) :=
    keyScheduleUpdateHash_run hrr hsched
  dsimp only [whenSome]
  rw [bind_run, pure_run, getSendbuf]
  dsimp only
  rw [observe_bind, hdrop, bind_of_ok habsorb, pure_run]

end Writer

end Picotls
