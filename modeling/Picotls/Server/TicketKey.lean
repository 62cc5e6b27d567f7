import Picotls.Client.Transcript

/-!
# The key of a ticket

A server that seals a ticket has not got the client's Finished yet. It absorbs what the client is
expected to send, derives the resumption secret over that transcript, and puts the transcript back
afterwards. The key of a ticket is thus a function of the connection at that point and of the nonce
of the ticket.
-/

namespace Picotls

open Foundation Procedure

variable [Crypto] {env : Environment} {s t : Session} {nonce ticketAgeAdd : Bytes} {u : Unit}

/-- What the key of a ticket is derived from: the transcript and its hash, the secret of the key
schedule, the secret under which the client's Finished is expected, and whether the client is
expected to end its early data first. -/
structure TicketInputs where
  algo : HashAlgorithm
  transcript : Bytes
  secret : Bytes
  finishedSecret : Bytes
  expectsEnd : Bool

/-- The inputs of a connection. -/
def Session.ticketInputs (s : Session) : Option TicketInputs :=
  s.tls.keySchedule.bind fun sched => sched.hashes.head?.map fun slot =>
    { algo := slot.algo, transcript := slot.ctx, secret := sched.secret
      finishedSecret := s.tls.pendingHandshakeSecret.getD s.tls.dec.secret
      expectsEnd := s.tls.pendingHandshakeSecret.isSome && !s.tls.ctx.omitEndOfEarlyData }

/-- The inputs with another message in the transcript. -/
def TicketInputs.absorb (inputs : TicketInputs) (message : Bytes) : TicketInputs :=
  { inputs with transcript := inputs.transcript ++ message }

/-- The end of early data. -/
def endOfEarlyDataMessage : Bytes := encodeMessage HandshakeType.endOfEarlyData []

/-- The Finished of the client over the transcript so far. -/
def TicketInputs.finished (inputs : TicketInputs) : Bytes :=
  encodeMessage HandshakeType.finished (hmac inputs.algo
    (hkdfExpandLabelDigest inputs.algo inputs.algo.digestSize inputs.finishedSecret .finished []
      hkdfExpandLabelPrefix) (Crypto.hash inputs.algo inputs.transcript))

/-- The inputs at the end of the handshake. -/
def TicketInputs.completed (inputs : TicketInputs) : TicketInputs :=
  let ended := if inputs.expectsEnd then inputs.absorb endOfEarlyDataMessage else inputs
  ended.absorb ended.finished

/-- The resumption secret of a transcript and a nonce. -/
def TicketInputs.resumptionSecret (inputs : TicketInputs) (nonce : Bytes) : Bytes :=
  hkdfExpandLabelDigest inputs.algo inputs.algo.digestSize
    (hkdfExpandLabelDigest inputs.algo inputs.algo.digestSize
      (inputs.secret.take inputs.algo.digestSize) .resumptionMaster
      (Crypto.hash inputs.algo inputs.transcript) hkdfExpandLabelPrefix)
    .resumption nonce hkdfExpandLabelPrefix

omit [Crypto] in
theorem firstHash_inputs {slot : HashSlot} (h : firstHash env s = (.ok slot, t)) :
    ∃ inputs, s.ticketInputs = some inputs ∧ inputs.algo = slot.algo ∧
      inputs.transcript = slot.ctx ∧ t = s := by
  obtain ⟨sched, hsched, hslot, rfl⟩ := firstHash_eq_ok.mp h
  exact ⟨_, by rw [Session.ticketInputs, hsched, Option.bind_some, hslot, Option.map_some],
    rfl, rfl, rfl⟩

omit [Crypto] in
/-- Absorbing a message adds it to the inputs. -/
theorem keyScheduleUpdateHash_inputs {message : Bytes}
    (h : keyScheduleUpdateHash message false env s = (.ok u, t)) :
    t.ticketInputs = s.ticketInputs.map (·.absorb message) := by
  obtain ⟨sched, s₁, hget, -⟩ := bind_eq_ok.mp h
  obtain ⟨hsched, -⟩ := getKeySchedule_eq_ok.mp hget
  rw [keyScheduleUpdateHash_run message hsched] at h
  cases h
  rw [Session.ticketInputs, Session.ticketInputs, Tls.absorb, hsched]
  rcases sched with ⟨_, _, _ | ⟨slot, rest⟩⟩ <;> rfl

variable {inputs : TicketInputs}

omit [Crypto] in
/-- The inputs that a connection has apart from its transcript. -/
theorem ticketInputs_eq (hs : s.ticketInputs = some inputs) :
    inputs.finishedSecret = s.tls.pendingHandshakeSecret.getD s.tls.dec.secret ∧
      inputs.expectsEnd =
        (s.tls.pendingHandshakeSecret.isSome && !s.tls.ctx.omitEndOfEarlyData) := by
  obtain ⟨sched, -, hs⟩ := Option.bind_eq_some_iff.mp hs
  obtain ⟨slot, -, rfl⟩ := Option.map_eq_some_iff.mp hs
  exact ⟨rfl, rfl⟩

omit [Crypto] in
theorem ticketInputs_congr (h : t.tls = s.tls) : t.ticketInputs = s.ticketInputs := by
  rw [Session.ticketInputs, h, Session.ticketInputs]

/-- The tag of the Finished that is expected. -/
theorem calcVerifyData_inputs {secret tag : Bytes} (h : calcVerifyData secret env s = (.ok tag, t))
    (hs : s.ticketInputs = some inputs) (hsecret : secret = inputs.finishedSecret) :
    inputs.finished = encodeMessage HandshakeType.finished tag := by
  obtain ⟨slot, s₁, hslot, hrest⟩ := bind_eq_ok.mp h
  obtain ⟨inputs', hs', halgo, hctx, rfl⟩ := firstHash_inputs hslot
  obtain rfl := Option.some.inj (hs.symm.trans hs')
  obtain ⟨key, s₂, hkey, hmac⟩ := bind_eq_ok.mp hrest
  obtain ⟨-, -, -, rfl, -⟩ := hkdfExpandLabel_eq_ok.mp hkey
  obtain ⟨_, s₃, -, houtput⟩ := bind_eq_ok.mp hmac
  cases houtput
  rw [TicketInputs.finished, halgo, hctx, ← hsecret]
  rfl

/-- The server absorbs what the client is expected to send. -/
theorem absorbExpectedFinished_inputs (hs : s.ticketInputs = some inputs)
    (h : absorbExpectedFinished env s = (.ok u, t)) : t.ticketInputs = some inputs.completed := by
  rw [absorbExpectedFinished, sendbufOff, observe_bind, getTls_bind] at h
  obtain ⟨_, s₁, hend, h⟩ := bind_eq_ok.mp h
  obtain ⟨⟨_, message⟩, s₂, hfinished, h⟩ := bind_eq_ok.mp h
  cases h
  have hends : s₁.ticketInputs = some (if inputs.expectsEnd then
      inputs.absorb endOfEarlyDataMessage else inputs) := by
    have hexpects : inputs.expectsEnd =
        (s.tls.pendingHandshakeSecret.isSome && !s.tls.ctx.omitEndOfEarlyData) :=
      (ticketInputs_eq hs).2
    rw [runIf, ← hexpects] at hend
    split_ifs at hend ⊢ with hexpected
    · obtain ⟨_, s₃, hassert, hend⟩ := bind_eq_ok.mp hend
      obtain ⟨-, rfl⟩ := assert_eq_ok.mp hassert
      obtain ⟨⟨_, message'⟩, s₄, hmessage, hend⟩ := bind_eq_ok.mp hend
      cases hend
      obtain ⟨tick, t₁, t₂, hblock, htls, -, habsorb, hoctets⟩ :=
        bufferPushMessageBody_eq_ok hmessage
      cases hblock
      rw [hoctets [] (List.append_nil _).symm] at habsorb
      change s₄.ticketInputs = _
      rw [keyScheduleUpdateHash_inputs habsorb, ticketInputs_congr (s := s₃) htls, hs]
      rfl
    · cases hend
      exact hs
  set ended := if inputs.expectsEnd then inputs.absorb endOfEarlyDataMessage else inputs with hended
  have hsecret : s.tls.pendingHandshakeSecret.getD s.tls.dec.secret = ended.finishedSecret := by
    rw [hended, ← (ticketInputs_eq hs).1]
    split_ifs <;> rfl
  obtain ⟨tick, t₁, t₂, hblock, htls, -, habsorb, hoctets⟩ := bufferPushMessageBody_eq_ok hfinished
  obtain ⟨_, s₃, hallocate, hblock⟩ := bind_eq_ok.mp hblock
  obtain ⟨-, rfl⟩ := allocate_eq_ok.mp hallocate
  obtain ⟨tag, s₄, htag, hblock⟩ := bind_eq_ok.mp hblock
  cases hblock
  have htls₄ := tls_eq_of_run htag (by decide)
  have hout : SameOutput _ s₄ := Respects.run htag
  have hmessage := hoctets tag (congrArg (· ++ tag) hout.1)
  rw [hmessage, ← calcVerifyData_inputs htag hends hsecret] at habsorb
  change s₂.ticketInputs = _
  rw [keyScheduleUpdateHash_inputs habsorb, ticketInputs_congr (s := s₁) (htls.trans htls₄), hends]
  rfl

/-- The resumption secret for a nonce. -/
theorem deriveResumptionSecret_inputs {psk : Bytes}
    (h : deriveResumptionSecret nonce env s = (.ok psk, t)) (hs : s.ticketInputs = some inputs) :
    psk = inputs.resumptionSecret nonce := by
  obtain ⟨slot, s₁, hslot, hrest⟩ := bind_eq_ok.mp h
  obtain ⟨sched, hsched, hhead, rfl⟩ := firstHash_eq_ok.mp hslot
  rw [Session.ticketInputs, hsched, Option.bind_some, hhead, Option.map_some] at hs
  obtain rfl := Option.some.inj hs
  obtain ⟨master, s₂, hmaster, hexpand⟩ := bind_eq_ok.mp hrest
  obtain ⟨-, -, -, rfl, -⟩ := hkdfExpandLabel_eq_ok.mp hexpand
  rw [deriveSecret, bind_of_ok hslot, deriveSecretWithHash, bind_of_ok hslot,
    bind_of_ok (getKeySchedule_eq_ok.mpr ⟨hsched, rfl⟩)] at hmaster
  obtain ⟨-, -, -, rfl, -⟩ := hkdfExpandLabel_eq_ok.mp hmaster
  rfl

/-- The key that a session identifier holds. -/
theorem encodeSessionIdentifier_inputs {ctx : Context} {psk : Bytes}
    {serverName protocol : Option Bytes} {keyExchange csid : ℕ}
    (h : encodeSessionIdentifier ctx ticketAgeAdd nonce serverName keyExchange csid protocol env s =
      (.ok psk, t))
    (hs : s.ticketInputs = some inputs) : psk = inputs.resumptionSecret nonce := by
  obtain ⟨tick, t₁, hbody, -⟩ := bufferPushBlock_eq_ok h
  obtain ⟨_, s₁, hmagic, hbody⟩ := bind_eq_ok.mp hbody
  obtain ⟨now, s₂, hnow, hbody⟩ := bind_eq_ok.mp hbody
  obtain ⟨_, s₃, htime, hbody⟩ := bind_eq_ok.mp hbody
  obtain ⟨psk', s₄, hpsk, hbody⟩ := bind_eq_ok.mp hbody
  have hreturns : psk' = psk := by
    obtain ⟨_, s₅, -, hbody⟩ := bind_eq_ok.mp hbody
    obtain ⟨_, s₆, -, hbody⟩ := bind_eq_ok.mp hbody
    obtain ⟨_, s₇, -, hbody⟩ := bind_eq_ok.mp hbody
    obtain ⟨_, s₈, -, hbody⟩ := bind_eq_ok.mp hbody
    obtain ⟨_, s₉, -, hbody⟩ := bind_eq_ok.mp hbody
    cases hbody
    rfl
  obtain ⟨tick', t₂, hderive, -⟩ := bufferPushBlock_eq_ok hpsk
  obtain ⟨_, s₅, hroom, hderive⟩ := bind_eq_ok.mp hderive
  obtain ⟨secret, s₆, hsecret, hderive⟩ := bind_eq_ok.mp hderive
  cases hderive
  have hquiet : s₅.ticketInputs = some inputs := by
    rw [ticketInputs_congr ((tls_eq_of_run hroom (by decide)).trans
      ((tls_eq_of_run htime (by decide)).trans
        ((tls_eq_of_run hnow (by decide)).trans (tls_eq_of_run hmagic (by decide))))), ← hs]
    rfl
  rw [← hreturns]
  exact deriveResumptionSecret_inputs hsecret hquiet

/-- A new session identifier holds a key if the connection has a key share. -/
theorem buildSessionIdentifier_inputs {sessionId : Bytes} {psk : Option Bytes}
    (hs : s.ticketInputs = some inputs)
    (h : buildSessionIdentifier ticketAgeAdd env s = (.ok (psk, sessionId), t)) :
    psk = s.tls.keyShare.map fun _ => inputs.resumptionSecret [] := by
  rw [buildSessionIdentifier, getTls_bind, withBuffer_run] at h
  cases hshare : s.tls.keyShare with
  | none =>
    rw [hshare] at h
    cases h
    rfl
  | some algo =>
    rw [hshare] at h
    dsimp only at h
    split at h
    case h_2 => cases h
    case h_1 result u hrun =>
      cases h
      obtain ⟨suite, s₁, hsuite, hrun⟩ := bind_eq_ok.mp hrun
      obtain ⟨-, rfl⟩ := deref_eq_ok.mp hsuite
      obtain ⟨psk, s₂, hpsk, hrun⟩ := bind_eq_ok.mp hrun
      cases hrun
      rw [encodeSessionIdentifier_inputs hpsk hs]
      rfl

end Picotls
