import Picotls.Sample
import Picotls.Server.HelloMessage
import Picotls.Server.TicketKey

/-!
# Session identifiers

What a server writes into a ticket is what it finds when the ticket comes back. The identifier is
one block, so an identifier that is cut short or continued is told from a whole one.
-/

namespace Picotls

open Foundation Procedure

variable {id : SessionIdentifier}

/-! ## The octets of an identifier -/

namespace SessionIdentifier

/-- What stands in the block of an identifier. -/
def body (id : SessionIdentifier) : Bytes :=
  sessionIdentifierMagic ++ (toBE 8 id.issuedAt ++ (encodeBlock 2 id.psk ++
    (toBE 2 id.keyExchangeId ++ (toBE 2 id.csid ++ (toBE 4 id.ticketAgeAdd ++
      (encodeBlock 2 id.ticketCtx ++ encodeBlock 1 id.negotiatedProtocol))))))

/-- The octets of an identifier. -/
def encode (id : SessionIdentifier) : Bytes := encodeBlock 2 id.body

/-- The fields fit their places. -/
structure Fits (id : SessionIdentifier) : Prop where
  issuedAt : id.issuedAt < 256 ^ 8
  psk : id.psk.length < 256 ^ 2
  keyExchangeId : id.keyExchangeId < 256 ^ 2
  csid : id.csid < 256 ^ 2
  ticketAgeAdd : id.ticketAgeAdd < 256 ^ 4
  ticketCtx : id.ticketCtx.length < 256 ^ 2
  negotiatedProtocol : id.negotiatedProtocol.length < 256 ^ 1
  body : id.body.length < 256 ^ 2

/-- An identifier is read back. -/
theorem Fits.decode_encode (h : id.Fits) : decodeSessionIdentifier id.encode = .ok id := by
  rw [decodeSessionIdentifier, encode, Src.decodeBlock_encodeBlock 0 h.body]
  dsimp only [bind, Except.bind]
  rw [SessionIdentifier.body, Src.decodeBytes_append]
  dsimp only
  rw [if_neg (not_not.mpr rfl), Src.decodeUInt_toBE _ _ h.issuedAt]
  dsimp only
  rw [Src.decodeOpenBlock_encodeBlock _ _ h.psk]
  dsimp only
  rw [Src.decodeUInt_toBE _ _ h.keyExchangeId]
  dsimp only
  rw [Src.decodeUInt_toBE _ _ h.csid]
  dsimp only
  rw [Src.decodeUInt_toBE _ _ h.ticketAgeAdd]
  dsimp only
  rw [Src.decodeOpenBlock_encodeBlock _ _ h.ticketCtx]
  dsimp only
  have hprotocol := Src.decodeOpenBlock_encodeBlock (0 + 2 + sessionIdentifierMagic.length + 8 + 2 +
    id.psk.length + 2 + 2 + 4 + 2 + id.ticketCtx.length) [] h.negotiatedProtocol
  rw [List.append_nil] at hprotocol
  rw [hprotocol]
  rfl

/-- An identifier that is cut short or continued is refused. -/
theorem Fits.decode_error (h : id.Fits) {cut : Bytes} (hne : cut ≠ id.encode)
    (hcut : cut <+: id.encode ∨ id.encode <+: cut) :
    decodeSessionIdentifier cut = .error (.code Alert.decodeError) := by
  rw [decodeSessionIdentifier, Src.decodeBlock_eq_error_of_cut h.body hne hcut]
  rfl

end SessionIdentifier

/-! ## Writing an identifier -/

variable [Crypto] {env : Environment} {s t : Session}

/-- The identifier of a connection: its context is that of the server's tickets if there is one,
and else the name of the server. -/
def identifierOf (ctx : Context) (ticketAgeAdd : Bytes) (serverName : Option Bytes)
    (keyExchangeId csid : ℕ) (negotiatedProtocol : Option Bytes) (issuedAt : ℕ) (psk : Bytes) :
    SessionIdentifier where
  issuedAt := issuedAt
  psk := psk
  keyExchangeId := keyExchangeId
  csid := csid
  ticketAgeAdd := ofBE ticketAgeAdd
  ticketCtx := ctx.ticketContext.getD (serverName.getD [])
  negotiatedProtocol := negotiatedProtocol.getD []

omit [Crypto] in
/-- An optional field that was pushed. -/
theorem whenSome_bufferPushv_appends {octets : Option Bytes} {u : Unit}
    (h : whenSome octets bufferPushv env s = (.ok u, t)) :
    t.sendbuf = s.sendbuf ++ octets.getD [] := by
  cases octets with
  | none =>
    cases h
    rw [Option.getD_none, List.append_nil]
  | some octets => exact bufferPushv_appends h

/-- What is written is the identifier of the connection, with the time and the key of the ticket. -/
theorem encodeSessionIdentifier_appends {ctx : Context} {ticketAgeAdd nonce psk : Bytes}
    {serverName protocol : Option Bytes} {keyExchangeId csid : ℕ}
    (hageAdd : ticketAgeAdd.length = 4)
    (hgroup : keyExchangeId < 256 ^ 2) (hsuite : csid < 256 ^ 2)
    (htime : ∀ tick, env.getTime tick < 256 ^ 8)
    (h : encodeSessionIdentifier ctx ticketAgeAdd nonce serverName keyExchangeId csid protocol
      env s = (.ok psk, t)) :
    ∃ (tick : ℕ) (id : SessionIdentifier), id.Fits ∧ t.sendbuf = s.sendbuf ++ id.encode ∧
      id = identifierOf ctx ticketAgeAdd serverName keyExchangeId csid protocol (env.getTime tick)
        psk := by
  obtain ⟨s₀, t₀, hbody, hwhole⟩ := bufferPushBlock_appends h
  obtain ⟨_, s₁, hmagic, hbody⟩ := bind_eq_ok.mp hbody
  rw [ask_bind] at hbody
  obtain ⟨_, s₂, hnow, hbody⟩ := bind_eq_ok.mp hbody
  obtain ⟨psk', s₃, hpsk, hbody⟩ := bind_eq_ok.mp hbody
  obtain ⟨_, s₄, hkx, hbody⟩ := bind_eq_ok.mp hbody
  obtain ⟨_, s₅, hcs, hbody⟩ := bind_eq_ok.mp hbody
  obtain ⟨_, s₆, hage, hbody⟩ := bind_eq_ok.mp hbody
  obtain ⟨_, s₇, hcontext, hbody⟩ := bind_eq_ok.mp hbody
  obtain ⟨_, s₈, hprotocol, hbody⟩ := bind_eq_ok.mp hbody
  cases hbody
  -- the key is derived inside of its block
  obtain ⟨u₁, v₁, hderive, hkey⟩ := bufferPushBlock_appends hpsk
  obtain ⟨_, u₂, hroom, hderive⟩ := bind_eq_ok.mp hderive
  obtain ⟨-, rfl⟩ := allocate_eq_ok.mp hroom
  obtain ⟨secret, u₃, hsecret, hderive⟩ := bind_eq_ok.mp hderive
  cases hderive
  have hout : SameOutput { u₁ with tick := u₁.tick + 1 } u₃ := Respects.run hsecret
  obtain ⟨hpskFits, hs₃⟩ := hkey psk (congrArg (· ++ psk) hout.1)
  obtain ⟨u₄, v₂, hcontext, hs₇⟩ := bufferPushBlock_appends hcontext
  obtain ⟨hctxFits, hs₇⟩ := hs₇ (ctx.ticketContext.getD (serverName.getD [])) (by
    cases hctx : ctx.ticketContext with
    | none =>
      rw [hctx] at hcontext
      exact whenSome_bufferPushv_appends hcontext
    | some octets =>
      rw [hctx] at hcontext
      exact bufferPushv_appends hcontext)
  obtain ⟨u₅, v₃, hprotocol, hs₈⟩ := bufferPushBlock_appends hprotocol
  obtain ⟨hprotocolFits, hs₈⟩ := hs₈ _ (whenSome_bufferPushv_appends hprotocol)
  set id := identifierOf ctx ticketAgeAdd serverName keyExchangeId csid protocol
    (env.getTime s₁.tick) psk with hid
  have hageAdd' : toBE 4 (ofBE ticketAgeAdd) = ticketAgeAdd := hageAdd ▸ toBE_ofBE ticketAgeAdd
  have hwritten : t₀.sendbuf = s₀.sendbuf ++ id.body := by
    have hs₁ : s₁.sendbuf = s₀.sendbuf ++ sessionIdentifierMagic := bufferPushv_appends hmagic
    rw [hs₈, hs₇, bufferPushv_appends hage, bufferPushUInt_appends hcs, bufferPushUInt_appends hkx,
      hs₃, bufferPushUInt_appends hnow]
    change s₁.sendbuf ++ _ ++ _ ++ _ ++ _ ++ _ ++ _ ++ _ = _
    rw [hs₁, hid, SessionIdentifier.body]
    simp only [identifierOf, hageAdd', List.append_assoc]
  obtain ⟨hbodyFits, ht⟩ := hwhole _ hwritten
  refine ⟨s₁.tick, id, ⟨htime _, hpskFits, hgroup, hsuite, ?_, hctxFits, hprotocolFits, hbodyFits⟩,
    ht, hid⟩
  have hbound := ofBE_lt ticketAgeAdd
  rwa [hageAdd] at hbound

/-- The octets of an identifier are read back as the identifier; cut short or continued, they are
refused. -/
structure SessionIdentifier.ReadsBack (id : SessionIdentifier) : Prop where
  whole : decodeSessionIdentifier id.encode = .ok id
  cut : ∀ octets, octets <+: id.encode → octets ≠ id.encode →
    decodeSessionIdentifier octets = .error (.code Alert.decodeError)
  continued : ∀ octets ≠ [],
    decodeSessionIdentifier (id.encode ++ octets) = .error (.code Alert.decodeError)

omit [Crypto] in
theorem SessionIdentifier.Fits.readsBack (h : id.Fits) : id.ReadsBack where
  whole := h.decode_encode
  cut octets hcut hne := h.decode_error hne (.inl hcut)
  continued octets hne := by
    refine h.decode_error (fun heq => hne ?_) (.inr (List.prefix_append _ _))
    exact List.append_right_eq_self.mp heq

/-- Every identifier that fits is read back, and what a server writes is the identifier of its
connection, which fits. -/
theorem session_identifier_round_trip :
    (∀ id : SessionIdentifier, id.Fits → id.ReadsBack) ∧
    ∀ (env : Environment) (ctx : Context) (ticketAgeAdd nonce psk : Bytes)
      (serverName protocol : Option Bytes) (keyExchangeId csid : ℕ) (s t : Session),
      ticketAgeAdd.length = 4 → keyExchangeId < 256 ^ 2 → csid < 256 ^ 2 →
      (∀ tick, env.getTime tick < 256 ^ 8) →
      encodeSessionIdentifier ctx ticketAgeAdd nonce serverName keyExchangeId csid protocol env s =
        (.ok psk, t) →
      ∃ (tick : ℕ) (id : SessionIdentifier), t.sendbuf = s.sendbuf ++ id.encode ∧ id.ReadsBack ∧
        id = identifierOf ctx ticketAgeAdd serverName keyExchangeId csid protocol (env.getTime tick)
          psk := by
  refine ⟨fun id hfits => hfits.readsBack, ?_⟩
  intro env ctx ticketAgeAdd nonce psk serverName protocol keyExchangeId csid s t hageAdd hgroup
    hsuite htime h
  obtain ⟨tick, id, hfits, hwritten, hid⟩ :=
    encodeSessionIdentifier_appends hageAdd hgroup hsuite htime h
  exact ⟨tick, id, hwritten, hfits.readsBack, hid⟩

namespace Sample

/-- A server that is about to seal a ticket. -/
def sealingServer : Session where
  tls := { newInstance context true .serverExpectFinished with
    cipherSuite := some (suite 0x1301 0)
    keySchedule := some { generation := 3, secret := [1, 2], hashes := [{ algo := hash 0 }] } }

end Sample

open Sample

omit [Crypto] in
/-- The identifier of a connection with a name and a protocol. -/
theorem session_identifier_round_trip_sample :
    ∃ (psk : Bytes) (id : SessionIdentifier) (t : Session),
    @encodeSessionIdentifier crypto context [0, 0, 0, 7] [] (some [97]) 29 0x1301
      (some [104, 50]) environment sealingServer = (.ok psk, t) ∧
    t.sendbuf = id.encode ∧ id.ReadsBack ∧ id.ticketCtx = [97] ∧ id.ticketAgeAdd = 7 := by
  have hsucceeds : (@encodeSessionIdentifier crypto context [0, 0, 0, 7] [] (some [97])
      29 0x1301 (some [104, 50]) environment sealingServer).1.toBool = true := by
    decide +kernel
  rcases hrun : @encodeSessionIdentifier crypto context [0, 0, 0, 7] [] (some [97])
    29 0x1301 (some [104, 50]) environment sealingServer with ⟨fault | psk, t⟩
  · rw [hrun] at hsucceeds
    cases hsucceeds
  · obtain ⟨tick, id, hwritten, hreads, hid⟩ := (@session_identifier_round_trip crypto).2
      _ _ _ _ _ _ _ _ _ _ _ rfl (by decide) (by decide) (fun _ => (by decide : 0 < 256 ^ 8)) hrun
    refine ⟨psk, id, t, rfl, hwritten, hreads, ?_, ?_⟩
    · rw [hid]
      rfl
    · rw [hid]
      rfl

end Picotls
