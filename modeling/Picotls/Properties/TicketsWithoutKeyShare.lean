import Picotls.Effects.Memory
import Picotls.Properties.StoredTickets
import Picotls.Sending.Endpoint

/-!
# Tickets on connections without a key share

A client writes the group of its key exchange into every ticket that it saves. A handshake with a
pre-shared key alone leaves a connection without such a group, and its client follows a null pointer
when it is sent a ticket. On all other connections a ticket is saved and the connection continues.
-/

namespace Picotls

open Foundation Procedure

variable [Crypto] {env : Environment} {s t : Session} {body message nonce : Bytes}
  {nst : NewSessionTicket}

/-! ## Saving a ticket -/

/-- A ticket is written, if the connection has a group, a suite and a key schedule. -/
theorem buildStoredSessionTicket_ends (hkeyShare : s.tls.keyShare.isSome) (hfits : s.tls.HashFits)
    (hbody : body.length < 256 ^ 3) (hnonce : nonce.length < 256) :
    Ends (LacksMemory env) (fun _ t => t.tls = s.tls)
      (buildStoredSessionTicket body nonce env s) := by
  obtain ⟨keyShare, hkeyShare⟩ := Option.isSome_iff_exists.mp hkeyShare
  obtain ⟨suite, hsuite, halgo⟩ := hfits
  rw [buildStoredSessionTicket, getTls_bind, ask_bind]
  refine (bufferPushUInt_ends _ _).bind fun _ s₁ hs₁ => ?_
  rw [hkeyShare, deref_some_bind]
  refine (bufferPushUInt_ends _ _).bind fun _ s₂ hs₂ => ?_
  rw [hsuite, deref_some_bind]
  refine (bufferPushUInt_ends _ _).bind fun _ s₃ hs₃ => ?_
  have htls : s₃.tls = s.tls := hs₃.1.trans (hs₂.1.trans hs₁.1)
  have hsrc : Ends (LacksMemory env) (fun _ t => t.tls = s₃.tls)
      (bufferPushBlock 3 (bufferPushv body) env s₃) :=
    bufferPushBlock_ends fun u hu => (bufferPushv_ends body).mono (fun _ => id) fun _ t ht =>
      ⟨ht.1.trans hu, by rw [ht.2, List.length_append]; omega⟩
  refine hsrc.bind fun _ s₄ hs₄ => (bufferPushBlock_ends fun u hu => ?_).mono (fun _ => id)
    fun _ t ht => ht.trans (hs₄.trans htls)
  refine allocate_ends.bind fun _ u₁ hu₁ => ?_
  have htls₁ : u₁.tls = s₄.tls := by
    rw [hu₁]
    exact hu
  have hsendbuf₁ : u₁.sendbuf = u.sendbuf := by rw [hu₁]
  have halgo₁ : u₁.tls.firstAlgo = some suite.hash := by rw [htls₁, hs₄, htls, halgo]
  refine (deriveResumptionSecret_ends halgo₁ hnonce).bind fun secret u₂ hu₂ =>
    ⟨hu₂.1.trans htls₁, ?_⟩
  have hsize : suite.hash.digestSize < 256 ^ 2 :=
    Nat.lt_of_le_of_lt suite.hash.digestSize_le (by decide)
  rw [← hsendbuf₁, ← hu₂.2.1]
  exact List.length_append.trans_lt (Nat.add_lt_add_left (hu₂.2.2.trans_lt hsize) _)

/-- Without a group, a null pointer is followed as soon as the time is written. -/
theorem buildStoredSessionTicket_null (hkeyShare : s.tls.keyShare = none) :
    (buildStoredSessionTicket body nonce env s).1 =
      if env.alloc (s.tick + 1) then .error .undefined else .error (.code Error.noMemory) := by
  have hwrites (now : ℕ) : toBE 8 now ≠ [] := by
    intro hempty
    simpa using congrArg List.length hempty
  rw [buildStoredSessionTicket, getTls_bind, ask_bind, hkeyShare, bufferPushUInt, bufferPushv,
    if_neg (hwrites _), Procedure.bind_assoc]
  cases halloc : env.alloc (s.tick + 1) with
  | true =>
    rw [bind_of_ok (a := ()) (allocate_eq_ok.mpr ⟨halloc, rfl⟩)]
    rfl
  | false =>
    rw [bind_run, allocate_run]
    simp only [halloc]
    rfl

omit [Crypto] in
/-- A ticket is refused with a code. Of one that is taken, the nonce fits into a block with a length
of one octet. -/
theorem decodeNewSessionTicket_ends (src : Src) :
    Ends Fault.IsCode (fun nst t => nst.nonce.length < 256 ∧ t.tls = s.tls)
      (decodeNewSessionTicket src env s) := by
  have hdecodes : FailsWith (fun _ fault => fault.IsCode) (decodeNewSessionTicket src) := by
    unfold decodeNewSessionTicket notifyExtension noteRefusal
    repeat' first | infer_instance | refine .seq ?_ fun _ => ?_
  refine Ends.of_failsWith (G := fun _ (fault : Fault) => fault.IsCode) fun nst t h => ?_
  have htls : t.tls = s.tls := tls_eq_of_run h (by decide)
  refine ⟨?_, htls⟩
  obtain ⟨⟨lifetime, src₁⟩, -, h⟩ := liftM_bind_eq_ok h
  obtain ⟨⟨ageAdd, src₂⟩, -, h⟩ := liftM_bind_eq_ok h
  obtain ⟨⟨nonce, src₃⟩, hnonce, h⟩ := liftM_bind_eq_ok h
  obtain ⟨⟨ticket, src₄⟩, -, h⟩ := liftM_bind_eq_ok h
  obtain ⟨-, h⟩ := throwIf_bind_eq_ok h
  obtain ⟨size, s₁, -, h⟩ := bind_eq_ok.mp h
  cases h
  exact (Src.decodeOpenBlock_data hnonce).2

/-! ## Receiving a ticket -/

/-- What is demanded of a client that is sent a ticket: it follows no null pointer, and if the
ticket is well formed it is saved and the connection continues, as long as there is memory and the
application takes the ticket. -/
structure HandlesTicket (message : Bytes) (env : Environment) (s : Session) : Prop where
  noNull : (clientHandleNewSessionTicket message env s).1 ≠ .error .undefined
  saves : (∀ tick, env.alloc tick = true) → (∀ tick ticket, env.saveTicket tick ticket = 0) →
    ∀ nst t, decodeNewSessionTicket (.ofMessage message handshakeHeaderSize) env s = (.ok nst, t) →
      (clientHandleNewSessionTicket message env s).1 = .ok .done

omit [Crypto] in
/-- The code of the application is passed on. -/
theorem clientSaveTicket_outcome (secret ticket : Bytes) :
    (clientSaveTicket secret ticket env s).1 =
      if env.saveTicket s.tick ticket = 0 then .ok .done
      else .error (.code (env.saveTicket s.tick ticket)) := by
  rw [clientSaveTicket, emitEvent_bind, ask_bind, checkCode]
  dsimp only
  split_ifs <;> rfl

theorem clientBuildTicket_ends
    (hdecode : decodeNewSessionTicket (.ofMessage message handshakeHeaderSize) env s = (.ok nst, t))
    (hkeyShare : s.tls.keyShare.isSome) (hfits : s.tls.HashFits)
    (hmessage : (message.drop handshakeHeaderSize).length < 256 ^ 3) :
    Ends (LacksMemory env) (fun _ _ => True) (clientBuildTicket message env s) := by
  obtain ⟨hnonce, htls⟩ := (decodeNewSessionTicket_ends _).ok hdecode
  have hbuild : Ends (LacksMemory env) (fun _ u => u.tls = t.tls) (buildStoredSessionTicket
      (Src.ofMessage message handshakeHeaderSize).data nst.nonce env { t with sendbuf := [] }) :=
    buildStoredSessionTicket_ends (by rw [htls]; exact hkeyShare) (by rw [htls]; exact hfits)
      hmessage hnonce
  rw [clientBuildTicket, bind_of_ok hdecode]
  refine Ends.bind (P := fun _ _ => True) ?_ fun _ _ _ => trivial
  rw [withBuffer_run]
  rcases hrun : buildStoredSessionTicket (Src.ofMessage message handshakeHeaderSize).data nst.nonce
    env { t with sendbuf := [] } with ⟨fault | secret, u⟩
  · exact hbuild.error hrun
  · trivial

theorem clientBuildTicket_null
    (hdecode : decodeNewSessionTicket (.ofMessage message handshakeHeaderSize) env s = (.ok nst, t))
    (hkeyShare : s.tls.keyShare = none) :
    (clientBuildTicket message env s).1 =
      if env.alloc (t.tick + 1) then .error .undefined else .error (.code Error.noMemory) := by
  have htls := ((decodeNewSessionTicket_ends _).ok hdecode).2
  have hnull : (buildStoredSessionTicket (Src.ofMessage message handshakeHeaderSize).data nst.nonce
      env { t with sendbuf := [] }).1 =
      if env.alloc (t.tick + 1) then .error .undefined else .error (.code Error.noMemory) :=
    buildStoredSessionTicket_null (by rw [htls]; exact hkeyShare)
  rw [clientBuildTicket, bind_of_ok hdecode, bind_run, withBuffer_run]
  rcases hrun : buildStoredSessionTicket (Src.ofMessage message handshakeHeaderSize).data nst.nonce
    env { t with sendbuf := [] } with ⟨fault | secret, u⟩ <;> rw [hrun] at hnull
  · split_ifs at hnull ⊢ <;> cases hnull <;> rfl
  · split_ifs at hnull

/-- Once its keys fit, a client handles a ticket as demanded just if it has a group, or refuses the
ticket, or runs out of memory before the group is written. -/
theorem handlesTicket_iff (hfits : s.tls.HashFits) (hsaves : s.tls.ctx.saveTicket = true)
    (hmessage : (message.drop handshakeHeaderSize).length < 256 ^ 3) :
    HandlesTicket message env s ↔ s.tls.keyShare.isSome ∨
      ∀ nst t, decodeNewSessionTicket (.ofMessage message handshakeHeaderSize) env s =
        (.ok nst, t) → env.alloc (t.tick + 1) = false := by
  have hrun : clientHandleNewSessionTicket message env s = _ :=
    clientHandleNewSessionTicket_run message hsaves
  rcases hdecode : decodeNewSessionTicket (.ofMessage message handshakeHeaderSize) env s with
    ⟨fault | nst, t⟩
  · -- a ticket that is refused
    obtain ⟨code, rfl⟩ := (decodeNewSessionTicket_ends _).error hdecode
    have houtcome : (clientHandleNewSessionTicket message env s).1 = .error (.code code) := by
      rw [hrun, clientBuildTicket, Procedure.bind_assoc, bind_of_error hdecode]
    refine iff_of_true ⟨by simp [houtcome], fun _ _ nst t h => ?_⟩ (.inr fun nst t h => ?_)
    · cases hdecode.symm.trans h
    · cases h
  rcases hkeyShare : s.tls.keyShare with _ | keyShare
  · have hnull := clientBuildTicket_null hdecode hkeyShare
    rcases hbuild : clientBuildTicket message env s with ⟨fault | _, u⟩ <;> rw [hbuild] at hnull
    case ok.none.ok => split_ifs at hnull
    have houtcome : (clientHandleNewSessionTicket message env s).1 = .error fault := by
      rw [hrun, bind_of_error hbuild]
    cases halloc : env.alloc (t.tick + 1) with
    | true =>
      rw [halloc, if_pos rfl] at hnull
      obtain rfl : fault = .undefined := Except.error.inj hnull
      refine iff_of_false (fun hhandles => hhandles.noNull houtcome) ?_
      rintro (hsome | hfails)
      · cases hsome
      · exact absurd (hfails nst t rfl) (by simp [halloc])
    | false =>
      rw [halloc] at hnull
      obtain rfl : fault = .code Error.noMemory := Except.error.inj hnull
      refine iff_of_true ⟨by simp [houtcome], fun hmemory => ?_⟩ (.inr fun nst' t' h => ?_)
      · exact absurd (hmemory (t.tick + 1)) (by simp [halloc])
      · cases h
        exact halloc
  · refine iff_of_true ?_ (.inl rfl)
    have hends := clientBuildTicket_ends hdecode (by rw [hkeyShare]; rfl) hfits hmessage
    rcases hbuild : clientBuildTicket message env s with ⟨fault | ⟨nst', secret, ticket⟩, u⟩
    · obtain ⟨rfl, tick, hfails⟩ := hends.error hbuild
      have houtcome : (clientHandleNewSessionTicket message env s).1 =
          .error (.code Error.noMemory) := by rw [hrun, bind_of_error hbuild]
      refine ⟨by simp [houtcome], fun hmemory => ?_⟩
      exact absurd (hmemory tick) (by simp [hfails])
    · have houtcome : (clientHandleNewSessionTicket message env s).1 =
          if env.saveTicket u.tick ticket = 0 then .ok .done
          else .error (.code (env.saveTicket u.tick ticket)) := by
        rw [hrun, bind_of_ok hbuild]
        exact clientSaveTicket_outcome secret ticket
      refine ⟨?_, fun _ hanswers _ _ _ => ?_⟩ <;> rw [houtcome]
      · split_ifs <;> simp
      · rw [if_pos (hanswers _ _)]

/-! ## Whole runs -/

/-- A client that has completed its handshake has keys that fit its suite. -/
theorem clientRun_hashFits {ctx : Context} {serverName : Option Bytes} {operations : List Operation}
    (hcompletes : (clientRun env ctx serverName operations).tls.state = .clientPostHandshake) :
    (clientRun env ctx serverName operations).tls.HashFits := by
  have hinit (s : Session) (hs : s.IsNewClient ctx) : s.Keyed := by
    obtain ⟨-, -, _, _, _, htls⟩ := hs
    refine ⟨fun _ => by rw [htls]; rfl, fun hleft => absurd ?_ hleft⟩
    rw [htls]
    exact .inl (Nat.zero_le _)
  have hkeyed : (clientRun env ctx serverName operations).Keyed :=
    keyed_isClientInvariant.clientRun_inv hinit serverName operations
  exact (hkeyed.fit (by rw [hcompletes]; decide)).1

/-- A client that has completed its handshake and saves tickets handles a ticket as demanded just if
it has a group, or refuses the ticket, or runs out of memory before the group is written. -/
theorem ticket_handled_iff_keyShare {env' : Environment} {ctx : Context} {serverName : Option Bytes}
    {operations : List Operation} {message : Bytes}
    (hcompletes : (clientRun env ctx serverName operations).tls.state = .clientPostHandshake)
    (hsaves : (clientRun env ctx serverName operations).tls.ctx.saveTicket = true)
    (hmessage : (message.drop handshakeHeaderSize).length < 256 ^ 3) :
    HandlesTicket message env' (clientRun env ctx serverName operations) ↔
      (clientRun env ctx serverName operations).tls.keyShare.isSome ∨
      ∀ nst t, decodeNewSessionTicket (.ofMessage message handshakeHeaderSize) env'
        (clientRun env ctx serverName operations) = (.ok nst, t) →
          env'.alloc (t.tick + 1) = false :=
  handlesTicket_iff (clientRun_hashFits hcompletes) hsaves hmessage

namespace Sample

/-- A context with a pre-shared key and a callback for tickets, with or without groups. -/
def savingContext (keyExchanges : Option (List KeyExchangeAlgorithm)) : Context :=
  { pskContext with keyExchanges := keyExchanges, saveTicket := true }

/-- A handshake with the pre-shared key alone, of a client without groups. -/
def groupless : Session :=
  @clientRun crypto environment (savingContext none) none
    (pskHandshake ([0, 43] ++ block 2 [3, 4]) [12, 12])

/-- A handshake with the pre-shared key and a key exchange. -/
def grouped : Session :=
  @clientRun crypto environment (savingContext (some [⟨29, 0⟩])) none
    (pskHandshake helloExtensions [60, 60])

end Sample

open Sample

omit [Crypto] in
/-- A client that has completed a handshake with the pre-shared key alone follows a null pointer
when it is sent a ticket. -/
theorem ticket_without_keyShare :
    groupless.tls.state = .clientPostHandshake ∧
    groupless.tls.ctx.saveTicket = true ∧
    (@clientHandleNewSessionTicket crypto (ticketMessage 10) environment
      groupless).1 = .error .undefined := by
  decide +kernel

omit [Crypto] in
/-- The theorem at a client that has completed a handshake with a key exchange. -/
theorem ticket_handled_sample :
    grouped.tls.state = .clientPostHandshake ∧
    @HandlesTicket crypto (ticketMessage 10) environment grouped :=
  ⟨by decide +kernel, (@ticket_handled_iff_keyShare crypto _ _ _ _ _ _
    (by decide +kernel) (by decide +kernel) (by decide +kernel)).mpr (.inl (by decide +kernel))⟩

end Picotls
