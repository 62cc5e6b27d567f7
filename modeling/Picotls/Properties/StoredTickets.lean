import Picotls.Effects.Output
import Picotls.Sample
import Picotls.Server.HelloMessage

/-!
# Tickets that a client has saved

A client saves a ticket together with the time, the algorithms and the key of its connection, and
reads it back when it connects again. What is read is what was saved. A ticket is taken for a week
after it was obtained; its own lifetime is not looked at.
-/

namespace Picotls

open Foundation Procedure

variable {env env' : Environment} {s s' t t' : Session} {body secret : Bytes}
  {nst : NewSessionTicket} {acc size size' : ℕ}

/-! ## Reading the same octets elsewhere -/

namespace Src

variable {src src' rest rest' : Src}

/-- What is read depends on the octets and not on where they stand. -/
theorem decodeUInt_agrees {width value value' : ℕ} (hdata : src'.data = src.data)
    (h : src.decodeUInt width = .ok (value, rest))
    (h' : src'.decodeUInt width = .ok (value', rest')) :
    value' = value ∧ rest'.data = rest.data := by
  obtain ⟨-, rfl, rfl⟩ := Src.decodeUInt_eq_ok.mp h
  obtain ⟨-, rfl, rfl⟩ := Src.decodeUInt_eq_ok.mp h'
  rw [hdata]
  exact ⟨rfl, rfl⟩

theorem decodeOpenBlock_agrees {capacity : ℕ} {block block' : Src} (hdata : src'.data = src.data)
    (h : src.decodeOpenBlock capacity = .ok (block, rest))
    (h' : src'.decodeOpenBlock capacity = .ok (block', rest')) :
    block'.data = block.data ∧ rest'.data = rest.data := by
  obtain ⟨rfl, rfl⟩ := Src.decodeOpenBlock_eq_ok h
  obtain ⟨rfl, rfl⟩ := Src.decodeOpenBlock_eq_ok h'
  rw [hdata]
  exact ⟨rfl, rfl⟩

end Src

/-- The size of early data in the extensions of a ticket. -/
def ticketExtension (acc exttype : ℕ) (block : Src) : Proc (ℕ × Src) := do
  notifyExtension HandshakeType.newSessionTicket exttype block.data
  if exttype = ExtensionType.earlyData then block.decodeUInt 4 else return (acc, ⟨0, []⟩)

theorem ticketExtension_agrees {exttype : ℕ} {block block' left left' : Src}
    (hdata : block'.data = block.data)
    (h : ticketExtension acc exttype block env s = (.ok (size, left), t))
    (h' : ticketExtension acc exttype block' env' s' = (.ok (size', left'), t')) :
    size' = size := by
  obtain ⟨_, s₁, -, h⟩ := bind_eq_ok.mp h
  obtain ⟨_, s₁', -, h'⟩ := bind_eq_ok.mp h'
  split_ifs at h h'
  · exact (Src.decodeUInt_agrees hdata (liftM_eq_ok.mp h).1 (liftM_eq_ok.mp h').1).1
  · cases h
    cases h'
    rfl

/-- Two readings of the same extensions agree. -/
theorem ticketExtensions_agree {fuel : ℕ} {seen : List ℕ} (hdata : src'.data = src.data)
    (h : decodeExtensionList .newSessionTicket ticketExtension fuel seen src acc env s =
      (.ok size, t))
    (h' : decodeExtensionList .newSessionTicket ticketExtension fuel seen src' acc env' s' =
      (.ok size', t')) : size' = size := by
  induction fuel generalizing seen src src' acc s s' with
  | zero =>
    cases h
    cases h'
    rfl
  | succ fuel ih =>
    rw [decodeExtensionList] at h h'
    rw [hdata] at h'
    split_ifs at h h' with hempty
    · cases h
      cases h'
      rfl
    · obtain ⟨⟨exttype, rest⟩, htype, h⟩ := liftM_bind_eq_ok h
      obtain ⟨⟨exttype', rest'⟩, htype', h'⟩ := liftM_bind_eq_ok h'
      obtain ⟨rfl, hrest⟩ := Src.decodeUInt_agrees hdata htype htype'
      dsimp only at h h'
      cases hseen : extensionBitmapTestAndSet seen .newSessionTicket exttype' with
      | none =>
        simp only [hseen] at h
        cases h
      | some seen' =>
        simp only [hseen] at h h'
        obtain ⟨⟨block, after⟩, hblock, h⟩ := liftM_bind_eq_ok h
        obtain ⟨⟨block', after'⟩, hblock', h'⟩ := liftM_bind_eq_ok h'
        obtain ⟨hblocks, hafter⟩ := Src.decodeOpenBlock_agrees hrest hblock hblock'
        obtain ⟨⟨acc₁, left⟩, s₁, hbody, h⟩ := bind_eq_ok.mp h
        obtain ⟨⟨acc₁', left'⟩, s₁', hbody', h'⟩ := bind_eq_ok.mp h'
        obtain rfl := ticketExtension_agrees hblocks hbody hbody'
        obtain ⟨_, -, h⟩ := liftM_bind_eq_ok h
        obtain ⟨_, -, h'⟩ := liftM_bind_eq_ok h'
        exact ih hafter h h'

theorem decodeTicketExtensions_agree (hdata : src'.data = src.data)
    (h : decodeExtensions .newSessionTicket src 0 ticketExtension env s = (.ok size, t))
    (h' : decodeExtensions .newSessionTicket src' 0 ticketExtension env' s' = (.ok size', t')) :
    size' = size := by
  obtain ⟨⟨acc, rest⟩, s₁, hopen, h⟩ := bind_eq_ok.mp h
  obtain ⟨⟨acc', rest'⟩, s₁', hopen', h'⟩ := bind_eq_ok.mp h'
  obtain ⟨_, -, h⟩ := liftM_bind_eq_ok h
  obtain ⟨_, -, h'⟩ := liftM_bind_eq_ok h'
  cases h
  cases h'
  obtain ⟨⟨block, rest₁⟩, hblock, hopen⟩ := liftM_bind_eq_ok hopen
  obtain ⟨⟨block', rest₁'⟩, hblock', hopen'⟩ := liftM_bind_eq_ok hopen'
  obtain ⟨hblocks, -⟩ := Src.decodeOpenBlock_agrees hdata hblock hblock'
  obtain ⟨_, s₂, hlist, hopen⟩ := bind_eq_ok.mp hopen
  obtain ⟨_, s₂', hlist', hopen'⟩ := bind_eq_ok.mp hopen'
  cases hopen
  cases hopen'
  rw [hblocks] at hlist'
  exact ticketExtensions_agree hblocks hlist hlist'

/-- Two readings of the same ticket agree. -/
theorem decodeNewSessionTicket_agrees {nst' : NewSessionTicket} (hdata : src'.data = src.data)
    (h : decodeNewSessionTicket src env s = (.ok nst, t))
    (h' : decodeNewSessionTicket src' env' s' = (.ok nst', t')) : nst' = nst := by
  obtain ⟨⟨lifetime, src₁⟩, hlifetime, h⟩ := liftM_bind_eq_ok h
  obtain ⟨⟨lifetime', src₁'⟩, hlifetime', h'⟩ := liftM_bind_eq_ok h'
  obtain ⟨rfl, hdata₁⟩ := Src.decodeUInt_agrees hdata hlifetime hlifetime'
  obtain ⟨⟨ageAdd, src₂⟩, hage, h⟩ := liftM_bind_eq_ok h
  obtain ⟨⟨ageAdd', src₂'⟩, hage', h'⟩ := liftM_bind_eq_ok h'
  obtain ⟨rfl, hdata₂⟩ := Src.decodeUInt_agrees hdata₁ hage hage'
  obtain ⟨⟨nonce, src₃⟩, hnonce, h⟩ := liftM_bind_eq_ok h
  obtain ⟨⟨nonce', src₃'⟩, hnonce', h'⟩ := liftM_bind_eq_ok h'
  obtain ⟨hnonces, hdata₃⟩ := Src.decodeOpenBlock_agrees hdata₂ hnonce hnonce'
  obtain ⟨⟨ticket, src₄⟩, hticket, h⟩ := liftM_bind_eq_ok h
  obtain ⟨⟨ticket', src₄'⟩, hticket', h'⟩ := liftM_bind_eq_ok h'
  obtain ⟨htickets, hdata₄⟩ := Src.decodeOpenBlock_agrees hdata₃ hticket hticket'
  obtain ⟨-, h⟩ := throwIf_bind_eq_ok h
  obtain ⟨-, h'⟩ := throwIf_bind_eq_ok h'
  obtain ⟨size, s₁, hsize, h⟩ := bind_eq_ok.mp h
  obtain ⟨size', s₁', hsize', h'⟩ := bind_eq_ok.mp h'
  cases h
  cases h'
  rw [decodeTicketExtensions_agree hdata₄ hsize hsize', hnonces, htickets]

/-! ## What is saved and read -/

section Storing

variable [Crypto]

/-- The octets of a saved ticket: when it was obtained, the algorithms, the message, and the key. -/
def storedTicket (savedAt keyShare suite : ℕ) (body secret : Bytes) : Bytes :=
  toBE 8 savedAt ++ (toBE 2 keyShare ++ (toBE 2 suite ++
    (encodeBlock 3 body ++ encodeBlock 2 secret)))

/-- A client writes the time and what belongs to its connection around the message. -/
theorem buildStoredSessionTicket_appends {nonce : Bytes}
    (h : buildStoredSessionTicket body nonce env s = (.ok secret, t)) :
    ∃ keyShare suite, s.tls.keyShare = some keyShare ∧ s.tls.cipherSuite = some suite ∧
      body.length < 256 ^ 3 ∧ secret.length < 256 ^ 2 ∧
      t.sendbuf = s.sendbuf ++
        storedTicket (env.getTime s.tick) keyShare.id suite.id body secret := by
  rw [buildStoredSessionTicket, getTls_bind, ask_bind] at h
  obtain ⟨_, s₁, htime, h⟩ := bind_eq_ok.mp h
  obtain ⟨keyShare, hkeyShare, h⟩ := deref_bind_eq_ok h
  obtain ⟨_, s₂, hgroup, h⟩ := bind_eq_ok.mp h
  obtain ⟨suite, hsuite, h⟩ := deref_bind_eq_ok h
  obtain ⟨_, s₃, hid, h⟩ := bind_eq_ok.mp h
  obtain ⟨_, s₄, hbody, h⟩ := bind_eq_ok.mp h
  obtain ⟨u₁, v₁, hpush, hs₄⟩ := bufferPushBlock_appends hbody
  obtain ⟨hbodyFits, hs₄⟩ := hs₄ body (bufferPushv_appends hpush)
  -- the key is derived inside of its block
  obtain ⟨u₂, v₂, hderive, ht⟩ := bufferPushBlock_appends h
  obtain ⟨_, u₃, hroom, hderive⟩ := bind_eq_ok.mp hderive
  obtain ⟨-, rfl⟩ := allocate_eq_ok.mp hroom
  obtain ⟨_, u₄, hsecret, hderive⟩ := bind_eq_ok.mp hderive
  cases hderive
  have hout : SameOutput { u₂ with tick := u₂.tick + 1 } u₄ := Respects.run hsecret
  obtain ⟨hsecretFits, ht⟩ := ht secret (congrArg (· ++ secret) hout.1)
  refine ⟨keyShare, suite, hkeyShare, hsuite, hbodyFits, hsecretFits, ?_⟩
  rw [ht, hs₄, bufferPushUInt_appends hid, bufferPushUInt_appends hgroup,
    bufferPushUInt_appends htime]
  simp only [storedTicket, List.append_assoc]

/-- The ticket that a client saves when it is sent a NewSessionTicket: the message as it is
understood, the key, and the octets. -/
def clientBuildTicket (message : Bytes) : Proc (NewSessionTicket × Bytes × Bytes) := do
  let src := Src.ofMessage message handshakeHeaderSize
  let nst ← decodeNewSessionTicket src
  let (secret, ticket) ← withBuffer [] (buildStoredSessionTicket src.data nst.nonce)
  return (nst, secret, ticket)

/-- Hand a ticket to the application. -/
def clientSaveTicket (secret ticket : Bytes) : Proc Progress := do
  emitEvent (.saveTicket secret)
  let ret ← ask fun env tick => env.saveTicket tick ticket
  checkCode ret
  return .done

/-- With a callback for tickets, a NewSessionTicket is handled by saving the ticket. -/
theorem clientHandleNewSessionTicket_run (message : Bytes) (hsaves : s.tls.ctx.saveTicket = true) :
    clientHandleNewSessionTicket message env s =
      (clientBuildTicket message >>= fun (_, secret, ticket) => clientSaveTicket secret ticket)
        env s := by
  have htls {x : Except Fault NewSessionTicket} {t : Session}
      (hrun : decodeNewSessionTicket (.ofMessage message handshakeHeaderSize) env s = (x, t)) :
      t.tls = s.tls := tls_eq_of_run hrun (by decide)
  rw [clientHandleNewSessionTicket, clientBuildTicket, Procedure.bind_assoc]
  rcases hrun : decodeNewSessionTicket (.ofMessage message handshakeHeaderSize) env s with
    ⟨fault | nst, t⟩
  · rw [bind_of_error hrun, bind_of_error hrun]
  · rw [bind_of_ok hrun, bind_of_ok hrun, getTls_bind, htls hrun, hsaves, runIf, if_pos rfl,
      Procedure.bind_assoc, Procedure.bind_assoc]
    rcases hbuild : withBuffer [] (buildStoredSessionTicket
      (Src.ofMessage message handshakeHeaderSize).data nst.nonce) env t with
      ⟨fault | ⟨secret, ticket⟩, u⟩
    · rw [bind_of_error hbuild, bind_of_error hbuild]
    · rw [bind_of_ok hbuild, bind_of_ok hbuild]
      simp only [Procedure.bind_assoc]
      rfl

omit [Crypto] in
/-- A saved ticket is read back as what it was made of, if the application lets its extensions pass
and it is less than a week old. -/
theorem decodeStoredSessionTicket_run {savedAt now : ℕ} {keyShare : KeyExchangeAlgorithm}
    {suite : CipherSuite} (hsavedAt : savedAt < 256 ^ 8) (hgroup : keyShare.id < 256 ^ 2)
    (hsuite : suite.id < 256 ^ 2) (hbody : body.length < 256 ^ 3)
    (hsecret : secret.length < 256 ^ 2)
    (hgroups : (s.tls.ctx.keyExchanges.getD []).find? (·.id = keyShare.id) = some keyShare)
    (hsuites : s.tls.ctx.cipherSuites.find? (·.id = suite.id) = some suite)
    (hclock : ∀ tick, env.getTime tick = now) (hle : savedAt ≤ now) :
    decodeStoredSessionTicket (storedTicket savedAt keyShare.id suite.id body secret) env s =
      match decodeNewSessionTicket ⟨15, body⟩ env s with
      | (.error fault, t) => (.error fault, t)
      | (.ok nst, t) => (if now - savedAt < 7 * 86400 * 1000 then .ok {
          keyShare := keyShare, cipherSuite := suite, secret := secret
          obfuscatedTicketAge := ((now - savedAt) % 2 ^ 32 + nst.ageAdd) % 2 ^ 32
          ticket := nst.ticket, maxEarlyDataSize := nst.maxEarlyDataSize }
        else .error (.code Error.library), { t with tick := t.tick + 1 }) := by
  rw [decodeStoredSessionTicket, storedTicket,
    liftM_bind_of_ok (Src.decodeUInt_toBE 0 _ hsavedAt)]
  dsimp only
  rw [liftM_bind_of_ok (Src.decodeUInt_toBE _ _ hgroup)]
  dsimp only
  rw [liftM_bind_of_ok (Src.decodeUInt_toBE _ _ hsuite)]
  dsimp only
  rw [liftM_bind_of_ok (Src.decodeOpenBlock_encodeBlock _ _ hbody)]
  dsimp only
  rcases hread : decodeNewSessionTicket ⟨15, body⟩ env s with ⟨fault | nst, t⟩
  · rw [bind_of_error hread]
  have hctx : t.tls = s.tls := tls_eq_of_run hread (by decide)
  rw [← hctx] at hgroups hsuites
  rw [bind_of_ok hread, liftM_bind_of_ok (Src.decodeBlock_encodeBlock _ hsecret), getTls_bind]
  simp only [hgroups, hsuites]
  rw [ask_bind, hclock]
  split_ifs with hage
  · rw [throwIf_bind_of_not (by simp [hle, hage])]
    rfl
  · rw [throwIf_bind_of (by simp [hle, hage])]

/-- The ticket that a client builds. -/
theorem clientBuildTicket_eq_ok {message ticket : Bytes}
    (h : clientBuildTicket message env s = (.ok (nst, secret, ticket), t)) :
    ∃ keyShare suite tick s₁,
      decodeNewSessionTicket (.ofMessage message handshakeHeaderSize) env s = (.ok nst, s₁) ∧
      s.tls.keyShare = some keyShare ∧ s.tls.cipherSuite = some suite ∧
      (message.drop handshakeHeaderSize).length < 256 ^ 3 ∧ secret.length < 256 ^ 2 ∧
      ticket = storedTicket (env.getTime tick) keyShare.id suite.id
        (message.drop handshakeHeaderSize) secret := by
  obtain ⟨nst', s₁, hdecode, h⟩ := bind_eq_ok.mp h
  obtain ⟨⟨secret', ticket'⟩, s₂, hbuild, h⟩ := bind_eq_ok.mp h
  cases h
  rw [withBuffer_run] at hbuild
  split at hbuild
  case h_2 => cases hbuild
  case h_1 result u hrun =>
    cases hbuild
    obtain ⟨keyShare, suite, hkeyShare, hsuite, hbody, hsecret, hticket⟩ :=
      buildStoredSessionTicket_appends hrun
    have htls : s₁.tls = s.tls := tls_eq_of_run hdecode (by decide)
    exact ⟨keyShare, suite, s₁.tick, s₁, hdecode, htls ▸ hkeyShare, htls ▸ hsuite, hbody, hsecret,
      hticket⟩

/-! ## Expiry -/

/-- What is demanded of a ticket that is read: it is what was saved, its age is told in
milliseconds, and it is neither older than its lifetime nor than a week. -/
structure ReadsSavedTicket (nst : NewSessionTicket) (keyShare : KeyExchangeAlgorithm)
    (suite : CipherSuite) (secret : Bytes) (savedAt now : ℕ) (stored : StoredSessionTicket) :
    Prop where
  keyShare : stored.keyShare = keyShare
  cipherSuite : stored.cipherSuite = suite
  secret : stored.secret = secret
  ticket : stored.ticket = nst.ticket
  maxEarlyDataSize : stored.maxEarlyDataSize = nst.maxEarlyDataSize
  age : ((stored.obfuscatedTicketAge : ℤ) - nst.ageAdd) % 2 ^ 32 = (now : ℤ) - savedAt
  lifetime : now - savedAt < 1000 * nst.lifetime
  week : now - savedAt < 7 * 86400 * 1000

/-- Tickets that are read satisfy all demands just if the ticket is younger than its lifetime, or
refused because it is older than a week or the application objects to one of its extensions. -/
theorem stored_ticket_expires_iff {savedAt now : ℕ} {message secret ticket : Bytes}
    {nst : NewSessionTicket} {keyShare : KeyExchangeAlgorithm} {suite : CipherSuite}
    (hbuild : clientBuildTicket message env s = (.ok (nst, secret, ticket), t))
    (hkeyShare : s.tls.keyShare = some keyShare) (hsuite : s.tls.cipherSuite = some suite)
    (hgroupId : keyShare.id < 256 ^ 2) (hsuiteId : suite.id < 256 ^ 2)
    (hclock : ∀ tick, env.getTime tick = savedAt) (hsavedAt : savedAt < 256 ^ 8)
    (hclock' : ∀ tick, env'.getTime tick = now) (hle : savedAt ≤ now)
    (hgroups : (s'.tls.ctx.keyExchanges.getD []).find? (·.id = keyShare.id) = some keyShare)
    (hsuites : s'.tls.ctx.cipherSuites.find? (·.id = suite.id) = some suite) :
    (∀ stored t', decodeStoredSessionTicket ticket env' s' = (.ok stored, t') →
      ReadsSavedTicket nst keyShare suite secret savedAt now stored) ↔
    ((∀ nst' t', decodeNewSessionTicket ⟨15, message.drop handshakeHeaderSize⟩ env' s' ≠
        (.ok nst', t')) ∨
      now - savedAt < 1000 * nst.lifetime ∨ 7 * 86400 * 1000 ≤ now - savedAt) := by
  obtain ⟨keyShare₁, suite₁, tick, s₁, hdecode, hkeyShare₁, hsuite₁, hbody, hsecret, hticket⟩ :=
    clientBuildTicket_eq_ok hbuild
  obtain rfl := Option.some.inj (hkeyShare.symm.trans hkeyShare₁)
  obtain rfl := Option.some.inj (hsuite.symm.trans hsuite₁)
  rw [hclock] at hticket
  have hrun :=
    decodeStoredSessionTicket_run hsavedAt hgroupId hsuiteId hbody hsecret hgroups hsuites
    hclock' hle
  rw [← hticket] at hrun
  rcases hread : decodeNewSessionTicket ⟨15, message.drop handshakeHeaderSize⟩ env' s' with
    ⟨fault | nst', t'⟩ <;> simp only [hread] at hrun
  · rw [hrun]
    simp
  have hsame : (⟨15, message.drop handshakeHeaderSize⟩ : Src).data =
      (Src.ofMessage message handshakeHeaderSize).data := rfl
  obtain rfl : nst' = nst := decodeNewSessionTicket_agrees hsame hdecode hread
  rw [hrun]
  by_cases hweek : now - savedAt < 7 * 86400 * 1000
  · rw [if_pos hweek]
    constructor
    · intro hspec
      exact .inr (.inl (hspec _ _ rfl).lifetime)
    · intro hcond stored t'' hstored
      cases hstored
      have hlifetime : now - savedAt < 1000 * nst'.lifetime := by
        rcases hcond with hrefused | hyoung | hold
        · exact absurd rfl (hrefused nst' t')
        · exact hyoung
        · exact absurd hweek (Nat.not_lt.mpr hold)
      refine ⟨rfl, rfl, rfl, rfl, rfl, ?_, hlifetime, hweek⟩
      dsimp only
      omega
  · rw [if_neg hweek]
    simp only [Prod.mk.injEq, reduceCtorEq, false_and, false_implies, implies_true, true_iff]
    exact .inr (.inr (Nat.not_lt.mp hweek))

end Storing

namespace Sample

/-- A client after its handshake, which saves tickets. -/
def savingClient : Session where
  tls := { newInstance { context with saveTicket := true } false .clientPostHandshake with
    cipherSuite := some (suite 0x1301 0)
    keyShare := some ⟨29, 0⟩
    keySchedule := some { generation := 3, secret := [1, 2], hashes := [{ algo := hash 0 }] } }

/-- A ticket with a lifetime in seconds. -/
def ticketMessage (lifetime : ℕ) : Bytes :=
  message HandshakeType.newSessionTicket
    (toBE 4 lifetime ++ toBE 4 7 ++ block 1 [] ++ block 2 [1, 2] ++ block 2 [])

/-- An environment with a given time. -/
def environmentAt (now : ℕ) : Environment := { environment with getTime := fun _ => now }

/-- What the sample client saves of a ticket, at time zero. -/
def savedTicket (lifetime : ℕ) : Except Fault (NewSessionTicket × Bytes × Bytes) :=
  (@clientBuildTicket crypto (ticketMessage lifetime) environment savingClient).1

end Sample

open Sample

/-- A ticket with a lifetime of one second is taken when it is two seconds old. -/
theorem expired_ticket_taken :
    (savedTicket 1).map (fun (nst, _, _) => nst.lifetime) = .ok 1 ∧
    ((savedTicket 1).bind fun (_, _, ticket) =>
      (decodeStoredSessionTicket ticket (environmentAt 2000) savingClient).1.map
        StoredSessionTicket.ticket) = .ok [1, 2] := by
  decide +kernel

/-- A ticket with a lifetime of ten seconds that is read when it is two seconds old. -/
theorem stored_ticket_expires_sample : ∃ (nst : NewSessionTicket) (secret ticket : Bytes),
    savedTicket 10 = .ok (nst, secret, ticket) ∧ ∀ stored t',
      decodeStoredSessionTicket ticket (environmentAt 2000) savingClient =
        (.ok stored, t') →
      ReadsSavedTicket nst ⟨29, 0⟩ (Sample.suite 0x1301 0) secret 0 2000 stored := by
  have hlifetime : (savedTicket 10).map (fun (nst, _, _) => nst.lifetime) = .ok 10 := by
    decide +kernel
  rcases hrun : @clientBuildTicket crypto (ticketMessage 10) environment
    savingClient with ⟨fault | ⟨nst, secret, ticket⟩, t⟩ <;>
    rw [savedTicket, hrun] at hlifetime
  · cases hlifetime
  · refine ⟨nst, secret, ticket, congrArg Prod.fst hrun, ?_⟩
    have hten : nst.lifetime = 10 := Except.ok.inj hlifetime
    refine (@stored_ticket_expires_iff _ _ _ _ _ crypto _ _ _ _ _ _ _ _ hrun rfl rfl
      (by decide) (by decide) (fun _ => rfl) (by decide) (fun _ => rfl) (by decide) rfl rfl).mpr ?_
    rw [hten]
    exact .inr (.inl (by decide))

end Picotls
