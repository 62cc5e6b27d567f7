import Picotls.Sample
import Picotls.Server.TicketKey
import Picotls.ServerInvariants

/-!
# Distinct tickets and distinct keys

The nonce of a ticket is there to give every ticket of a connection a key of its own. The server
uses the empty nonce for all tickets, and it derives them from the same transcript, so that the
tickets of a connection all hold the same key. This is shown for the call that sends the tickets
and for whole runs of a server, in which only one call seals tickets.
-/

namespace Picotls

open Foundation Procedure

variable {env : Environment} {s t : Session} {sendCertVerify : Bool}
  {contextString message psk : Bytes} {emitter : Emitter} {E : List Effect}
  {algos : Option (List ℕ)} {properties : Option HandshakeProperties} {progress : Progress}
  {u : Unit} {α : Type} {m : Proc α}

/-! ## Sealed keys -/

/-- The keys in the tickets that a server has sealed. -/
def ticketPsks (trace : List Event) : List Bytes := trace.filterMap fun
  | .sealTicket psk => some psk
  | _ => none

/-- Steps that seal no ticket. -/
theorem Steps.ticketPsks_eq (h : Via E s t)
    (hE : ∀ e ∈ E, e.emits .sealTicket = false) : ticketPsks t.trace = ticketPsks s.trace :=
  Steps.filterMap_eq .sealTicket (fun event hkind => by cases event <;> trivial) h hE

/-- All tickets that are sealed hold the given key. -/
def SealsOnly (psk : Bytes) (s t : Session) : Prop :=
  ∃ n, ticketPsks t.trace = ticketPsks s.trace ++ List.replicate n psk

instance : IsPreorder Session (SealsOnly psk) where
  refl s := ⟨0, (List.append_nil _).symm⟩
  trans s t u := by
    rintro ⟨m, hm⟩ ⟨n, hn⟩
    exact ⟨m + n, by rw [hn, hm, List.append_assoc, List.replicate_add]⟩

/-- The effects of the procedures that write tickets, sealing apart. -/
abbrev ticketEffects : List Effect :=
  [.io, .draw, .transcript, .encrypt, .note .derive, .note .finishedMac, .note .sent]

/-- A part of a ticket's making that seals nothing. -/
theorem Within.ticketPsks_eq {x : Except Fault α} (h : Within ticketEffects m)
    (hrun : m env s = (x, t)) : ticketPsks t.trace = ticketPsks s.trace :=
  Steps.ticketPsks_eq (h.steps hrun) (by decide)

instance (priority := low) {α : Type} (m : Proc α) [h : Within ticketEffects m] :
    Respects (SealsOnly psk) m where
  relates env s := ⟨0, by
    rw [Steps.ticketPsks_eq (h.relates env s) (by decide), List.replicate_zero, List.append_nil]⟩

instance : Respects (SealsOnly psk) (emitEvent (.sealTicket psk)) where
  relates env s := ⟨1, by simp [emitEvent, ticketPsks]⟩

/-- What is needed to write a message keeps to the relation. -/
class AllowsOutput (R : Session → Session → Prop) : Prop where
  output : ∀ {s t : Session}, Via [.io, .transcript, .encrypt, .note .sent] s t → R s t

section

variable {R : Session → Session → Prop} [hR : AllowsOutput R] {α : Type}

theorem AllowsOutput.respects (m : Proc α)
    [h : Within [.io, .transcript, .encrypt, .note .sent] m] : Respects R m :=
  ⟨fun env s => hR.output (h.relates env s)⟩

variable [IsPreorder Session R]

instance (capacity : ℕ) (block : Proc α) [Respects R block] :
    Respects R (bufferPushBlock capacity block) := by
  have hwrites {β : Type} := @AllowsOutput.respects R _ β
  unfold bufferPushBlock
  infer_instance

instance [Crypto] (type : UInt8) (block : Proc Unit) [Respects R block] :
    Respects R (pushMessage emitter true type block) := by
  have hwrites {β : Type} := @AllowsOutput.respects R _ β
  unfold pushMessage writeMessage bufferPushMessageBody bufferPushMessage
  repeat' first | infer_instance | refine .seq ?_ fun _ => ?_

end

instance : AllowsOutput (SealsOnly psk) where
  output h := ⟨0, by
    rw [Steps.ticketPsks_eq h (by decide), List.replicate_zero, List.append_nil]⟩

variable [Crypto]

/-- A message adds the keys that its body adds. -/
theorem pushMessage_psks {type : UInt8} {block : Proc Unit} {psks : List Bytes}
    (hblock : ∀ s t, block env s = (.ok (), t) →
      ticketPsks t.trace = ticketPsks s.trace ++ psks)
    (h : pushMessage emitter true type block env s = (.ok u, t)) :
    ticketPsks t.trace = ticketPsks s.trace ++ psks := by
  obtain ⟨⟨_, message⟩, s₁, hwrite, hnote⟩ := bind_eq_ok.mp h
  obtain ⟨start, s₂, hbegin, hwrite⟩ := bind_eq_ok.mp hwrite
  obtain ⟨⟨_, message'⟩, s₃, hbody, hwrite⟩ := bind_eq_ok.mp hwrite
  obtain ⟨_, s₄, hcommit, hwrite⟩ := bind_eq_ok.mp hwrite
  cases hwrite
  cases hnote
  obtain ⟨tick, t₁, t₂, hrun, -, htrace, habsorb, -⟩ := bufferPushMessageBody_eq_ok hbody
  have hsent : ticketPsks (s₁.trace ++ [.sent message]) = ticketPsks s₁.trace := by
    simp [ticketPsks]
  change ticketPsks (s₁.trace ++ [.sent message]) = _
  rw [hsent, Within.ticketPsks_eq inferInstance hcommit, Within.ticketPsks_eq inferInstance habsorb,
    htrace, hblock _ _ hrun, ← Within.ticketPsks_eq inferInstance hbegin]
  rfl

omit [Crypto] in
/-- The body of a ticket with a key. -/
theorem sealTicketBlock_psks {ctx : Context} {ageAdd sessionId : Bytes}
    (h : (do
      bufferPushUInt 4 ctx.ticketLifetime
      bufferPushv ageAdd
      bufferPushBlock 1 (pure ())
      bufferPushBlock 2 (do
        let answer ← ask fun env tick => env.encryptTicket tick true sessionId
        checkCode answer.1
        emitEvent (.sealTicket psk)
        bufferPushv answer.2)
      bufferPushBlock 2 (runIf (ctx.maxEarlyDataSize ≠ 0) (bufferPushExtension
        ExtensionType.earlyData (bufferPushUInt 4 ctx.maxEarlyDataSize))) : Proc Unit) env s =
      (.ok u, t)) : ticketPsks t.trace = ticketPsks s.trace ++ [psk] := by
  obtain ⟨_, s₁, hlifetime, h⟩ := bind_eq_ok.mp h
  obtain ⟨_, s₂, hage, h⟩ := bind_eq_ok.mp h
  obtain ⟨_, s₃, hnonce, h⟩ := bind_eq_ok.mp h
  obtain ⟨_, s₄, hsealed, hextensions⟩ := bind_eq_ok.mp h
  obtain ⟨tick, t₁, hseal, -, rfl⟩ := bufferPushBlock_eq_ok hsealed
  obtain ⟨answer, t₂, hask, hseal⟩ := bind_eq_ok.mp hseal
  obtain ⟨_, t₃, hcode, hseal⟩ := bind_eq_ok.mp hseal
  rw [emitEvent_bind] at hseal
  have hnoted : ticketPsks (t₃.trace ++ [.sealTicket psk]) = ticketPsks t₃.trace ++ [psk] := by
    simp [ticketPsks]
  have hstart : ticketPsks s₃.trace = ticketPsks s.trace := by
    rw [Within.ticketPsks_eq inferInstance hnonce, Within.ticketPsks_eq inferInstance hage,
      Within.ticketPsks_eq inferInstance hlifetime]
  rw [Within.ticketPsks_eq inferInstance hextensions]
  change ticketPsks t₁.trace = _
  rw [Within.ticketPsks_eq inferInstance hseal, hnoted, Within.ticketPsks_eq inferInstance hcode,
    Within.ticketPsks_eq inferInstance hask, ← hstart]
  rfl

/-- The key that the tickets of a connection hold. -/
def Session.ticketPsk (s : Session) : Bytes :=
  s.ticketInputs.elim [] fun inputs => inputs.completed.resumptionSecret []

omit [Crypto] in
/-- Writing a ticket leaves the connection alone, apart from the transcript and the protection of
what is sent. -/
theorem Steps.ticketBasis (h : Via (.note .sealTicket :: ticketEffects) s t) :
    t.tls.keyShare = s.tls.keyShare ∧ t.tls.dec = s.tls.dec ∧ t.tls.ctx = s.tls.ctx ∧
      t.tls.pendingHandshakeSecret = s.tls.pendingHandshakeSecret := by
  refine h.preserves (P := fun u => u.tls.keyShare = s.tls.keyShare ∧ u.tls.dec = s.tls.dec ∧
    u.tls.ctx = s.tls.ctx ∧ u.tls.pendingHandshakeSecret = s.tls.pendingHandshakeSecret)
    (fun e he u v hstep hu => ?_) ⟨rfl, rfl, rfl, rfl⟩
  cases hstep <;> first | exact hu | simp at he

/-- A ticket was sealed or not, and was if the call succeeded and the ticket is to hold a key. -/
structure SealsTicket (psk : Bytes) (keyShare : Option KeyExchangeAlgorithm) (s : Session)
    (outcome : Except Fault Unit × Session) : Prop where
  seals : SealsOnly psk s outcome.2
  returns : outcome.1 = .ok () → ticketPsks outcome.2.trace =
    ticketPsks s.trace ++ List.replicate (if keyShare.isSome then 1 else 0) psk

omit [Crypto] in
/-- A ticket's making goes on after a part that seals nothing. -/
theorem SealsTicket.bind {keyShare : Option KeyExchangeAlgorithm} {f : α → Proc Unit}
    (hm : Within ticketEffects m)
    (hf : ∀ a t, m env s = (.ok a, t) → SealsTicket psk keyShare t (f a env t)) :
    SealsTicket psk keyShare s ((m >>= f) env s) := by
  refine bind_cases (fun fault t hrun => ⟨Respects.run hrun, nofun⟩) fun a t hrun => ?_
  have hfirst := hm.ticketPsks_eq hrun
  obtain ⟨⟨n, hn⟩, hreturns⟩ := hf a t hrun
  rw [hfirst] at hn hreturns
  exact ⟨⟨n, hn⟩, hreturns⟩

/-- Sealing and sending a session identifier. -/
theorem sendSealedTicket_seals (emitter : Emitter) {inputs : TicketInputs}
    (hs : s.ticketInputs = some inputs) :
    SealsTicket (inputs.completed.resumptionSecret []) s.tls.keyShare s
      (sendSealedTicket emitter env s) := by
  rw [sendSealedTicket, getTls_bind]
  refine .bind inferInstance fun _ s₁ habsorb => .bind inferInstance fun ageAdd s₂ hdraw =>
    .bind inferInstance fun ⟨psk, sessionId⟩ s₃ hbuild => ?_
  have hs₂ : s₂.ticketInputs = some inputs.completed := by
    rw [ticketInputs_congr (tls_eq_of_run hdraw (by decide)),
      absorbExpectedFinished_inputs hs habsorb]
  have hshare : s₂.tls.keyShare = s.tls.keyShare := by
    rw [tls_eq_of_run hdraw (by decide)]
    have hsteps : Via (.note .sealTicket :: ticketEffects) s s₁ :=
      Within.steps inferInstance habsorb
    exact (Steps.ticketBasis hsteps).1
  have hpsk := buildSessionIdentifier_inputs hs₂ hbuild
  rw [hshare] at hpsk
  subst hpsk
  cases hkeyShare : s.tls.keyShare with
  | none =>
    dsimp only [Option.map, whenSome]
    refine ⟨Respects.relates env s₃, fun _ => ?_⟩
    have hquiet {m : Proc Unit} (hm : Within ticketEffects m) :
        ticketPsks (m env s₃).2.trace = ticketPsks s₃.trace :=
      Steps.ticketPsks_eq (hm.relates env s₃) (by decide)
    rw [hquiet inferInstance]
    exact (List.append_nil _).symm
  | some algo =>
    dsimp only [Option.map, whenSome]
    refine ⟨Respects.relates env s₃, fun hok => ?_⟩
    exact pushMessage_psks (fun u v hblock => sealTicketBlock_psks hblock) (Prod.ext hok rfl)

omit [Crypto] in
/-- The transcript that is restored is the one the next ticket is derived from. -/
theorem restoreTranscript_inputs {ctx : Bytes} (h : restoreTranscript ctx env s = (.ok u, t)) :
    t.ticketInputs = s.ticketInputs.map fun inputs => { inputs with transcript := ctx } := by
  obtain ⟨slot, s₁, hslot, hmodify⟩ := bind_eq_ok.mp h
  obtain ⟨sched, hsched, hhead, rfl⟩ := firstHash_eq_ok.mp hslot
  rw [modifyFirstHash, bind_of_ok (getKeySchedule_eq_ok.mpr ⟨hsched, rfl⟩)] at hmodify
  cases hmodify
  rw [Session.ticketInputs, Session.ticketInputs, hsched]
  rcases sched with ⟨_, _, _ | ⟨slot, rest⟩⟩ <;> rfl

omit [Crypto] in
/-- Apart from the transcript, writing a ticket leaves the inputs alone. -/
theorem Steps.ticketInputs_eq (h : Via (.note .sealTicket :: ticketEffects) s t)
    (ctx : Bytes) :
    (t.ticketInputs.map fun inputs => { inputs with transcript := ctx }) =
      s.ticketInputs.map fun inputs => { inputs with transcript := ctx } := by
  obtain ⟨-, hdec, hctx, hpending⟩ := Steps.ticketBasis h
  have halgos := Steps.algos_eq h (by decide)
  have hsecret := Steps.secret_eq h (by decide) (by decide)
  have hview (u : Session) : (u.ticketInputs.map fun inputs => { inputs with transcript := ctx }) =
      u.secret.bind fun secret => u.algos.bind fun algos => algos.head?.map fun algo =>
        { algo := algo, transcript := ctx, secret := secret.2
          finishedSecret := u.tls.pendingHandshakeSecret.getD u.tls.dec.secret
          expectsEnd := u.tls.pendingHandshakeSecret.isSome && !u.tls.ctx.omitEndOfEarlyData } := by
    rw [Session.ticketInputs, Session.secret, Session.algos]
    rcases u.tls.keySchedule with _ | ⟨_, _, _ | ⟨slot, rest⟩⟩ <;> rfl
  rw [hview, hview, halgos, hsecret, hdec, hctx, hpending]

/-- Sending a ticket. -/
theorem sendSessionTicket_seals (emitter : Emitter) :
    SealsOnly s.ticketPsk s (sendSessionTicket emitter env s).2 := by
  rw [sendSessionTicket]
  refine bind_cases (Q := fun p => SealsOnly s.ticketPsk s p.2) (fun fault s₁ hrun => ?_)
    fun slot s₁ hfirst => ?_
  · exact Respects.run hrun
  obtain ⟨inputs, hs, -, -, rfl⟩ := firstHash_inputs hfirst
  have hpsk : s₁.ticketPsk = inputs.completed.resumptionSecret [] := by
    rw [Session.ticketPsk, hs]
    rfl
  rw [getTls_bind, assert_bind]
  split_ifs
  swap
  · exact refl_of _ _
  rw [assert_bind]
  split_ifs
  swap
  · exact refl_of _ _
  have hsealed : SealsOnly s₁.ticketPsk s₁ (attemptCode (sendSealedTicket emitter) env s₁).2 := by
    rw [attemptCode_run, hpsk]
    exact (sendSealedTicket_seals emitter hs).seals
  refine bind_post (Q := fun p => SealsOnly s₁.ticketPsk s₁ p.2) hsealed (fun _ _ ht => ht)
    fun result t _ ht => ?_
  exact trans_of (SealsOnly s₁.ticketPsk) ht (Respects.relates env t)

/-- A ticket that was sent: it holds a key if the connection has a key share, and the next one is
derived from the same inputs. -/
theorem sendSessionTicket_eq_ok (h : sendSessionTicket emitter env s = (.ok u, t)) :
    ticketPsks t.trace =
        ticketPsks s.trace ++ List.replicate (if s.tls.keyShare.isSome then 1 else 0) s.ticketPsk ∧
      t.ticketInputs = s.ticketInputs ∧ t.tls.keyShare = s.tls.keyShare := by
  have hsteps : Via (.note .sealTicket :: ticketEffects) s t :=
    Within.steps inferInstance h
  obtain ⟨slot, s₁, hfirst, hafter₁⟩ := bind_eq_ok.mp h
  obtain ⟨inputs, hs, -, htranscript, rfl⟩ := firstHash_inputs hfirst
  rw [getTls_bind] at hafter₁
  obtain ⟨_, s₂, hlifetime, hafter₂⟩ := bind_eq_ok.mp hafter₁
  obtain ⟨-, rfl⟩ := assert_eq_ok.mp hlifetime
  obtain ⟨_, s₃, hcallback, hafter₃⟩ := bind_eq_ok.mp hafter₂
  obtain ⟨-, rfl⟩ := assert_eq_ok.mp hcallback
  obtain ⟨result, s₄, hsend, hafter₄⟩ := bind_eq_ok.mp hafter₃
  obtain ⟨_, s₅, hrestore, hanswer⟩ := bind_eq_ok.mp hafter₄
  have hresult : result = .ok () ∧ t = s₅ := by
    cases result with
    | ok u =>
      cases hanswer
      exact ⟨rfl, rfl⟩
    | error code => cases hanswer
  rw [hresult.1, attemptCode_eq_ok] at hsend
  obtain rfl := hresult.2
  have hpsk : s₃.ticketPsk = inputs.completed.resumptionSecret [] := by
    rw [Session.ticketPsk, hs]
    rfl
  have houtcome : SealsTicket _ _ s₃ (sendSealedTicket emitter env s₃) :=
    sendSealedTicket_seals emitter hs
  rw [hsend] at houtcome
  refine ⟨?_, ?_, (Steps.ticketBasis hsteps).1⟩
  · have hquiet : ticketPsks t.trace = ticketPsks s₄.trace :=
      Steps.ticketPsks_eq (E := [.transcript]) (Within.steps inferInstance hrestore) (by decide)
    rw [hquiet, hpsk]
    exact houtcome.returns rfl
  · rw [restoreTranscript_inputs hrestore, Steps.ticketInputs_eq
      (Within.steps (m := sendSealedTicket emitter) inferInstance hsend), hs, ← htranscript]
    rfl

/-- The tickets of a connection. -/
theorem sendTickets_seals (emitter : Emitter) (l : List ℕ) (s : Session) :
    SealsOnly s.ticketPsk s
      (Procedure.forEach (fun _ => sendSessionTicket emitter) l env s).2 := by
  induction l generalizing s with
  | nil => exact refl_of _ _
  | cons n l ih =>
    rw [Procedure.forEach]
    refine bind_post (Q := fun p => SealsOnly s.ticketPsk s p.2) (sendSessionTicket_seals emitter)
      (fun _ _ ht => ht) fun _ t hrun ht => ?_
    have hrest := ih t
    rw [Session.ticketPsk, (sendSessionTicket_eq_ok hrun).2.1] at hrest
    exact trans_of (SealsOnly s.ticketPsk) ht hrest

/-- The tickets of a connection, all of them sent. -/
theorem sendTickets_eq_ok {l : List ℕ}
    (h : Procedure.forEach (fun _ => sendSessionTicket emitter) l env s = (.ok u, t)) :
    ticketPsks t.trace = ticketPsks s.trace ++
      List.replicate (if s.tls.keyShare.isSome then l.length else 0) s.ticketPsk := by
  induction l generalizing s with
  | nil =>
    cases h
    simp
  | cons n l ih =>
    rw [Procedure.forEach] at h
    obtain ⟨_, s₁, hfirst, hrest⟩ := bind_eq_ok.mp h
    obtain ⟨hpsks, hinputs, hshare⟩ := sendSessionTicket_eq_ok hfirst
    have hpsk : s₁.ticketPsk = s.ticketPsk := by
      rw [Session.ticketPsk, hinputs, Session.ticketPsk]
    rw [ih hrest, hpsks, hshare, hpsk, List.append_assoc, ← List.replicate_add]
    split_ifs
    · rw [List.length_cons, Nat.add_comm]
    · rfl

/-! ## The end of the server's flight -/

/-- The number of tickets and the key share are the same. -/
def SameTickets (s t : Session) : Prop :=
  t.tls.numTicketsToSend = s.tls.numTicketsToSend ∧ t.tls.keyShare = s.tls.keyShare

instance : IsPreorder Session SameTickets where
  refl _ := ⟨rfl, rfl⟩
  trans _ _ _ h h' := ⟨h'.1.trans h.1, h'.2.trans h.2⟩

/-- The effects that leave the tickets alone, as far as the end of the flight has them. -/
abbrev serverFlightEffects : List Effect :=
  [.io, .transcript, .advance, .dec, .encSecret, .encClear, .encInstall, .encrypt, .earlyData,
    .state .serverGeneratingCertificateVerify, .state .serverExpectFinished,
    .state .serverExpectEndOfEarlyData, .state .serverExpectCertificate, .note .derive,
    .note .finishedMac, .note .sent]

omit [Crypto] in
theorem Steps.sameTickets (h : Via serverFlightEffects s t) : SameTickets s t := by
  refine h.preserves (P := SameTickets s) (fun e he u v hstep hu => ?_) (refl_of _ _)
  cases hstep <;> first | exact hu | simp at he

instance (priority := low) {α : Type} (m : Proc α) [h : Within serverFlightEffects m] :
    Respects SameTickets m :=
  ⟨fun env s => Steps.sameTickets (h.relates env s)⟩

instance : AllowsOutput SameTickets := ⟨fun h => Steps.sameTickets (h.mono (by decide))⟩

instance (isEarly : Bool) : Respects SameTickets (deriveExporterSecret isEarly) := by
  have hearly (secret : Option Bytes) : Respects SameTickets
      (modifyTls fun tls => { tls with exporterMasterSecretEarly := secret }) :=
    ⟨fun _ _ => ⟨rfl, rfl⟩⟩
  have honeRtt (secret : Option Bytes) : Respects SameTickets
      (modifyTls fun tls => { tls with exporterMasterSecretOneRtt := secret }) :=
    ⟨fun _ _ => ⟨rfl, rfl⟩⟩
  unfold deriveExporterSecret
  split <;> infer_instance

instance (startOff : ℕ) : Respects SameTickets (signTranscript startOff algos contextString) := by
  have hjob (pending : Bool) :
      Respects SameTickets (modifyTls fun tls => { tls with asyncJob := pending }) :=
    ⟨fun _ _ => ⟨rfl, rfl⟩⟩
  unfold signTranscript
  repeat' first | infer_instance | refine .seq ?_ fun _ => ?_ | split

instance : Respects SameTickets (sendCertificateVerify emitter algos contextString) := by
  unfold sendCertificateVerify
  infer_instance

instance : Respects SameTickets (serverSendCertificateVerify emitter algos) := by
  unfold serverSendCertificateVerify
  repeat' first | infer_instance | refine .seq ?_ fun _ => ?_ | split

instance : Respects SameTickets (serverFinishFlight emitter sendCertVerify algos) := by
  unfold serverFinishFlight
  repeat' first | infer_instance | refine .seq ?_ fun _ => ?_

instance :
    Within (.misc :: serverFlightEffects) (serverFinishFlight emitter sendCertVerify algos) := by
  unfold serverFinishFlight
  repeat' first | infer_instance | refine .seq ?_ fun _ => ?_

theorem serverFinishFlight_psks {x : Except Fault Unit}
    (h : serverFinishFlight emitter sendCertVerify algos env s = (x, t)) :
    ticketPsks t.trace = ticketPsks s.trace := by
  have hsteps : Via (.misc :: serverFlightEffects) s t := Within.steps inferInstance h
  exact Steps.ticketPsks_eq hsteps (by decide)

theorem serverFinishFlight_finished
    (h : serverFinishFlight emitter sendCertVerify algos env s = (.ok u, t)) :
    t.tls.state.HasFinished := by
  obtain ⟨_, s₁, -, h⟩ := bind_eq_ok.mp h
  obtain ⟨_, s₂, -, h⟩ := bind_eq_ok.mp h
  obtain ⟨_, s₃, -, h⟩ := bind_eq_ok.mp h
  obtain ⟨_, s₄, -, h⟩ := bind_eq_ok.mp h
  obtain ⟨_, s₅, -, h⟩ := bind_eq_ok.mp h
  obtain ⟨_, s₆, -, h⟩ := bind_eq_ok.mp h
  obtain ⟨_, s₇, -, h⟩ := bind_eq_ok.mp h
  obtain ⟨_, s₈, -, h⟩ := bind_eq_ok.mp h
  obtain ⟨_, s₉, -, h⟩ := bind_eq_ok.mp h
  exact serverAwaitClient_finished h

theorem serverSendTickets_seals (emitter : Emitter) :
    SealsOnly s.ticketPsk s (serverSendTickets emitter env s).2 := by
  rw [serverSendTickets, getTls_bind]
  have hloop : SealsOnly s.ticketPsk s ((runIf (s.tls.numTicketsToSend ≠ 0) do
      assert (s.tls.ctx.ticketLifetime ≠ 0)
      Procedure.forEach (fun _ => sendSessionTicket emitter)
        (List.range s.tls.numTicketsToSend)) env s).2 := by
    rw [runIf]
    split_ifs
    · rw [assert_bind]
      split_ifs
      · exact sendTickets_seals emitter _ s
      · exact refl_of _ _
    · exact refl_of _ _
  exact bind_post (Q := fun p => SealsOnly s.ticketPsk s p.2) hloop (fun _ _ ht => ht)
    fun _ _ _ ht => ht

/-- A flight that ended: as many tickets as were to be sent, all with the same key. -/
theorem serverSendTickets_eq_ok (h : serverSendTickets emitter env s = (.ok progress, t)) :
    ticketPsks t.trace = ticketPsks s.trace ++ List.replicate
      (if s.tls.keyShare.isSome then s.tls.numTicketsToSend else 0) s.ticketPsk := by
  rw [serverSendTickets, getTls_bind] at h
  obtain ⟨_, s₁, hloop, h⟩ := bind_eq_ok.mp h
  cases h
  rw [runIf] at hloop
  split_ifs at hloop with hnumber
  · obtain ⟨_, s₂, hlifetime, hloop⟩ := bind_eq_ok.mp hloop
    rw [(assert_eq_ok.mp hlifetime).2] at hloop
    rw [sendTickets_eq_ok hloop, List.length_range]
  · cases hloop
    simp [not_not.mp hnumber]

/-- What a successful end of the handshake adds to the tickets of the connection. -/
theorem serverFinishHandshake_eq_ok
    (h : serverFinishHandshake emitter sendCertVerify algos env s = (.ok progress, t)) :
    ∃ psk, ticketPsks t.trace = ticketPsks s.trace ++ List.replicate
      (if s.tls.keyShare.isSome then s.tls.numTicketsToSend else 0) psk := by
  rw [serverFinishHandshake] at h
  obtain ⟨_, s₁, hflight, htickets⟩ := bind_eq_ok.mp h
  have hsame : SameTickets s s₁ := Respects.run hflight
  refine ⟨s₁.ticketPsk, ?_⟩
  rw [serverSendTickets_eq_ok htickets, serverFinishFlight_psks hflight, hsame.1, hsame.2]

/-! ## Whole connections -/

/-- No ticket has been sealed, or the server's flight is over and all tickets hold the same key. -/
def Session.TicketsAgree (s : Session) : Prop :=
  ticketPsks s.trace = [] ∨
    s.tls.state.HasFinished ∧ ∃ n psk, ticketPsks s.trace = List.replicate n psk

omit [Crypto] in
/-- Steps after the flight. -/
theorem Session.TicketsAgree.of_steps (hs : s.TicketsAgree) (h : Via E s t)
    (hE : ∀ e ∈ E, e.emits .sealTicket = false)
    (hstates : ∀ state, .state state ∈ E → state.HasFinished) : t.TicketsAgree := by
  rw [Session.TicketsAgree, Steps.ticketPsks_eq h hE]
  refine hs.imp_right fun ⟨hfinished, hpsks⟩ => ⟨?_, hpsks⟩
  refine h.preserves (P := fun u => u.tls.state.HasFinished) (fun e he u v hstep hu => ?_) hfinished
  cases hstep <;> first | exact hu | exact hstates _ he

theorem serverFinishHandshake_agree (hs : ticketPsks s.trace = []) :
    (serverFinishHandshake emitter sendCertVerify algos env s).2.TicketsAgree := by
  rw [serverFinishHandshake]
  refine bind_cases (Q := fun p => Session.TicketsAgree p.2) (fun fault s₁ hrun => ?_)
    fun _ s₁ hrun => ?_
  · exact .inl ((serverFinishFlight_psks hrun).trans hs)
  · obtain ⟨n, hn⟩ : SealsOnly s₁.ticketPsk s₁ (serverSendTickets emitter env s₁).2 :=
      serverSendTickets_seals emitter
    rw [serverFinishFlight_psks hrun, hs, List.nil_append] at hn
    have hstate : (serverSendTickets emitter env s₁).2.tls.state = s₁.tls.state :=
      Steps.state_eq (E := .note .sealTicket :: ticketEffects)
        (Respects.relates env s₁) (by simp)
    exact .inr ⟨hstate ▸ serverFinishFlight_finished hrun, n, s₁.ticketPsk, hn⟩

/-- The effects of the parts of a hello's handling before the end of the flight. -/
abbrev unsealedEffects : List Effect :=
  [.io, .draw, .transcript, .advance, .schedule, .dec, .encSecret, .encClear, .encInstall,
    .encrypt, .names, .negotiation, .suite, .psk, .ech, .earlyData, .startSkip, .misc, .context,
    .refuse, .state .serverExpectSecondClientHello, .note .derive, .note .finishedMac, .note .sent,
    .note .absorb, .note .exchange, .note .handshakeSecret, .note .acceptEarly]

omit [Crypto] in
/-- A part of a hello's handling, before tickets are sealed. -/
theorem ticketsAgree_bind {β : Type} {f : α → Proc β} [hm : Within unsealedEffects m]
    (hs : ticketPsks s.trace = [])
    (hf : ∀ a t, ticketPsks t.trace = [] → Session.TicketsAgree (f a env t).2) :
    Session.TicketsAgree ((m >>= f) env s).2 := by
  have hpsks : ticketPsks (m env s).2.trace = [] := by
    rw [Steps.ticketPsks_eq (hm.relates env s) (by decide), hs]
  exact bind_post (P := fun t => ticketPsks t.trace = []) (Q := fun p => Session.TicketsAgree p.2)
    hpsks (fun _ _ ht => .inl ht) fun a t _ ht => hf a t ht

theorem serverAnswerHello_agree {ch : ClientHello}
    {keyShare : Option (KeyExchangeAlgorithm × Bytes)} {isSecondFlight : Bool}
    (hs : ticketPsks s.trace = []) :
    Session.TicketsAgree
      (serverAnswerHello emitter message ch keyShare isSecondFlight properties env s).2 := by
  unfold serverAnswerHello
  refine ticketsAgree_bind hs fun _ s₁ hs₁ => ticketsAgree_bind hs₁ fun psk s₂ hs₂ =>
    ticketsAgree_bind hs₂ fun tls s₃ hs₃ => ticketsAgree_bind hs₃ fun _ s₄ hs₄ =>
    ticketsAgree_bind hs₄ fun mode s₅ hs₅ => ticketsAgree_bind hs₅ fun _ s₆ hs₆ =>
    ticketsAgree_bind hs₆ fun _ s₇ hs₇ => ticketsAgree_bind hs₇ fun exchanged s₈ hs₈ =>
    ticketsAgree_bind hs₈ fun _ s₉ hs₉ => ticketsAgree_bind hs₉ fun _ s₁₀ hs₁₀ =>
    ticketsAgree_bind hs₁₀ fun _ s₁₁ hs₁₁ => ticketsAgree_bind hs₁₁ fun _ s₁₂ hs₁₂ =>
    ticketsAgree_bind hs₁₂ fun _ s₁₃ hs₁₃ => ?_
  split_ifs
  · exact ticketsAgree_bind hs₁₃ fun _ s₁₄ hs₁₄ => ticketsAgree_bind hs₁₄ fun _ s₁₅ hs₁₅ =>
      ticketsAgree_bind hs₁₅ fun _ s₁₆ hs₁₆ => serverFinishHandshake_agree hs₁₆
  · exact serverFinishHandshake_agree hs₁₃

theorem serverHandleHello_agree (hs : ticketPsks s.trace = []) :
    Session.TicketsAgree (serverHandleHello emitter message properties env s).2 := by
  unfold serverHandleHello
  refine ticketsAgree_bind hs fun tls s₁ hs₁ => ticketsAgree_bind hs₁ fun p s₂ hs₂ => ?_
  refine serverDecideRetry_cases (Q := fun p => Session.TicketsAgree p.2) (fun _ => ?_)
    (fun _ => ?_) fun _ _ _ _ => ?_
  · exact serverAnswerHello_agree hs₂
  · refine .inl ?_
    have hretry {α : Type} {m : Proc α} (hm : Within unsealedEffects m) :
        ticketPsks (m env s₂).2.trace = ticketPsks s₂.trace :=
      Steps.ticketPsks_eq (hm.relates env s₂) (by decide)
    rw [hretry inferInstance, hs₂]
  · exact ticketsAgree_bind hs₂ fun _ s₃ hs₃ => serverAnswerHello_agree hs₃

omit [Crypto] in
/-- Before the end of its flight, a server has sealed no ticket. -/
theorem Session.TicketsAgree.unsealed (hs : s.TicketsAgree) (hstate : ¬ s.tls.state.HasFinished) :
    ticketPsks s.trace = [] :=
  hs.elim id fun h => absurd h.1 hstate

theorem ticketsAgree_isServerInvariant : IsServerInvariant (fun _ => Session.TicketsAgree) env where
  weaken _ := id
  steps live s s' hsteps hs := hs.of_steps hsteps (by decide) (by simp)
  hello properties message s hserver hstate hs := by
    have hunsealed : ticketPsks s.trace = [] := by
      refine hs.unsealed ?_
      rcases hstate with hstate | hstate <;> rw [hstate] <;> decide
    exact ⟨serverHandleHello_agree hunsealed, fun _ => serverHandleHello_agree hunsealed⟩
  resume s hserver hstate hs := by
    have hunsealed : ticketPsks s.trace = [] := hs.unsealed (by rw [hstate]; decide)
    exact ⟨serverFinishHandshake_agree hunsealed, fun _ => serverFinishHandshake_agree hunsealed⟩
  certificate message s hserver hstate hs := by
    have hafter : Session.TicketsAgree (serverHandleCertificate message env s).2 :=
      hs.of_steps (Performs.steps.relates env s) (by decide) (by simp; decide)
    exact ⟨hafter, fun _ => hafter⟩
  certificateVerify message s hserver hstate hs := by
    have hafter : Session.TicketsAgree (serverHandleCertificateVerify message env s).2 :=
      hs.of_steps (Performs.steps.relates env s) (by decide) (by simp; decide)
    exact ⟨hafter, fun _ => hafter⟩
  endOfEarlyData live message s hserver hstate hs :=
    hs.of_steps (Performs.steps.relates env s) (by decide) (by simp; decide)
  finished live message s hserver hstate hs :=
    hs.of_steps (Performs.steps.relates env s) (by decide) (by simp; decide)

/-- In every run of a server, all tickets hold the same key. -/
theorem serverRun_ticketPsks (env : Environment) (ctx : Context) (operations : List Operation) :
    ∃ n psk, ticketPsks (serverRun env ctx operations).trace = List.replicate n psk := by
  have hagree : Session.TicketsAgree (serverRun env ctx operations) :=
    ticketsAgree_isServerInvariant.serverRun_inv (.inl rfl) operations
  rcases hagree with hnone | ⟨-, hsome⟩
  · exact ⟨0, [], hnone⟩
  · exact hsome

/-! ## Distinct keys -/

/-- The keys that a server seals when it ends its flight are pairwise distinct just if it sends one
ticket at most or has no key share, in which case the tickets hold no key. A connection has distinct
keys just if at most one ticket with a key was issued. -/
theorem ticket_psks_distinct_iff :
    (∀ (env : Environment) (emitter : Emitter) (sendCertVerify : Bool) (algos : Option (List ℕ))
        (s t : Session) (progress : Progress),
      serverFinishHandshake emitter sendCertVerify algos env s = (.ok progress, t) →
      ∃ psks, ticketPsks t.trace = ticketPsks s.trace ++ psks ∧
        psks.length = (if s.tls.keyShare.isSome then s.tls.numTicketsToSend else 0) ∧
        (psks.Nodup ↔ s.tls.numTicketsToSend ≤ 1 ∨ s.tls.keyShare = none)) ∧
    ∀ (env : Environment) (ctx : Context) (operations : List Operation),
      (ticketPsks (serverRun env ctx operations).trace).Nodup ↔
        (ticketPsks (serverRun env ctx operations).trace).length ≤ 1 := by
  constructor
  · intro env emitter sendCertVerify algos s t progress h
    obtain ⟨psk, hpsks⟩ := serverFinishHandshake_eq_ok h
    refine ⟨_, hpsks, List.length_replicate, ?_⟩
    rw [List.nodup_replicate]
    cases s.tls.keyShare <;> simp
  · intro env ctx operations
    obtain ⟨n, psk, hpsks⟩ := serverRun_ticketPsks env ctx operations
    rw [hpsks, List.nodup_replicate, List.length_replicate]

namespace Sample

/-- A context for clients that ask for two tickets and servers that send them. -/
def ticketContext : Context := { context with
  ticketLifetime := 10
  encryptTicket := true
  saveTicket := true
  ticketRequestsNewSessionCount := 2 }

/-- A server at the end of its flight, about to send some tickets. -/
def ticketServer (tickets : ℕ) : Session where
  tls := { newInstance ticketContext true .serverExpectClientHello with
    cipherSuite := some (suite 0x1301 0)
    keyShare := some ⟨29, 0⟩
    keySchedule := some { generation := 2, secret := [1, 2], hashes := [{ algo := hash 0 }] }
    numTicketsToSend := tickets }

end Sample

open Sample

omit [Crypto] in
/-- A server that grants the two tickets that a client asks for seals the same key twice. -/
theorem ticket_psks_repeated :
    ¬ (ticketPsks (@serverRun crypto environment ticketContext
      [.handshake none (@clientRun crypto environment ticketContext none
        [.handshake none []]).sendbuf]).trace).Nodup := by
  decide +kernel

omit [Crypto] in
/-- The keys of a server that sends a single ticket. -/
theorem ticket_psks_distinct_single : ∃ progress t,
    @serverFinishHandshake crypto .record false none environment
      (ticketServer 1) = (.ok progress, t) ∧
    ∃ psks, ticketPsks t.trace = psks ∧ psks.length = 1 ∧ psks.Nodup := by
  have hsucceeds : (@serverFinishHandshake crypto .record false none environment
      (ticketServer 1)).1.toBool = true := by
    decide +kernel
  rcases hrun : @serverFinishHandshake crypto .record false none environment
    (ticketServer 1) with ⟨fault | progress, t⟩
  · rw [hrun] at hsucceeds
    cases hsucceeds
  · obtain ⟨psks, hpsks, hlength, hdistinct⟩ :=
      (@ticket_psks_distinct_iff crypto).1 _ _ _ _ _ _ _ hrun
    exact ⟨progress, t, rfl, psks, hpsks, hlength, hdistinct.mpr (.inl le_rfl)⟩

end Picotls
