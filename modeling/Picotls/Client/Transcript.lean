import Picotls.Client.Schedule
import Picotls.Effects.Output
import Picotls.Server.RetryMessage

/-!
# The transcript of a first ClientHello

A client absorbs its hello in two parts if it offers a pre-shared key, because the binder covers the
hello up to the binder itself. The parts make up the hello that is sent, since the binder is written
into room that the hello has at its end.
-/

namespace Picotls

open Foundation Procedure

variable {α β : Type}

variable (p : ClientHelloParams) (psk : OfferedPsk)

variable {isSecondFlight : Bool} {slot : HashSlot} {binderKey cookie sniName : Option Bytes}
  {properties : Option HandshakeProperties} {m : Proc α} {f : α → Proc β} {n : ℕ}

/-! ## What the encoder appends -/

instance (serverName : Bytes) : Respects Extends (emitServerNameExtension serverName) := by
  unfold emitServerNameExtension
  infer_instance

set_option synthInstance.maxSize 256 in
instance : Respects Extends (pushOuterEchExtension p) := by
  unfold pushOuterEchExtension
  infer_instance

instance : Respects Extends (pushInnerEchExtension p) := by
  unfold pushInnerEchExtension
  infer_instance

instance : Respects Extends (pushEchExtension p) := by
  unfold pushEchExtension
  infer_instance

instance (group : ℕ) (pubkey : Bytes) : Respects Extends (pushKeyShareEntry group pubkey) := by
  unfold pushKeyShareEntry
  infer_instance

instance : Respects Extends (pushKeyShareExtension p) := by
  unfold pushKeyShareExtension
  infer_instance

instance : Respects Extends (pushServerNameExtension p) := by
  unfold pushServerNameExtension
  infer_instance

instance : Respects Extends (pushAlpnExtension p) := by
  unfold pushAlpnExtension
  infer_instance

instance (algos : Option (List ℕ)) : Respects Extends (pushSignatureAlgorithms algos) := by
  unfold pushSignatureAlgorithms
  infer_instance

instance (properties : Option HandshakeProperties) :
    Respects Extends (pushAdditionalExtensions properties) := by
  unfold pushAdditionalExtensions
  infer_instance

instance (ctx : Context) : Respects Extends (pushContextExtensions ctx p) := by
  unfold pushContextExtensions
  infer_instance

instance : Respects Extends (pushHiddenPskIdentity psk) := by
  unfold pushHiddenPskIdentity
  infer_instance

instance : Respects Extends (pushPskIdentity p psk) := by
  unfold pushPskIdentity
  infer_instance

/-- A procedure that appends at least so many octets if it succeeds. -/
def GrowsBy (n : ℕ) (m : Proc α) : Prop :=
  ∀ env s a t, m env s = (.ok a, t) → s.sendbuf.length + n ≤ t.sendbuf.length

/-- Appending before that does not matter. -/
theorem GrowsBy.after (hm : Respects Extends m) (hf : ∀ a, GrowsBy n (f a)) :
    GrowsBy n (m >>= f) := by
  intro env s b t h
  obtain ⟨a, s₁, hrun, h⟩ := bind_eq_ok.mp h
  have hs₁ : Extends s s₁ := Respects.run hrun
  have hlength := hs₁.1.length_le
  have hrest := hf a env s₁ b t h
  omega

/-- Appending after that does not matter. -/
theorem GrowsBy.before (hm : GrowsBy n m) (hf : ∀ a, Respects Extends (f a)) :
    GrowsBy n (m >>= f) := by
  intro env s b t h
  obtain ⟨a, s₁, hrun, h⟩ := bind_eq_ok.mp h
  have hfirst := hm env s a s₁ hrun
  have hs₁ : Extends s₁ t := (hf a).run h
  have hlength := hs₁.1.length_le
  omega

/-- A block has its length before it. -/
theorem GrowsBy.block {block : Proc α} (capacity : ℕ) (hblock : GrowsBy n block) :
    GrowsBy (capacity + n) (bufferPushBlock capacity block) := by
  intro env s a t h
  obtain ⟨tick, t₁, hrun, -, rfl⟩ := bufferPushBlock_eq_ok h
  have hbody := hblock env _ a t₁ hrun
  rw [Session.appended, List.length_append, zeros_length] at hbody
  have hroom : s.sendbuf.length + (toBE capacity (t₁.sendbuf.length -
      (s.sendbuf.length + capacity))).length ≤ t₁.sendbuf.length := by
    rw [toBE_length]
    omega
  rw [overwrite_length hroom]
  omega

/-- A hello that offers a pre-shared key ends with the room for a binder. -/
theorem pushPskExtension_grows (p : ClientHelloParams) (psk : OfferedPsk) :
    GrowsBy (3 + p.pskBinderSize) (pushPskExtension p psk) := by
  have hbinder : GrowsBy p.pskBinderSize (do
      allocate
      let binder ← randomBytes p.pskBinderSize
      appendReserved binder : Proc Unit) := by
    refine GrowsBy.after inferInstance fun _ => ?_
    intro env s a t h
    rw [randomBytes_bind] at h
    cases h
    change _ ≤ (s.sendbuf ++ env.randomBytes s.draws p.pskBinderSize).length
    rw [List.length_append, env.randomBytes_length]
  have hblocks : GrowsBy (3 + p.pskBinderSize) (bufferPushBlock 2 (bufferPushBlock 1 (do
      allocate
      let binder ← randomBytes p.pskBinderSize
      appendReserved binder : Proc Unit))) := by
    have hblock := (hbinder.block 1).block 2
    rwa [← Nat.add_assoc] at hblock
  have hbody : GrowsBy (3 + p.pskBinderSize) (do
      bufferPushBlock 2 (pushPskIdentity p psk)
      bufferPushBlock 2 (bufferPushBlock 1 do
        allocate
        let binder ← randomBytes p.pskBinderSize
        appendReserved binder) : Proc Unit) :=
    GrowsBy.after inferInstance fun _ => hblocks
  rw [pushPskExtension]
  refine GrowsBy.after inferInstance fun _ => ?_
  rw [bufferPushExtension]
  refine GrowsBy.after inferInstance fun _ => ?_
  intro env s a t h
  have hblock := hbody.block 2 env s a t h
  omega

/-- An encoded hello that offers a pre-shared key ends with the room for a binder. -/
theorem encodeClientHello_grows (ctx : Context) (p : ClientHelloParams)
    (hpsk : p.psk.isSome = true) : GrowsBy (3 + p.pskBinderSize) (encodeClientHello ctx p) := by
  obtain ⟨psk, hpsk⟩ := Option.isSome_iff_exists.mp hpsk
  have hextensions : GrowsBy (3 + p.pskBinderSize) (pushClientHelloExtensions ctx p) := by
    rw [pushClientHelloExtensions, hpsk]
    refine GrowsBy.after inferInstance fun _ => GrowsBy.after inferInstance fun _ =>
      GrowsBy.after inferInstance fun _ => GrowsBy.after inferInstance fun _ =>
      GrowsBy.after inferInstance fun _ => GrowsBy.before (pushPskExtension_grows p psk) ?_
    intro _
    infer_instance
  have hblock : GrowsBy (3 + p.pskBinderSize)
      (bufferPushBlock 2 (pushClientHelloExtensions ctx p)) := by
    intro env s a t h
    have hblock := hextensions.block 2 env s a t h
    omega
  have hbody : GrowsBy (3 + p.pskBinderSize) (do
      bufferPushUInt 2 0x0303
      bufferPushv p.clientRandom
      bufferPushBlock 1 (if p.mode = .encodedInner then pure () else bufferPushv p.legacySessionId)
      bufferPushBlock 2 (Procedure.forEach (fun (cs : CipherSuite) => bufferPushUInt 2 cs.id)
        ctx.cipherSuites)
      bufferPushBlock 1 (bufferPushv [0])
      bufferPushBlock 2 (pushClientHelloExtensions ctx p) : Proc ℕ) :=
    GrowsBy.after inferInstance fun _ => GrowsBy.after inferInstance fun _ =>
      GrowsBy.after inferInstance fun _ => GrowsBy.after inferInstance fun _ =>
      GrowsBy.after inferInstance fun _ => hblock
  rw [encodeClientHello, bufferPushMessage]
  refine GrowsBy.after inferInstance fun _ => ?_
  intro env s a t h
  have hblock := hbody.block 3 env s a t h
  omega

/-! ## Transcripts -/

/-- Every transcript of the key schedule has the given octets, and there is none of an outer
hello. -/
def Session.Absorbed (octets : Bytes) (s : Session) : Prop :=
  ∀ sched, s.tls.keySchedule = some sched → ∀ slot ∈ sched.hashes,
    slot.ctx = octets ∧ slot.ctxOuter = none

section Absorbed

variable {env : Environment} {s t : Session} {octets message : Bytes}

/-- Effects other than those on the transcript leave it alone. -/
theorem Steps.absorbed {E : List Effect} (h : Via E s t) (hE : .schedule ∉ E)
    (hE' : .transcript ∉ E) (hs : s.Absorbed octets) : t.Absorbed octets := by
  refine h.preserves (P := fun u => u.Absorbed octets) (fun e he u v hstep hu => ?_) hs
  cases hstep with
  | schedule => exact absurd he hE
  | transcript => exact absurd he hE'
  | advance _ sched secret hsched =>
    intro sched' hsched'
    cases hsched'
    exact hu sched hsched
  | _ => exact hu

/-- Absorbing a message appends it to every transcript. -/
theorem keyScheduleUpdateHash_absorbed
    (h : keyScheduleUpdateHash message false env s = (.ok (), t)) (hs : s.Absorbed octets) :
    t.Absorbed (octets ++ message) := by
  obtain ⟨sched, s₁, hget, -⟩ := bind_eq_ok.mp h
  obtain ⟨hsched, -⟩ := getKeySchedule_eq_ok.mp hget
  rw [keyScheduleUpdateHash_run message hsched] at h
  cases h
  intro sched' hsched'
  rw [Tls.absorb, hsched] at hsched'
  cases hsched'
  intro slot hslot
  obtain ⟨slot', hslot', rfl⟩ := List.mem_map.mp hslot
  obtain ⟨hctx, houter⟩ := hs sched hsched slot' hslot'
  exact ⟨congrArg (· ++ message) hctx, houter⟩

/-- Absorbing a message keeps the hash in use. -/
theorem firstHash_absorb (h : firstHash env s = (.ok slot, s)) (message : Bytes) :
    firstHash env { s with tls := s.tls.absorb message } =
      (.ok (slot.absorb message false), { s with tls := s.tls.absorb message }) := by
  obtain ⟨sched, hsched, hslot, -⟩ := firstHash_eq_ok.mp h
  refine firstHash_eq_ok.mpr
    ⟨{ sched with hashes := sched.hashes.map (HashSlot.absorb message false) }, ?_, ?_, rfl⟩
  · rw [Tls.absorb, hsched]
    rfl
  · rw [List.head?_map, hslot]
    rfl

variable [Crypto]

/-- A verification tag is a digest of the hash in use. -/
theorem calcVerifyData_length {secret tag : Bytes} (hfirst : firstHash env s = (.ok slot, s))
    (h : calcVerifyData secret env s = (.ok tag, t)) : tag.length = slot.algo.digestSize := by
  rw [calcVerifyData, bind_of_ok hfirst] at h
  obtain ⟨key, s₁, -, h⟩ := bind_eq_ok.mp h
  obtain ⟨_, s₂, -, h⟩ := bind_eq_ok.mp h
  cases h
  exact hmac_length _ _ _

/-- A hello with room for its binder is absorbed as a whole, the binder included. -/
theorem updateChHashAndBinder_absorbed {chStart : ℕ}
    (h : updateChHashAndBinder chStart binderKey env s = (.ok (), t))
    (hroom : binderKey.isSome = true → ∀ slot, firstHash env s = (.ok slot, s) →
      chStart + (3 + slot.algo.digestSize) ≤ s.sendbuf.length)
    (hs : s.Absorbed octets) : t.Absorbed (octets ++ t.sendbuf.drop chStart) := by
  rw [updateChHashAndBinder, getSendbuf, observe_bind] at h
  cases binderKey with
  | none =>
    dsimp only at h
    have hsame : SameOutput s t := Respects.run h
    rw [hsame.1]
    exact keyScheduleUpdateHash_absorbed h hs
  | some key =>
    obtain ⟨slot, s₁, hfirst, h⟩ := bind_eq_ok.mp h
    obtain ⟨sched, hsched, hslot, rfl⟩ := firstHash_eq_ok.mp hfirst
    have hsize := hroom rfl slot hfirst
    obtain ⟨_, s₂, habsorb, h⟩ := bind_eq_ok.mp h
    obtain ⟨binder, s₃, htag, h⟩ := bind_eq_ok.mp h
    obtain ⟨_, s₄, hwrite, h⟩ := bind_eq_ok.mp h
    rw [observe_bind] at h
    set off := s₁.sendbuf.length - (3 + slot.algo.digestSize) with hoff
    have hbuf : s₃.sendbuf = s₁.sendbuf := by
      have hs₂ : SameOutput s₁ s₂ := Respects.run habsorb
      have hs₃ : SameOutput s₂ s₃ := Respects.run htag
      exact hs₃.1.trans hs₂.1
    have hlength : binder.length = slot.algo.digestSize := by
      rw [keyScheduleUpdateHash_run _ hsched] at habsorb
      cases habsorb
      have htagged := calcVerifyData_length (firstHash_absorb hfirst _) htag
      exact htagged
    have hs₃ : s₃.Absorbed (octets ++ (s₁.sendbuf.take off).drop chStart) := by
      have hsteps : Via [.io, .note .derive, .note .finishedMac] s₂ s₃ :=
        Within.steps inferInstance htag
      exact Steps.absorbed hsteps (by decide) (by decide)
        (keyScheduleUpdateHash_absorbed habsorb hs)
    have hs₄ : s₄.Absorbed (octets ++ (s₁.sendbuf.take off).drop chStart) := by
      cases hwrite
      exact hs₃
    have hwritten : s₄.sendbuf = overwrite s₁.sendbuf (off + 3) binder := by
      cases hwrite
      rw [← hbuf]
    have hsame : SameOutput s₄ t := Respects.run h
    have hfull := keyScheduleUpdateHash_absorbed h hs₄
    -- the two parts that were absorbed make up the hello with its binder
    have hparts : (s₁.sendbuf.take off).drop chStart ++ s₄.sendbuf.drop off =
        s₄.sendbuf.drop chStart := by
      have htake : s₄.sendbuf.take off = s₁.sendbuf.take off := by
        rw [hwritten]
        exact overwrite_take (by omega) (by omega)
      have hstart : chStart ≤ (s₄.sendbuf.take off).length := by
        rw [htake, List.length_take]
        omega
      rw [← htake, ← List.drop_append_of_le_length hstart, List.take_append_drop]
    rw [List.append_assoc, hparts] at hfull
    rw [hsame.1]
    exact hfull

/-- A schedule that is started without ECH has absorbed nothing. -/
theorem startKeySchedule_absorbed {psk : Option OfferedPsk}
    (h : startKeySchedule psk env s = (.ok (), t)) (hech : s.tls.ech.aead = none) :
    t.Absorbed [] := by
  rw [startKeySchedule, getTls_bind] at h
  obtain ⟨sched, s₁, hnew, h⟩ := bind_eq_ok.mp h
  rw [keyScheduleNew] at hnew
  obtain ⟨_, s₂, -, hnew⟩ := bind_eq_ok.mp hnew
  cases hnew
  rw [setKeySchedule, modifyTls_bind, emitEvent_bind] at h
  have hsteps : Via [.io, .advance, .note .derive] _ t :=
    Within.steps inferInstance h
  refine Steps.absorbed hsteps (by decide) (by decide) ?_
  rintro sched ⟨⟩ slot hslot
  obtain ⟨algo, -, rfl⟩ := List.mem_map.mp hslot
  rw [hech]
  exact ⟨rfl, rfl⟩

instance (psk : Option OfferedPsk) : Respects SameOutput (deriveBinderKey psk) := by
  cases psk <;> (unfold deriveBinderKey; infer_instance)

/-- A client without ECH has absorbed the hello that it has written. -/
theorem buildClientHello_absorbed {psk : Option OfferedPsk}
    (h : buildClientHello properties isSecondFlight sniName psk cookie env s = (.ok (), t))
    (hech : s.tls.ech.aead = none) (hs : s.Absorbed octets) :
    t.Absorbed (octets ++ t.sendbuf.drop s.sendbuf.length) ∧ t.tls.ech = s.tls.ech := by
  rw [buildClientHello, sendbufOff, observe_bind, getTls_bind] at h
  obtain ⟨slot, s₁, hfirst, h⟩ := bind_eq_ok.mp h
  obtain ⟨sched, hsched, hslot, rfl⟩ := firstHash_eq_ok.mp hfirst
  dsimp only at h
  obtain ⟨off, s₂, hencode, h⟩ := bind_eq_ok.mp h
  obtain ⟨binderKey, s₃, hkey, h⟩ := bind_eq_ok.mp h
  obtain ⟨_, s₄, hupdate, h⟩ := bind_eq_ok.mp h
  rw [hech, getSendbuf, observe_bind] at h
  cases h
  have hs₂ : Via [.io, .draw] s₁ s₂ := Within.steps inferInstance hencode
  have hs₃ : Via [.io, .note .derive] s₂ s₃ := Within.steps inferInstance hkey
  have htls : s₃.tls = s₁.tls :=
    (tls_eq_of_run hkey (by decide)).trans (tls_eq_of_run hencode (by decide))
  have hoffered : binderKey.isSome = true → psk.isSome = true := by
    cases psk with
    | none =>
      cases hkey
      exact id
    | some psk => exact fun _ => rfl
  have hroom (hsome : binderKey.isSome = true) (slot' : HashSlot)
      (hfirst' : firstHash env s₃ = (.ok slot', s₃)) :
      s₁.sendbuf.length + (3 + slot'.algo.digestSize) ≤ s₃.sendbuf.length := by
    obtain ⟨sched', hsched', hslot', -⟩ := firstHash_eq_ok.mp hfirst'
    rw [htls, hsched] at hsched'
    cases hsched'
    cases hslot.symm.trans hslot'
    have hgrows := encodeClientHello_grows _ _ (hoffered hsome) env s₁ off s₂ hencode
    have hsame : SameOutput s₂ s₃ := Respects.run hkey
    rw [hsame.1]
    exact hgrows
  have hs₄ : s₄.Absorbed (octets ++ s₄.sendbuf.drop s₁.sendbuf.length) :=
    updateChHashAndBinder_absorbed hupdate hroom <| Steps.absorbed hs₃ (by decide) (by decide) <|
      Steps.absorbed hs₂ (by decide) (by decide) hs
  have hupdated : Via [.io, .transcript, .note .derive, .note .finishedMac] s₃ s₄ :=
    Within.steps inferInstance hupdate
  have hech₄ : s₄.tls.ech = s₁.tls.ech := by
    rw [Steps.ech_eq hupdated (by decide), htls]
  exact ⟨hs₄, hech₄⟩

/-- A client that wraps its first hello has an offer of ECH, be it a real one or not. -/
theorem wrapInOuterHello_ech {messStart : ℕ} {p : ClientHelloParams} {aead : AeadContext}
    {outerRandom : Bytes} (hfirst : p.isSecondFlight = false)
    (h : wrapInOuterHello messStart p aead outerRandom binderKey env s = (.ok (), t)) :
    t.tls.ech.state ≠ .none := by
  rw [wrapInOuterHello, getTls_bind] at h
  obtain ⟨encoded, s₁, -, h⟩ := bind_eq_ok.mp h
  obtain ⟨_, s₂, -, h⟩ := bind_eq_ok.mp h
  obtain ⟨payloadOff, s₃, -, h⟩ := bind_eq_ok.mp h
  rw [getSendbuf, observe_bind] at h
  obtain ⟨_, s₄, -, h⟩ := bind_eq_ok.mp h
  rw [hfirst] at h
  obtain ⟨_, s₅, hkeep, h⟩ := bind_eq_ok.mp h
  have hs₅ : s₅.tls.ech.state ≠ .none := by
    rw [Bool.not_false, runIf, if_pos rfl, keepFirstEch] at hkeep
    obtain ⟨_, s₆, -, hkeep⟩ := bind_eq_ok.mp hkeep
    rw [getSendbuf, observe_bind] at hkeep
    cases hkeep
    dsimp only
    split_ifs <;> exact nofun
  rw [getTls_bind] at h
  split_ifs at h with hgrease
  · obtain ⟨_, s₆, hadopt, h⟩ := bind_eq_ok.mp h
    obtain ⟨_, s₇, hmodify, h⟩ := bind_eq_ok.mp h
    have hs₆ : s₆.tls.ech = s₅.tls.ech :=
      Steps.ech_eq (Within.steps (E := [.transcript]) inferInstance hadopt) (by decide)
    have ht : Via [.io, .transcript, .note .derive, .note .finishedMac] s₇ t :=
      Within.steps inferInstance h
    rw [Steps.ech_eq ht (by decide)]
    cases hmodify
    rw [← hs₆] at hs₅
    exact hs₅
  · rw [observe_bind] at h
    have ht : Via [.transcript] s₅ t := Within.steps inferInstance h
    rw [Steps.ech_eq ht (by decide)]
    exact hs₅

/-- A first hello without ECH is written without a key for it. -/
theorem buildClientHello_ech {psk : Option OfferedPsk}
    (h : buildClientHello properties false sniName psk cookie env s = (.ok (), t))
    (hech : t.tls.ech.state = .none) : s.tls.ech.aead = none := by
  rw [buildClientHello, sendbufOff, observe_bind, getTls_bind] at h
  obtain ⟨slot, s₁, -, h⟩ := bind_eq_ok.mp h
  dsimp only at h
  obtain ⟨off, s₂, -, h⟩ := bind_eq_ok.mp h
  obtain ⟨binderKey, s₃, -, h⟩ := bind_eq_ok.mp h
  obtain ⟨_, s₄, -, h⟩ := bind_eq_ok.mp h
  rw [getSendbuf, observe_bind] at h
  obtain ⟨_, s₅, hwrap, h⟩ := bind_eq_ok.mp h
  cases haead : s.tls.ech.aead with
  | none => rfl
  | some aead =>
    rw [haead] at hwrap
    have hoffer : s₅.tls.ech.state ≠ .none := by
      dsimp only [whenSome] at hwrap
      refine wrapInOuterHello_ech ?_ hwrap
      rfl
    cases h
    exact absurd hech hoffer

/-- A client that writes its first hello without ECH has absorbed that hello. -/
theorem composeClientHello_absorbed {emitter : Emitter} {psk : Option OfferedPsk}
    (h : composeClientHello emitter properties cookie env s =
      (.ok (isSecondFlight, psk, message), t))
    (hnone : s.tls.keySchedule = none) (hech : t.tls.ech.state = .none) :
    t.Absorbed message ∧ t.tls.ech.aead = none := by
  rw [composeClientHello, getTls_bind, hnone] at h
  dsimp only [Option.isSome_none, Bool.not_false] at h
  obtain ⟨_, s₁, -, h⟩ := bind_eq_ok.mp h
  obtain ⟨psk', s₂, -, h⟩ := bind_eq_ok.mp h
  obtain ⟨_, s₃, -, h⟩ := bind_eq_ok.mp h
  obtain ⟨_, s₄, -, h⟩ := bind_eq_ok.mp h
  obtain ⟨_, s₅, hstart, h⟩ := bind_eq_ok.mp h
  obtain ⟨start, s₆, hbegin, h⟩ := bind_eq_ok.mp h
  rw [sendbufOff, observe_bind] at h
  obtain ⟨_, s₇, hbuild, h⟩ := bind_eq_ok.mp h
  rw [getSendbuf, observe_bind] at h
  obtain ⟨_, s₈, hcommit, h⟩ := bind_eq_ok.mp h
  cases h
  have hs₅ : Via [.io, .advance, .schedule, .note .derive, .note .startSchedule]
      s₄ s₅ := Within.steps inferInstance hstart
  have hs₆ : Via [.io] s₅ s₆ := Within.steps inferInstance hbegin
  have ht : Via [.io, .encrypt] s₇ t := Within.steps inferInstance hcommit
  rw [Steps.ech_eq ht (by decide)] at hech
  have haead₆ : s₆.tls.ech.aead = none := buildClientHello_ech hbuild hech
  have haead₄ : s₄.tls.ech.aead = none := by
    rw [← Steps.ech_eq hs₅ (by decide), ← Steps.ech_eq hs₆ (by decide)]
    exact haead₆
  have habsorbed : s₆.Absorbed [] :=
    Steps.absorbed hs₆ (by decide) (by decide) (startKeySchedule_absorbed hstart haead₄)
  obtain ⟨hbuilt, hech₇⟩ := buildClientHello_absorbed hbuild haead₆ habsorbed
  refine ⟨Steps.absorbed ht (by decide) (by decide) hbuilt, ?_⟩
  rw [Steps.ech_eq ht (by decide), hech₇]
  exact haead₆

/-! ## A HelloRetryRequest -/

/-- The handling of a HelloRetryRequest up to its answer. -/
def clientTakeRetry (message : Bytes) : Proc ServerHello := do
  emitEvent (.hello message)
  let sh ← clientReadHello message
  clientAbsorbRetry message sh
  return sh

/-- A client that handles a HelloRetryRequest takes it, and answers it from there. -/
theorem clientHandleHello_retry (emitter : Emitter) (properties : Option HandshakeProperties)
    {sh : ServerHello} (hretry : helloIsRetry message = true)
    (h : clientTakeRetry message env s = (.ok sh, t)) :
    clientHandleHello emitter message properties env s =
      handleHelloRetryRequest emitter sh properties env t := by
  rw [clientTakeRetry, emitEvent_bind] at h
  obtain ⟨sh', s₁, hread, h⟩ := bind_eq_ok.mp h
  obtain ⟨_, s₂, habsorb, h⟩ := bind_eq_ok.mp h
  cases h
  have hflag : sh.isRetryRequest = true := (clientReadHello_eq_ok hread).1.trans hretry
  rw [clientHandleHello, emitEvent_bind, bind_of_ok hread, if_pos hflag, clientHandleRetry,
    bind_of_ok habsorb]

/-- The early secret of a client after a HelloRetryRequest. -/
theorem keyScheduleSelectCipher_retry {suite : CipherSuite} {ikm : Option Bytes}
    (h : keyScheduleSelectCipher suite false ikm env s = (.ok (), t)) (hs : s.Absorbed octets) :
    t.algos = some [suite.hash] ∧ t.Absorbed octets ∧ t.tls = { s.tls with
      keySchedule := t.tls.keySchedule } ∧
    (s.algos.bind List.head? = some suite.hash ∧ t.secret = s.secret ∨
      t.secret = some (1, earlySecret suite.hash (ikm.getD (zeros suite.hash.digestSize)))) := by
  have halgos := keyScheduleSelectCipher_algos h
  obtain ⟨sched, slot, hsched, hgeneration, hfound, hslot⟩ := exists_found_of_ok h
  have hmem : slot ∈ sched.hashes := by
    have hfilter : slot ∈ sched.hashes.filter (·.algo = suite.hash) := by
      rw [hfound]
      exact List.mem_singleton_self slot
    exact (List.mem_filter.mp hfilter).1
  have hselecting (keySchedule : KeySchedule) (hhashes : keySchedule.hashes = [slot]) :
      (s.selecting sched suite keySchedule).Absorbed octets := by
    rintro sched' ⟨⟩ slot' hslot'
    rw [hhashes] at hslot'
    rw [List.mem_singleton.mp hslot']
    exact hs sched hsched slot hmem
  rw [keyScheduleSelectCipher_of_found hsched hgeneration hfound] at h
  by_cases hfirst : sched.hashes.head?.map HashSlot.algo = some suite.hash
  · rw [if_neg (by simp [hfirst])] at h
    cases h
    refine ⟨halgos, hselecting _ rfl, rfl, .inl ⟨?_, ?_⟩⟩
    · rw [Session.algos, hsched, Option.map_some, Option.bind_some, List.head?_map]
      exact hfirst
    · rw [Session.secret, Session.secret, hsched]
      rfl
  · rw [if_pos (.inr hfirst)] at h
    have hsteps : Via [.io, .advance, .note .derive] _ t :=
      Within.steps inferInstance h
    obtain ⟨sched', slot', hsched', hslot', htls⟩ := keyScheduleExtract_eq_ok h
    cases hsched'
    cases hslot'
    refine ⟨halgos, Steps.absorbed hsteps (by decide) (by decide) (hselecting _ rfl), ?_, .inr ?_⟩
    · rw [htls]
      rfl
    · have hsecret : (KeySchedule.extract { hashes := [slot] } slot.algo ikm).secret =
          earlySecret slot.algo (ikm.getD (zeros slot.algo.digestSize)) :=
        extract_secret_of_new slot.algo ikm rfl rfl
      rw [Session.secret, htls, ← hslot, ← hsecret]
      rfl

/-- The transcript in use gives way to the message that stands for its hash. -/
theorem keyScheduleTransformPostCh1hash_run {sched : KeySchedule}
    (hsched : s.tls.keySchedule = some sched) (hslot : sched.hashes = [slot]) :
    keyScheduleTransformPostCh1hash env s = (.ok (), { s with
      tls := { s.tls with keySchedule := some { sched with hashes := [{ slot with
        ctx := ch1hashMessage slot.algo slot.ctx
        ctxOuter := slot.ctxOuter.map (ch1hashMessage slot.algo) }] } } }) := by
  have hfirst : firstHash env s = (.ok slot, s) :=
    firstHash_eq_ok.mpr ⟨sched, hsched, by rw [hslot]; rfl, rfl⟩
  have hget : getKeySchedule env s = (.ok sched, s) := getKeySchedule_eq_ok.mpr ⟨hsched, rfl⟩
  rw [keyScheduleTransformPostCh1hash, bind_of_ok hfirst, modifyFirstHash, bind_of_ok hget, hslot]
  rfl

/-- Putting the hash of a hello in its place. -/
theorem keyScheduleTransformPostCh1hash_absorbed {algo : HashAlgorithm}
    (h : keyScheduleTransformPostCh1hash env s = (.ok (), t)) (halgos : s.algos = some [algo])
    (hs : s.Absorbed octets) : t.Absorbed (ch1hashMessage algo octets) := by
  obtain ⟨sched, hsched, hhashes⟩ := Option.map_eq_some_iff.mp halgos
  obtain ⟨slot, hslot, rfl⟩ := List.map_eq_singleton_iff.mp hhashes
  obtain ⟨hctx, houter⟩ := hs sched hsched slot (by rw [hslot]; exact List.mem_singleton_self slot)
  rw [keyScheduleTransformPostCh1hash_run hsched hslot] at h
  cases h
  rintro sched' ⟨⟩ slot' hslot'
  rw [List.mem_singleton.mp hslot', hctx, houter]
  exact ⟨rfl, rfl⟩

omit [Crypto] in
/-- Absorbing a message of the peer appends it to every transcript. -/
theorem absorbMessage_absorbed (h : absorbMessage message env s = (.ok (), t))
    (hs : s.Absorbed octets) : t.Absorbed (octets ++ message) := by
  obtain ⟨_, s₁, hupdate, hevent⟩ := bind_eq_ok.mp h
  have hs₁ := keyScheduleUpdateHash_absorbed hupdate hs
  cases hevent
  exact hs₁

/-- What a client has after it has read a HelloRetryRequest without ECH. -/
theorem clientTakeRetry_eq_ok {sh : ServerHello} {hello : Bytes}
    (h : clientTakeRetry message env s = (.ok sh, t)) (hech : s.tls.ech.aead = none)
    (hs : s.Absorbed hello) :
    ∃ suite, helloSuite s.tls.ctx message = some suite ∧ t.algos = some [suite.hash] ∧
      t.Absorbed (ch1hashMessage suite.hash hello ++ message) ∧
      (s.algos.bind List.head? = some suite.hash ∧ t.secret = s.secret ∨
        t.secret = some (1, earlySecret suite.hash
          ((s.tls.ctx.preSharedKey.map PreSharedKey.secret).getD
            (zeros suite.hash.digestSize)))) := by
  rw [clientTakeRetry, emitEvent_bind] at h
  obtain ⟨sh', s₁, hread, hrun⟩ := bind_eq_ok.mp h
  obtain ⟨_, t', hrun, hreturn⟩ := bind_eq_ok.mp hrun
  cases hreturn
  obtain ⟨-, -, -, suite, psk, hsuite, htls₁, -⟩ := clientReadHello_eq_ok hread
  have hcipher : s₁.tls.cipherSuite = some suite := by rw [htls₁]
  have haead : s₁.tls.ech.aead = none := by
    rw [htls₁]
    exact hech
  rw [clientAbsorbRetry, getTls_bind, hcipher, deref_some_bind] at hrun
  obtain ⟨_, s₃, hselect, hrun⟩ := bind_eq_ok.mp hrun
  obtain ⟨_, s₄, htransform, hrun⟩ := bind_eq_ok.mp hrun
  rw [haead] at hrun
  obtain ⟨_, s₅, hnone, hrun⟩ := bind_eq_ok.mp hrun
  cases hnone
  have hs₁ : s₁.Absorbed hello := by
    intro sched hsched
    rw [htls₁] at hsched
    exact hs sched hsched
  have halgos₁ : s₁.algos = s.algos := by
    rw [Session.algos, htls₁]
    rfl
  have hsecret₁ : s₁.secret = s.secret := by
    rw [Session.secret, htls₁]
    rfl
  obtain ⟨halgos, habsorbed, -, hsecret⟩ := keyScheduleSelectCipher_retry hselect hs₁
  rw [halgos₁, hsecret₁, htls₁] at hsecret
  have hs₄ : Via [.transcript] s₃ s₄ := Within.steps inferInstance htransform
  have ht : Via [.transcript, .note .absorb] s₄ t :=
    Within.steps inferInstance hrun
  have hhashed := keyScheduleTransformPostCh1hash_absorbed htransform halgos habsorbed
  refine ⟨suite, hsuite, ?_, absorbMessage_absorbed hrun hhashed, ?_⟩
  · rw [Steps.algos_eq ht (by decide), Steps.algos_eq hs₄ (by decide)]
    exact halgos
  · rw [Steps.secret_eq ht (by decide) (by decide), Steps.secret_eq hs₄ (by decide) (by decide)]
    exact hsecret

end Absorbed

/-! ## Reading back a HelloRetryRequest -/

/-- A HelloRetryRequest is read as one, with the suite that was written. -/
theorem helloRetryRequest_read {sessionId : Bytes} {suite version : ℕ} {group : Option ℕ}
    {additional : Bytes} (hsession : sessionId.length < 256) (hsuite : suite < 256 ^ 2) :
    helloIsRetry (helloRetryRequest sessionId suite version group additional) = true ∧
      helloCipherSuiteId (helloRetryRequest sessionId suite version group additional) = suite := by
  have hbody : (helloRetryRequest sessionId suite version group additional).drop
      handshakeHeaderSize = helloRetryBody sessionId suite version group additional := by
    rw [helloRetryRequest, encodeMessage, encodeBlock, ← List.append_assoc]
    exact List.drop_left' rfl
  have hversion : (helloRetryBody sessionId suite version group additional).drop 2 =
      helloRetryRandom ++ (encodeBlock 1 sessionId ++ (toBE 2 suite ++ ([0] ++
        encodeBlock 2 (helloRetryExtensions version group additional)))) :=
    List.drop_left' rfl
  constructor
  · rw [helloIsRetry, helloRandom, hbody, hversion]
    exact decide_eq_true (List.take_left' rfl)
  · have hsessionAt : helloSession (helloRetryRequest sessionId suite version group additional) =
        encodeBlock 1 sessionId ++ (toBE 2 suite ++ ([0] ++
          encodeBlock 2 (helloRetryExtensions version group additional))) := by
      rw [helloSession, hbody, hversion]
      exact List.drop_left' rfl
    have hlength : ofBE (toBE 1 sessionId.length) = sessionId.length := ofBE_toBE (by omega)
    have htail : helloTail (helloRetryRequest sessionId suite version group additional) =
        toBE 2 suite ++ ([0] ++ encodeBlock 2 (helloRetryExtensions version group additional)) := by
      rw [helloTail, hsessionAt, encodeBlock, List.append_assoc,
        List.take_left' (toBE_length _ _), List.drop_left' (toBE_length _ _), hlength]
      exact List.drop_left' rfl
    rw [helloCipherSuiteId, htail, List.take_left' (toBE_length _ _)]
    exact ofBE_toBE hsuite

end Picotls
