import Picotls.Effects.Primitives
import Picotls.KeySchedule

/-!
# Effects of the key schedule

Absorbing messages changes only the transcripts of the schedule. Installing a sending key is a
single step: the key is derived from the current secret, which the history records.
-/

namespace Picotls

open Foundation Procedure

variable (skipNotify useOuter : Bool) (msg secret : Bytes) (algo : HashAlgorithm) (label : Label)
    (labelPrefix : Option Bytes) (secretLabel : Option Label) (epoch seq : ℕ)

variable {slot : HashSlot} {sched : KeySchedule}

/-! ## The schedule and its transcripts -/

instance : Does [] getKeySchedule := ⟨by unfold getKeySchedule; infer_instance⟩

instance : Does [] firstHash := ⟨by unfold firstHash; infer_instance⟩

instance : Does [.schedule] (setKeySchedule sched) :=
  Does.update fun _ s => .schedule s (some sched)

instance : Does [.io] (keyScheduleNew preferred offered useOuter) :=
  ⟨by unfold keyScheduleNew; infer_instance⟩

@[simp] theorem getKeySchedule_eq_ok {env : Environment} {s s' : Session} :
    getKeySchedule env s = (.ok sched, s') ↔ s.tls.keySchedule = some sched ∧ s' = s := by
  simp [getKeySchedule, getTls_bind]

@[simp] theorem firstHash_eq_ok {env : Environment} {s s' : Session} :
    firstHash env s = (.ok slot, s') ↔
      ∃ sched, s.tls.keySchedule = some sched ∧ sched.hashes.head? = some slot ∧ s' = s := by
  simp [firstHash, bind_eq_ok, and_assoc]

theorem firstHash_error {env : Environment} {s t : Session} {fault : Fault}
    (h : firstHash env s = (.error fault, t)) :
    fault = .undefined ∧ t = s := by
  rw [firstHash, getKeySchedule, bind_run, getTls_bind] at h
  rcases hsched : s.tls.keySchedule with _ | sched <;> rw [hsched] at h
  · cases h
    exact ⟨rfl, rfl⟩
  · rw [deref, pure_run] at h
    dsimp only at h
    rcases hslot : sched.hashes.head? with _ | slot <;> rw [hslot] at h <;> cases h
    exact ⟨rfl, rfl⟩

/-- Replacing the transcripts of the schedule's slots is one step. -/
theorem Does.setHashes {f : List HashSlot → List HashSlot}
    (hf : ∀ hashes, (f hashes).map HashSlot.algo = hashes.map HashSlot.algo) :
    Does [.transcript] (do
      let sched ← getKeySchedule
      setKeySchedule { sched with hashes := f sched.hashes }) := by
  refine ⟨⟨fun env s => ?_⟩⟩
  cases hsched : s.tls.keySchedule with
  | none =>
    have hget : getKeySchedule env s = (.error .undefined, s) := by
      simp [getKeySchedule, getTls, hsched, deref, bind_run]
    rw [bind_of_error hget]
    exact refl_of _ s
  | some sched =>
    have hget : getKeySchedule env s = (.ok sched, s) := getKeySchedule_eq_ok.mpr ⟨hsched, rfl⟩
    rw [bind_of_ok hget]
    exact .single ⟨_, List.mem_cons_self, .transcript s sched _ hsched (hf _)⟩

theorem mapHashes_does {f : HashSlot → HashSlot} (hf : ∀ slot, (f slot).algo = slot.algo) :
    Does [.transcript] (mapHashes f) :=
  Does.setHashes (f := List.map f) fun hashes => by simp [Function.comp_def, hf]

theorem modifyFirstHash_does {f : HashSlot → HashSlot} (hf : ∀ slot, (f slot).algo = slot.algo) :
    Does [.transcript] (modifyFirstHash f) :=
  Does.setHashes (f := List.modifyHead f) fun hashes => by cases hashes <;> simp [hf]

instance : Does [.transcript] (mapHashes HashSlot.adoptOuter) := mapHashes_does fun _ => rfl

instance : Does [.transcript] (mapHashes (HashSlot.absorb msg useOuter)) :=
  mapHashes_does fun slot => by unfold HashSlot.absorb; split <;> rfl

instance : Does [.transcript] (modifyFirstHash HashSlot.adoptOuter) :=
  modifyFirstHash_does fun _ => rfl

instance (f : HashSlot → Bytes) (g : HashSlot → Option Bytes) :
    Does [.transcript] (modifyFirstHash fun slot =>
      { slot with ctx := f slot, ctxOuter := g slot }) :=
  modifyFirstHash_does fun _ => rfl

instance : Does [.transcript] keyScheduleSelectOuter :=
  ⟨by unfold keyScheduleSelectOuter; infer_instance⟩

instance : Does [.transcript] (keyScheduleUpdateHash msg useOuter) :=
  ⟨by unfold keyScheduleUpdateHash; infer_instance⟩

instance : Does [.transcript, .note .absorb] (absorbMessage message) :=
  ⟨by unfold absorbMessage; infer_instance⟩

instance : Does [.note .handshakeSecret] (noteHandshakeSecret early shared) :=
  ⟨by unfold noteHandshakeSecret; infer_instance⟩

instance : Does [.transcript] keyScheduleUpdateCh1hashPrefix :=
  ⟨by unfold keyScheduleUpdateCh1hashPrefix; infer_instance⟩

/-! ## Derivation of secrets -/

variable [Crypto] {env : Environment} {s s' : Session}

instance : Does [.io] (hkdfExtract algo salt ikm) :=
  ⟨by unfold hkdfExtract; infer_instance⟩

instance :
    Does [.io, .note .derive] (hkdfExpandLabel algo outlen secret label context labelPrefix) :=
  ⟨by unfold hkdfExpandLabel; dsimp only; infer_instance⟩

theorem hkdfExpandLabel_eq_ok {algo : HashAlgorithm} {outlen : ℕ} {secret : Bytes} {label : Label}
    {context : Bytes} { labelPrefix : Option Bytes} {output : Bytes} :
    hkdfExpandLabel algo outlen secret label context labelPrefix env s = (.ok output, s') ↔
      env.alloc s.tick = true ∧
      (labelPrefix.getD hkdfExpandLabelPrefix ++ label.text).length < 256 ∧ context.length < 256 ∧
      output = hkdfExpandLabelDigest algo outlen secret label context
        (labelPrefix.getD hkdfExpandLabelPrefix) ∧
      s' = { s with
        tick := s.tick + 1
        trace := s.trace ++ [.derive (.schedule algo secret label context) output] } := by
  simp only [hkdfExpandLabel, bind_eq_ok, allocate_eq_ok, throwIf_eq_ok, emitEvent_run, pure_run,
    Prod.mk.injEq, Except.ok.injEq, not_le]
  constructor
  · rintro ⟨_, _, ⟨halloc, rfl⟩, _, _, ⟨hlabel, rfl⟩, _, _, ⟨hcontext, rfl⟩, _, _, ⟨-, rfl⟩,
      rfl, rfl⟩
    exact ⟨halloc, hlabel, hcontext, rfl, rfl⟩
  · rintro ⟨halloc, hlabel, hcontext, rfl, rfl⟩
    exact ⟨(), _, ⟨halloc, rfl⟩, (), _, ⟨hlabel, rfl⟩, (), _, ⟨hcontext, rfl⟩, (), _,
      ⟨trivial, rfl⟩, rfl, rfl⟩

/-- A new AEAD context is that of the secret, and the derivation of its key is in the history. -/
theorem aeadNew_eq_ok {aead : AeadAlgorithm} {hash : HashAlgorithm} {secret : Bytes}
    { labelPrefix : Option Bytes} {ctx : AeadContext}
    (h : aeadNew aead hash secret labelPrefix env s = (.ok ctx, s')) :
    ctx = .ofSecret aead hash secret labelPrefix ∧
      .derive (.schedule hash secret .key []) ctx.key ∈ s'.trace := by
  simp only [aeadNew, bind_eq_ok, hkdfExpandLabel_eq_ok, allocate_eq_ok, pure_run,
    Prod.mk.injEq, Except.ok.injEq] at h
  obtain ⟨_, _, ⟨-, -, -, rfl, rfl⟩, _, _, ⟨-, -, -, rfl, rfl⟩, _, _, ⟨-, rfl⟩, rfl, rfl⟩ := h
  exact ⟨rfl, by simp [AeadContext.ofSecret]⟩
instance : Does [.transcript] keyScheduleExtractCh1hash :=
  ⟨by unfold keyScheduleExtractCh1hash; infer_instance⟩

instance : Does [.transcript] keyScheduleTransformPostCh1hash :=
  ⟨by unfold keyScheduleTransformPostCh1hash; infer_instance⟩

/-! ## Extraction -/

/-- The salt of the next extraction. -/
def KeySchedule.salt (sched : KeySchedule) (algo : HashAlgorithm) : Bytes :=
  if sched.generation = 0 then sched.secret
  else hkdfExpandLabelDigest algo algo.digestSize (sched.secret.take algo.digestSize) .derived
    (Crypto.hash algo []) hkdfExpandLabelPrefix

/-- The schedule after an extraction. -/
def KeySchedule.extract (sched : KeySchedule) (algo : HashAlgorithm) (ikm : Option Bytes) :
    KeySchedule :=
  { sched with
    generation := sched.generation + 1
    secret := hkdfExtractDigest algo ((sched.salt algo).take algo.digestSize)
      (ikm.getD (zeros algo.digestSize)) }

theorem hkdfExtract_run (algo : HashAlgorithm) (salt ikm : Bytes) :
    hkdfExtract algo salt ikm env s =
      (if env.alloc s.tick then .ok (hkdfExtractDigest algo salt ikm)
        else .error (.code Error.noMemory), { s with tick := s.tick + 1 }) := by
  simp only [hkdfExtract, bind_run, allocate_run]
  cases env.alloc s.tick <;> rfl

/-- Deriving the salt leaves the connection alone if it fails, and replaces the schedule's secret
by the salt otherwise. -/
theorem keyScheduleDeriveSalt_run (env : Environment) (algo : HashAlgorithm) {sched : KeySchedule}
    (hsched : s.tls.keySchedule = some sched) :
    ∃ t, Via [.io, .note .derive] s t ∧ t.tls = s.tls ∧
      ((∃ fault, keyScheduleDeriveSalt algo env s = (.error fault, t)) ∨
        keyScheduleDeriveSalt algo env s = (.ok (), { t with
          tls := { t.tls with
            keySchedule := some { sched with secret := sched.salt algo } } })) := by
  have hget : getKeySchedule env s = (.ok sched, s) := getKeySchedule_eq_ok.mpr ⟨hsched, rfl⟩
  unfold keyScheduleDeriveSalt
  rw [bind_of_ok hget]
  by_cases hgen : sched.generation = 0
  · refine ⟨s, refl_of _ s, rfl, .inr ?_⟩
    have hsame : { sched with secret := sched.salt algo } = sched := by
      rw [KeySchedule.salt, if_pos hgen]
    rw [hsame, ← hsched]
    simp [runIf, hgen]
  · rcases hrun : hkdfExpandLabel algo algo.digestSize (sched.secret.take algo.digestSize) .derived
      (Crypto.hash algo []) none env s with ⟨fault | derived, t⟩
    · refine ⟨t, Within.steps inferInstance hrun, tls_eq_of_run hrun (by decide), .inl ⟨fault, ?_⟩⟩
      simp [runIf, hgen, bind_of_error hrun]
    · refine ⟨t, Within.steps inferInstance hrun, tls_eq_of_run hrun (by decide), .inr ?_⟩
      have hderived := (hkdfExpandLabel_eq_ok.mp hrun).2.2.2.1
      simp [runIf, hgen, bind_of_ok hrun, setKeySchedule, KeySchedule.salt, hderived]

/-- An extraction leaves the connection alone if the salt cannot be derived. Otherwise the schedule
advances, to the extracted secret unless memory is short. -/
theorem keyScheduleExtract_run (env : Environment) (ikm : Option Bytes)
    (hsched : s.tls.keySchedule = some sched) (hslot : sched.hashes.head? = some slot) :
    ∃ t, Via [.io, .note .derive] s t ∧ t.tls = s.tls ∧
      ((∃ fault, keyScheduleExtract ikm env s = (.error fault, t)) ∨
        (keyScheduleExtract ikm env s = (.error (.code Error.noMemory), { t with
          tls := { t.tls with keySchedule := some { sched with
            generation := sched.generation + 1, secret := sched.salt slot.algo } } })) ∨
        keyScheduleExtract ikm env s = (.ok (), { t with
          tls := { t.tls with keySchedule := some (sched.extract slot.algo ikm) } })) := by
  have hfirst : firstHash env s = (.ok slot, s) := firstHash_eq_ok.mpr ⟨sched, hsched, hslot, rfl⟩
  unfold keyScheduleExtract
  rw [bind_of_ok hfirst]
  obtain ⟨t, hsteps, htls, ⟨fault, hrun⟩ | hrun⟩ :=
    keyScheduleDeriveSalt_run env slot.algo hsched
  · exact ⟨t, hsteps, htls, .inl ⟨fault, bind_of_error hrun⟩⟩
  · refine ⟨{ t with tick := t.tick + 1 }, hsteps.tail ⟨.io, by simp, .io t t.sendbuf t.consumed
      t.epochOffsets t.report (t.tick + 1)⟩, htls, .inr ?_⟩
    dsimp only
    rw [bind_of_ok hrun]
    cases halloc : env.alloc t.tick <;>
      simp [bind_run, getKeySchedule, deref, setKeySchedule, hkdfExtract_run, halloc,
        KeySchedule.extract]

/-- With memory at hand, deriving the salt does not fail. -/
theorem keyScheduleDeriveSalt_ok (halloc : ∀ tick, env.alloc tick = true) (algo : HashAlgorithm)
    (hsched : s.tls.keySchedule = some sched) :
    ∃ t, keyScheduleDeriveSalt algo env s = (.ok (), t) := by
  have hget : getKeySchedule env s = (.ok sched, s) := getKeySchedule_eq_ok.mpr ⟨hsched, rfl⟩
  have hdigest : (Crypto.hash algo []).length < 256 := by
    rw [Crypto.hash_length]
    exact lt_of_le_of_lt algo.digestSize_le (by decide)
  unfold keyScheduleDeriveSalt runIf
  rw [bind_of_ok hget]
  split_ifs
  · have hexpand : ∃ derived t, hkdfExpandLabel algo algo.digestSize
        (sched.secret.take algo.digestSize) .derived (Crypto.hash algo []) none env s =
          (.ok derived, t) :=
      ⟨_, _, hkdfExpandLabel_eq_ok.mpr ⟨halloc s.tick, by decide, hdigest, rfl, rfl⟩⟩
    obtain ⟨derived, t, hexpand⟩ := hexpand
    exact ⟨_, bind_of_ok hexpand⟩
  · exact ⟨s, rfl⟩

/-- With memory at hand, an extraction does not fail. -/
theorem keyScheduleExtract_ok (halloc : ∀ tick, env.alloc tick = true) (ikm : Option Bytes)
    (hsched : s.tls.keySchedule = some sched) (hslot : sched.hashes.head? = some slot) :
    ∃ t, keyScheduleExtract ikm env s = (.ok (), t) := by
  have hfirst : firstHash env s = (.ok slot, s) := firstHash_eq_ok.mpr ⟨sched, hsched, hslot, rfl⟩
  obtain ⟨t, hsalt⟩ := keyScheduleDeriveSalt_ok halloc slot.algo hsched
  unfold keyScheduleExtract
  rw [bind_of_ok hfirst]
  rw [bind_of_ok hsalt]
  obtain ⟨t', -, htls, ⟨fault, hrun⟩ | hrun⟩ := keyScheduleDeriveSalt_run env slot.algo hsched <;>
    rw [hsalt] at hrun <;> cases hrun
  simp [bind_run, getKeySchedule, deref, setKeySchedule, hkdfExtract_run, halloc]

/-- The schedule advances in one step. -/
instance : Does [.io, .advance, .note .derive] (keyScheduleExtract ikm) := by
  refine ⟨⟨fun env s => ?_⟩⟩
  rcases hfirst : firstHash env s with ⟨fault | slot, s₀⟩
  · unfold keyScheduleExtract
    rw [bind_of_error hfirst]
    exact Within.steps inferInstance hfirst
  · obtain ⟨sched, hsched, hslot, rfl⟩ := firstHash_eq_ok.mp hfirst
    obtain ⟨t, hsteps, htls, ⟨fault, hrun⟩ | hrun | hrun⟩ :=
      keyScheduleExtract_run env ikm hsched hslot <;> rw [hrun] <;>
      have hsteps := hsteps.mono (E := [.io, .advance, .note .derive]) (by decide)
    · exact hsteps
    · exact hsteps.tail ⟨.advance, by simp, .advance t sched _ (htls ▸ hsched)⟩
    · exact hsteps.tail ⟨.advance, by simp, .advance t sched _ (htls ▸ hsched)⟩

instance :
    Does [.io, .advance, .schedule, .note .derive, .note .selectCipher]
      (keyScheduleSelectCipher cs reset resetIkm) := by
  refine ⟨?_⟩
  unfold keyScheduleSelectCipher
  dsimp only
  repeat' first | infer_instance | refine .seq ?_ fun _ => ?_ | split

instance (hash : Bytes) : Does [.io, .note .derive] (deriveSecretWithHash label hash) :=
  ⟨by unfold deriveSecretWithHash; infer_instance⟩

instance : Does [.io, .note .derive] (deriveSecret label) :=
  ⟨by unfold deriveSecret; infer_instance⟩

instance : Does [.io, .note .derive] (deriveSecretWithEmptyDigest label) :=
  ⟨by unfold deriveSecretWithEmptyDigest; infer_instance⟩

instance : Does [.io, .misc, .note .derive] (deriveExporterSecret isEarly) :=
  ⟨by unfold deriveExporterSecret; infer_instance⟩

instance : Does [.io, .note .derive] (deriveResumptionSecret nonce) :=
  ⟨by unfold deriveResumptionSecret; infer_instance⟩

instance : Does [.io, .note .derive, .note .finishedMac] (calcVerifyData secret) :=
  ⟨by unfold calcVerifyData; dsimp only; infer_instance⟩

instance (aead : AeadAlgorithm) (hash : HashAlgorithm) :
    Does [.io, .note .derive] (aeadNew aead hash secret labelPrefix) :=
  ⟨by unfold aeadNew; infer_instance⟩

/-! ## Traffic keys -/

instance : Does [.dec] (modifyProtection false f) :=
  Does.update fun _ s => .dec s (f s.tls.dec)

instance (f : TrafficProtection → ℕ) :
    Does [.decSeq] (modifyProtection false fun tp => { tp with seq := f tp }) :=
  Does.update fun _ s => .decSeq s (f s.tls.dec)

instance (f : TrafficProtection → Bytes) (g : TrafficProtection → ℕ) :
    Does [.encSecret] (modifyProtection true fun tp => { tp with secret := f tp, epoch := g tp }) :=
  Does.update fun _ s => .encSecret s (f s.tls.enc) (g s.tls.enc)

instance : Does [.encClear] (modifyProtection true fun tp => { tp with aead := none }) :=
  Does.update fun _ s => .encClear s

instance : Does [.dec] (installKey false aead seq) :=
  ⟨by simp only [installKey, runIf, Bool.false_eq_true, if_false]; infer_instance⟩

instance : Does [.io, .dec, .note .derive] (renewTrafficKey false seq) := by
  refine ⟨?_⟩
  unfold renewTrafficKey
  repeat' first | infer_instance | refine .seq ?_ fun _ => ?_ | split

/-- A sending key is installed in one step, after the derivation of the key from the current
secret has entered the history. -/
instance : Does [.io, .encClear, .encInstall, .note .derive] (renewTrafficKey true seq) := by
  refine ⟨⟨fun env s => ?_⟩⟩
  simp only [renewTrafficKey, getTls_bind]
  cases hsuite : s.tls.cipherSuite with
  | none => exact refl_of _ s
  | some suite =>
    simp only [deref_some_bind, modifyProtection_bind, attempt_bind, Tls.protection, if_true]
    generalize hcleared : ({ s with tls := { s.tls with enc := { s.tls.enc with aead := none } } } :
      Session) = cleared
    have hclear : Via [.io, .encClear, .encInstall, .note .derive] s cleared :=
      .single ⟨.encClear, by simp, hcleared ▸ .encClear s⟩
    rcases hnew : aeadNew suite.aead suite.hash s.tls.enc.secret s.tls.ctx.hkdfLabelPrefixObsolete
      env cleared with ⟨result, s₁⟩
    have hsteps := hclear.trans (Within.steps inferInstance hnew)
    have htls : s₁.tls = cleared.tls := tls_eq_of_run hnew (by decide)
    cases result with
    | error e => exact hsteps
    | ok aead =>
      have hsecret : s₁.tls.enc.secret = s.tls.enc.secret := by rw [htls, ← hcleared]
      have hkey := (aeadNew_eq_ok hnew).2
      exact hsteps.tail ⟨.encInstall, by simp, .encInstall s₁ aead seq suite.hash (hsecret ▸ hkey)⟩

instance : Does [] (noteKeyChange true) := ⟨inferInstanceAs (Respects _ (pure ()))⟩

instance : Does [.dec] (noteKeyChange false) := Does.update fun _ s => .changeKey s

instance :
    Does [.io, .dec, .note .derive]
      (setupTrafficProtection false secretLabel epoch seq skipNotify) :=
  ⟨by unfold setupTrafficProtection; infer_instance⟩

instance :
    Does [.io, .encSecret, .encClear, .encInstall, .note .derive]
      (setupTrafficProtection true secretLabel epoch seq skipNotify) :=
  ⟨by unfold setupTrafficProtection; infer_instance⟩

instance : Does [.io, .dec, .earlyData, .note .derive] (installHandshakeSecret false) :=
  ⟨by unfold installHandshakeSecret; infer_instance⟩

instance : Does [.io, .encSecret, .encClear, .encInstall, .earlyData, .note .derive]
    (installHandshakeSecret true) :=
  ⟨by unfold installHandshakeSecret; infer_instance⟩

instance : Does [.io, .dec, .encSecret, .encClear, .encInstall, .earlyData, .note .derive]
    commissionHandshakeSecret :=
  ⟨by unfold commissionHandshakeSecret; infer_instance⟩

instance : Does [.io, .dec, .note .derive] (updateTrafficKey false) :=
  ⟨by unfold updateTrafficKey; infer_instance⟩

instance : Does [.io, .encSecret, .encClear, .encInstall, .note .derive] (updateTrafficKey true) :=
  ⟨by unfold updateTrafficKey; infer_instance⟩

end Picotls
