import Picotls.Client.HelloMessage

/-!
# The client's key schedule until a hash is selected

The key schedule of a client starts with one slot for every hash function that the client offers,
that of an offered pre-shared key first. Only the selection of a cipher suite drops slots: it keeps
the slot of the suite's hash, and keeps the early secret as well if that slot came first.
-/

namespace Picotls

open Foundation Procedure

variable {isSecondFlight reset : Bool} {cs : CipherSuite} {algo : HashAlgorithm}
  {sched : KeySchedule} {suites : List CipherSuite} {seen : List HashAlgorithm}
  {resetIkm : Option Bytes} {properties : Option HandshakeProperties} {psk : Option OfferedPsk}

/-! ## The hashes of a new schedule -/

theorem mem_offeredHashes {preferred : Option HashAlgorithm} :
    algo ∈ offeredHashes preferred seen suites ↔
      preferred ≠ some algo ∧ algo ∉ seen ∧ algo ∈ suites.map CipherSuite.hash := by
  induction suites generalizing seen with
  | nil => simp [offeredHashes]
  | cons cs rest ih =>
    unfold offeredHashes
    by_cases heq : algo = cs.hash
    · subst heq
      split_ifs with hnew
      · simp [hnew]
      · simp only [ih, List.mem_append, List.mem_singleton]
        simp only [not_and, not_not] at hnew
        tauto
    · split_ifs <;> simp [ih, heq]

theorem nodup_offeredHashes {preferred : Option HashAlgorithm} :
    (offeredHashes preferred seen suites).Nodup := by
  induction suites generalizing seen with
  | nil => simp [offeredHashes]
  | cons cs rest ih =>
    unfold offeredHashes
    split_ifs
    · exact List.nodup_cons.mpr ⟨by simp [mem_offeredHashes], ih⟩
    · exact ih

/-- A new schedule has a slot for every offered hash. -/
theorem hash_mem_keyScheduleHashes {preferred : Option CipherSuite} (hcs : cs ∈ suites) :
    cs.hash ∈ keyScheduleHashes preferred (some suites) := by
  by_cases hpreferred : preferred.map CipherSuite.hash = some cs.hash
  · simp [keyScheduleHashes, hpreferred]
  · have hmem : cs.hash ∈ offeredHashes (preferred.map CipherSuite.hash) [] suites :=
      mem_offeredHashes.mpr ⟨hpreferred, by simp, List.mem_map_of_mem hcs⟩
    simp [keyScheduleHashes, hmem]

/-- A new schedule has one slot for each of its hashes. -/
theorem nodup_keyScheduleHashes {preferred : Option CipherSuite}
    {offered : Option (List CipherSuite)} : (keyScheduleHashes preferred offered).Nodup := by
  unfold keyScheduleHashes
  cases preferred with
  | none => simpa using nodup_offeredHashes
  | some cs => simp [nodup_offeredHashes, mem_offeredHashes]

/-! ## The slots of the schedule -/

/-- The hashes that the key schedule follows. -/
def Session.algos (s : Session) : Option (List HashAlgorithm) :=
  s.tls.keySchedule.map fun sched => sched.hashes.map HashSlot.algo

/-- The early, handshake or master secret, and which of them it is. -/
def Session.secret (s : Session) : Option (ℕ × Bytes) :=
  s.tls.keySchedule.map fun sched => (sched.generation, sched.secret)

section Steps

variable {E : List Effect} {s s' : Session}

section

variable (h : Via E s s')

include h

/-- Only replacing the schedule changes its hashes. -/
theorem Steps.algos_eq (hE : .schedule ∉ E) : s'.algos = s.algos := by
  refine h.preserves (P := fun t => t.algos = s.algos) (fun e he t t' hstep ht => ?_) rfl
  cases hstep with
  | schedule => exact absurd he hE
  | transcript _ sched hashes hsched halgo =>
    rw [← ht]
    simp [Session.algos, hsched, halgo]
  | advance _ sched secret hsched =>
    rw [← ht]
    simp [Session.algos, hsched]
  | _ => exact ht

/-- Absorbing messages does not change the secret. -/
theorem Steps.secret_eq (hE : .schedule ∉ E) (hE' : .advance ∉ E) : s'.secret = s.secret := by
  refine h.preserves (P := fun t => t.secret = s.secret) (fun e he t t' hstep ht => ?_) rfl
  cases hstep with
  | schedule => exact absurd he hE
  | advance => exact absurd he hE'
  | transcript _ sched hashes hsched halgo =>
    rw [← ht]
    simp [Session.secret, hsched]
  | _ => exact ht

/-- The suite and the use of a pre-shared key are left alone by effects other than their own. -/
theorem Steps.suite_eq (hE : .suite ∉ E) : s'.tls.cipherSuite = s.tls.cipherSuite := by
  refine h.preserves (P := fun t => t.tls.cipherSuite = s.tls.cipherSuite)
    (fun e he t t' hstep ht => ?_) rfl
  cases hstep <;> first | exact ht | exact absurd he hE

theorem Steps.psk_eq (hE : .psk ∉ E) :
    s'.tls.isPskHandshake = s.tls.isPskHandshake ∧ s'.tls.offeredPsk = s.tls.offeredPsk := by
  refine h.preserves (P := fun t => t.tls.isPskHandshake = s.tls.isPskHandshake ∧
    t.tls.offeredPsk = s.tls.offeredPsk) (fun e he t t' hstep ht => ?_) ⟨rfl, rfl⟩
  cases hstep <;> first | exact ht | exact absurd he hE

/-- The context of a connection is replaced by the application only. -/
theorem Steps.ctx_eq (hE : .context ∉ E) : s'.tls.ctx = s.tls.ctx := by
  refine h.preserves (P := fun t => t.tls.ctx = s.tls.ctx) (fun e he t t' hstep ht => ?_) rfl
  cases hstep <;> first | exact ht | exact absurd he hE

end

end Steps

/-- A slot is found exactly once if the hashes are distinct and include its own. -/
theorem exists_filter_algo_eq {hashes : List HashSlot} (hnodup : (hashes.map HashSlot.algo).Nodup)
    (hmem : algo ∈ hashes.map HashSlot.algo) : ∃ slot, hashes.filter (·.algo = algo) = [slot] := by
  have hlength : (hashes.filter (·.algo = algo)).length = 1 := by
    have hcount := hnodup.count (a := algo)
    rw [if_pos hmem, List.count, List.countP_map, List.countP_eq_length_filter] at hcount
    rw [← hcount]
    congr 1
  exact List.length_eq_one_iff.mp hlength

variable [Crypto] {env : Environment} {s t : Session}

/-- The session after a suite was selected, before the early secret is computed again. -/
def Session.selecting (s : Session) (sched : KeySchedule) (cs : CipherSuite)
    (keySchedule : KeySchedule) : Session :=
  { s with
    tls := { s.tls with keySchedule := some keySchedule }
    trace := s.trace ++
      [.selectCipher sched.hashes cs (sched.hashes.filter (·.algo = cs.hash))] }

/-- Selecting a cipher suite whose hash has one slot. -/
theorem keyScheduleSelectCipher_of_found {cs : CipherSuite} {reset : Bool}
    {resetIkm : Option Bytes} {sched : KeySchedule} {slot : HashSlot}
    (hsched : s.tls.keySchedule = some sched) (hgeneration : sched.generation = 1)
    (hfound : sched.hashes.filter (·.algo = cs.hash) = [slot]) :
    keyScheduleSelectCipher cs reset resetIkm env s =
      if reset = true ∨ sched.hashes.head?.map HashSlot.algo ≠ some cs.hash then
        keyScheduleExtract resetIkm env (s.selecting sched cs { hashes := [slot] })
      else (.ok (), s.selecting sched cs { sched with hashes := [slot] }) := by
  have hget : getKeySchedule env s = (.ok sched, s) := getKeySchedule_eq_ok.mpr ⟨hsched, rfl⟩
  unfold keyScheduleSelectCipher
  rw [bind_of_ok hget, assert_bind, if_pos (by simpa using hgeneration), emitEvent_bind]
  simp only [hfound, setKeySchedule]
  rw [modifyTls_bind]
  by_cases hreset : reset = true ∨ sched.hashes.head?.map HashSlot.algo ≠ some cs.hash
  · rw [if_pos hreset, runIf, if_pos (by simpa using hreset), modifyTls_bind]
    simp only [Session.selecting, hfound]
  · rw [if_neg hreset, runIf, if_neg (by simpa using hreset)]
    simp only [Session.selecting, hfound, pure_run]

/-- Selecting a cipher suite fails at once, fails because there is not one slot with the suite's
hash, or finds that slot. -/
theorem keyScheduleSelectCipher_cases (env : Environment) (s : Session) (cs : CipherSuite)
    (reset : Bool) (resetIkm : Option Bytes) :
    (∃ fault, keyScheduleSelectCipher cs reset resetIkm env s = (.error fault, s)) ∨
    ∃ sched, s.tls.keySchedule = some sched ∧ sched.generation = 1 ∧
      ((∃ fault, keyScheduleSelectCipher cs reset resetIkm env s =
          (.error fault, s.selecting sched cs sched)) ∨
        ∃ slot, sched.hashes.filter (·.algo = cs.hash) = [slot]) := by
  cases hsched : s.tls.keySchedule with
  | none =>
    have hget : getKeySchedule env s = (.error .undefined, s) := by
      simp [getKeySchedule, getTls_bind, hsched, deref]
    exact .inl ⟨_, bind_of_error hget⟩
  | some sched =>
    have hget : getKeySchedule env s = (.ok sched, s) := getKeySchedule_eq_ok.mpr ⟨hsched, rfl⟩
    have hsame : s.selecting sched cs sched = { s with trace := s.trace ++
        [.selectCipher sched.hashes cs (sched.hashes.filter (·.algo = cs.hash))] } := by
      rw [Session.selecting, ← hsched]
    unfold keyScheduleSelectCipher
    rw [bind_of_ok hget, assert_bind]
    by_cases hgeneration : sched.generation = 1
    · refine .inr ⟨sched, rfl, hgeneration, ?_⟩
      rw [if_pos (by simpa using hgeneration), emitEvent_bind, ← hsame]
      rcases hfound : sched.hashes.filter (·.algo = cs.hash) with _ | ⟨slot, _ | ⟨slot', rest⟩⟩
      · exact .inl ⟨.undefined, by simp only [hfound]; rfl⟩
      · exact .inr ⟨slot, hfound⟩
      · exact .inl ⟨.assertion, by simp only [hfound]; rfl⟩
    · exact .inl ⟨.assertion, if_neg (by simpa using hgeneration)⟩

/-- A successful selection has found one slot. -/
theorem exists_found_of_ok (h : keyScheduleSelectCipher cs reset resetIkm env s = (.ok (), t)) :
    ∃ sched slot, s.tls.keySchedule = some sched ∧ sched.generation = 1 ∧
      sched.hashes.filter (·.algo = cs.hash) = [slot] ∧ slot.algo = cs.hash := by
  rcases keyScheduleSelectCipher_cases env s cs reset resetIkm with ⟨fault, hrun⟩ |
    ⟨sched, hsched, hgeneration, ⟨fault, hrun⟩ | ⟨slot, hfound⟩⟩
  · rw [hrun] at h
    cases h
  · rw [hrun] at h
    cases h
  · have hmem : slot ∈ sched.hashes.filter (·.algo = cs.hash) := by rw [hfound]; simp
    exact ⟨sched, slot, hsched, hgeneration, hfound, by simpa using (List.mem_filter.mp hmem).2⟩

/-- A successful selection leaves the hash of the suite. -/
theorem keyScheduleSelectCipher_algos
    (h : keyScheduleSelectCipher cs reset resetIkm env s = (.ok (), t)) :
    t.algos = some [cs.hash] := by
  obtain ⟨sched, slot, hsched, hgeneration, hfound, hslot⟩ := exists_found_of_ok h
  rw [keyScheduleSelectCipher_of_found hsched hgeneration hfound] at h
  split_ifs at h
  · have hsteps : Via [.io, .advance, .note .derive] _ t :=
      Within.steps inferInstance h
    rw [Steps.algos_eq hsteps (by decide)]
    simp [Session.algos, Session.selecting, hslot]
  · cases h
    simp [Session.algos, Session.selecting, hslot]

/-- Selecting a suite whose hash comes first keeps the secret. -/
theorem keyScheduleSelectCipher_secret {rest : List HashAlgorithm}
    (h : keyScheduleSelectCipher cs false resetIkm env s = (.ok (), t))
    (halgos : s.algos = some (cs.hash :: rest)) : t.secret = s.secret := by
  obtain ⟨sched, slot, hsched, hgeneration, hfound, -⟩ := exists_found_of_ok h
  have hfirst : sched.hashes.head?.map HashSlot.algo = some cs.hash := by
    have hmap : sched.hashes.map HashSlot.algo = cs.hash :: rest := by
      simpa [Session.algos, hsched] using halgos
    rw [← List.head?_map, hmap, List.head?_cons]
  rw [keyScheduleSelectCipher_of_found hsched hgeneration hfound, if_neg (by simp [hfirst])] at h
  cases h
  simp [Session.secret, Session.selecting, hsched]

/-- A successful extraction replaces the schedule by the extracted one. -/
theorem keyScheduleExtract_eq_ok {ikm : Option Bytes}
    (h : keyScheduleExtract ikm env s = (.ok (), t)) :
    ∃ sched slot, s.tls.keySchedule = some sched ∧ sched.hashes.head? = some slot ∧
      t.tls = { s.tls with keySchedule := some (sched.extract slot.algo ikm) } := by
  obtain ⟨slot, s₁, hfirst, -⟩ := bind_eq_ok.mp h
  obtain ⟨sched, hsched, hslot, -⟩ := firstHash_eq_ok.mp hfirst
  refine ⟨sched, slot, hsched, hslot, ?_⟩
  obtain ⟨t', -, htls, ⟨fault, hrun⟩ | hrun | hrun⟩ :=
    keyScheduleExtract_run env ikm hsched hslot <;> rw [hrun] at h <;> cases h
  rw [htls]

/-- The early secret of key material. -/
def earlySecret (algo : HashAlgorithm) (ikm : Bytes) : Bytes :=
  hkdfExtractDigest algo (zeros algo.digestSize) ikm

/-- The first extraction of a schedule makes the early secret. -/
theorem extract_secret_of_new (algo : HashAlgorithm) (ikm : Option Bytes)
    (hgeneration : sched.generation = 0) (hsecret : sched.secret = zeros maxDigestSize) :
    (sched.extract algo ikm).secret = earlySecret algo (ikm.getD (zeros algo.digestSize)) := by
  have htake : (zeros maxDigestSize).take algo.digestSize = zeros algo.digestSize := by
    simp [zeros, algo.digestSize_le]
  simp [KeySchedule.extract, KeySchedule.salt, hgeneration, hsecret, htake, earlySecret]

/-- Starting the schedule fails at once, or continues with the extraction of the early secret. -/
theorem startKeySchedule_cases (env : Environment) (s : Session) (psk : Option OfferedPsk) :
    (∃ fault s', startKeySchedule psk env s = (.error fault, s') ∧ s'.tls = s.tls ∧
      s'.trace = s.trace) ∨
    ∃ sched s', sched.generation = 0 ∧ sched.secret = zeros maxDigestSize ∧
      sched.hashes.map HashSlot.algo =
        keyScheduleHashes s.tls.cipherSuite (some s.tls.ctx.cipherSuites) ∧
      s'.tls = { s.tls with keySchedule := some sched } ∧
      s'.trace = s.trace ++ [.startSchedule (psk.map fun psk => (psk.hash, psk.secret))] ∧
      startKeySchedule psk env s = keyScheduleExtract (psk.map OfferedPsk.secret) env s' := by
  unfold startKeySchedule
  rw [getTls_bind]
  rcases hnew : keyScheduleNew s.tls.cipherSuite (some s.tls.ctx.cipherSuites)
    s.tls.ech.aead.isSome env s with ⟨fault | sched, s₁⟩
  · left
    refine ⟨fault, s₁, bind_of_error hnew, tls_eq_of_run hnew (by decide), ?_⟩
    simp only [keyScheduleNew, bind_run, allocate_run] at hnew
    cases halloc : env.alloc s.tick <;> rw [halloc] at hnew <;> cases hnew
    rfl
  · right
    rw [bind_of_ok hnew, setKeySchedule, modifyTls_bind, emitEvent_bind]
    simp only [keyScheduleNew, bind_eq_ok, allocate_eq_ok, pure_run, Prod.mk.injEq,
      Except.ok.injEq] at hnew
    obtain ⟨-, -, ⟨-, rfl⟩, rfl, rfl⟩ := hnew
    exact ⟨_, _, rfl, rfl, by simp [Function.comp_def], rfl, rfl, rfl⟩

/-- A schedule that was started has the offered hashes and the early secret of the pre-shared
key. -/
theorem startKeySchedule_eq_ok (h : startKeySchedule psk env s = (.ok (), t)) :
    t.algos = some (keyScheduleHashes s.tls.cipherSuite (some s.tls.ctx.cipherSuites)) ∧
    ∃ algo, (keyScheduleHashes s.tls.cipherSuite (some s.tls.ctx.cipherSuites)).head? = some algo ∧
      t.secret = some (1, earlySecret algo
        ((psk.map OfferedPsk.secret).getD (zeros algo.digestSize))) := by
  rcases startKeySchedule_cases env s psk with ⟨fault, s', hrun, -⟩ |
    ⟨sched, s', hgeneration, hsecret, hhashes, htls, -, hrun⟩
  · rw [hrun] at h
    cases h
  · rw [hrun] at h
    obtain ⟨sched', slot, hsched, hslot, htls'⟩ := keyScheduleExtract_eq_ok h
    obtain rfl : sched = sched' := by simpa [htls] using hsched
    rw [← hhashes]
    refine ⟨?_, slot.algo, by simp [hslot], ?_⟩
    · simp [Session.algos, htls', KeySchedule.extract]
    · have hnew := extract_secret_of_new slot.algo (psk.map OfferedPsk.secret) hgeneration hsecret
      have hextracted : (sched.extract slot.algo (psk.map OfferedPsk.secret)).generation = 1 := by
        simp [KeySchedule.extract, hgeneration]
      simp only [Session.secret, htls', hnew, hextracted, Option.map_some]

/-- Whatever becomes of starting the schedule, its hashes are the offered ones if it has any. -/
theorem startKeySchedule_algos (env : Environment) (s : Session) (psk : Option OfferedPsk)
    {algos : List HashAlgorithm} (h : (startKeySchedule psk env s).2.algos = some algos) :
    s.algos = some algos ∨
      algos = keyScheduleHashes s.tls.cipherSuite (some s.tls.ctx.cipherSuites) := by
  rcases startKeySchedule_cases env s psk with ⟨fault, s', hrun, htls, -⟩ |
    ⟨sched, s', -, -, hhashes, htls, -, hrun⟩ <;> rw [hrun] at h
  · left
    rw [← h, Session.algos, Session.algos, htls]
  · right
    have hsteps : Via [.io, .advance, .note .derive] s'
        (keyScheduleExtract (psk.map OfferedPsk.secret) env s').2 :=
      Respects.relates env s'
    rw [Steps.algos_eq hsteps (by decide)] at h
    simpa [Session.algos, htls, hhashes, eq_comm] using h

/-! ## The first ClientHello -/

/-- What the choice of a pre-shared key to offer does to the connection. -/
structure OffersPsk (isSecondFlight : Bool) (psk : Option OfferedPsk) (s t : Session) : Prop where
  isPskHandshake : t.tls.isPskHandshake = s.tls.isPskHandshake
  offeredPsk : psk = none → t.tls.offeredPsk = s.tls.offeredPsk
  suite : ∀ p, psk = some p → isSecondFlight = false → s.tls.cipherSuite = none →
    t.tls.cipherSuite.map CipherSuite.hash = some p.hash
  offers : isSecondFlight = false → psk.isSome = true → t.tls.offeredPsk = true
  external : ∀ p, s.tls.ctx.preSharedKey = some p → psk.map OfferedPsk.secret = some p.secret

omit [Crypto]

theorem offerExternalPsk_eq_ok {psk : PreSharedKey} {offered : OfferedPsk}
    (hpsk : s.tls.ctx.preSharedKey = some psk)
    (h : offerExternalPsk properties isSecondFlight psk env s = (.ok offered, t)) :
    OffersPsk isSecondFlight (some offered) s t := by
  obtain ⟨_, s₁, h₁, h⟩ := bind_eq_ok.mp h
  cases h
  cases isSecondFlight with
  | true =>
    obtain ⟨-, hs₁⟩ := by simpa [checkExternalPskHash, getTls_bind] using h₁
    rw [hs₁]
    refine ⟨rfl, nofun, nofun, nofun, ?_⟩
    rintro p hp
    cases hpsk.symm.trans hp
    rfl
  | false =>
    simp only [Bool.false_eq_true, if_false, prepareExternalPsk] at h₁
    rw [getTls_bind, modifyTls_bind, assert_bind] at h₁
    split_ifs at h₁ with hsome
    · have hsteps := Within.steps (E := [.io, .earlyData]) inferInstance h₁
      refine ⟨(Steps.psk_eq hsteps (by decide)).1, nofun, ?_, fun _ _ => ?_, ?_⟩
      · rintro p ⟨⟩ - hnone
        rw [Steps.suite_eq hsteps (by decide)]
        -- no suite was chosen before, so one with the hash of the key was found
        cases hfind : s.tls.ctx.cipherSuites.find? (·.hash = psk.hash) with
        | none => simp [hfind, hnone] at hsome
        | some cs => simpa [hfind] using List.find?_some hfind
      · rw [(Steps.psk_eq hsteps (by decide)).2]
      · intro p hp
        cases hpsk.symm.trans hp
        rfl
    · cases h₁

theorem offerTicket_eq_ok {properties : HandshakeProperties} {ticket : Bytes}
    (hnone : s.tls.ctx.preSharedKey = none)
    (h : offerTicket properties isSecondFlight ticket env s = (.ok psk, t)) :
    OffersPsk isSecondFlight psk s t := by
  have hexternal (p : PreSharedKey) (hp : s.tls.ctx.preSharedKey = some p) :
      psk.map OfferedPsk.secret = some p.secret := by
    cases hnone.symm.trans hp
  unfold offerTicket at h
  rw [attempt_bind] at h
  rcases hrun : decodeStoredSessionTicket ticket env s with ⟨fault | stored, s₁⟩ <;>
    rw [hrun] at h <;> have htls := tls_eq_of_run hrun (by decide)
  · cases h
    exact ⟨by rw [htls], fun _ => by rw [htls], nofun, nofun, hexternal⟩
  · dsimp only at h
    rw [modifyTls_bind] at h
    obtain ⟨_, s₂, h₂, h⟩ := bind_eq_ok.mp h
    have hsteps := Within.steps (E := [.io, .earlyData]) inferInstance h₂
    cases h
    refine ⟨?_, nofun, ?_, fun _ _ => ?_, hexternal⟩
    · rw [(Steps.psk_eq hsteps (by decide)).1, ← htls]
    · rintro p ⟨⟩ - -
      rw [Steps.suite_eq hsteps (by decide)]
      rfl
    · rw [(Steps.psk_eq hsteps (by decide)).2]

/-- The suite of the connection has the hash of the pre-shared key that a first flight offers. -/
theorem offerPsk_eq_ok (h : offerPsk properties isSecondFlight env s = (.ok psk, t)) :
    OffersPsk isSecondFlight psk s t := by
  unfold offerPsk at h
  rw [getTls_bind] at h
  cases hexternal : s.tls.ctx.preSharedKey with
  | some external =>
    simp only [hexternal] at h
    obtain ⟨offered, s₁, h₁, h⟩ := bind_eq_ok.mp h
    cases h
    exact offerExternalPsk_eq_ok hexternal h₁
  | none =>
    have hnone (h : (pure none : Proc (Option OfferedPsk)) env s = (.ok psk, t)) :
        OffersPsk isSecondFlight psk s t := by
      cases h
      refine ⟨rfl, fun _ => rfl, nofun, nofun, fun p hp => ?_⟩
      cases hexternal.symm.trans hp
    simp only [hexternal] at h
    cases properties with
    | none => exact hnone h
    | some properties =>
      cases hticket : properties.sessionTicket <;> cases hgroups : s.tls.ctx.keyExchanges <;>
        simp only [hticket, hgroups] at h
      · exact hnone h
      · exact hnone h
      · exact hnone h
      · exact offerTicket_eq_ok hexternal h

/-- What sending a ClientHello does to the key schedule and to the use of a pre-shared key. -/
structure ComposesHello (psk : Option OfferedPsk) (s t : Session) : Prop where
  isPskHandshake : t.tls.isPskHandshake = s.tls.isPskHandshake
  offeredPsk : psk = none → t.tls.offeredPsk = s.tls.offeredPsk
  second : s.tls.keySchedule.isSome → t.algos = s.algos ∧ t.secret = s.secret
  first : s.tls.keySchedule = none → s.tls.cipherSuite = none →
    ∃ algos algo ikm, t.algos = some algos ∧ algos.head? = some algo ∧
      t.secret = some (1, earlySecret algo ikm) ∧
      ∀ p, psk = some p → algo = p.hash ∧ ikm = p.secret
  early : s.tls.keySchedule = none → ∃ algos algo, t.algos = some algos ∧
    algos.head? = some algo ∧ t.secret = some (1, earlySecret algo
      ((psk.map OfferedPsk.secret).getD (zeros algo.digestSize)))
  offers : s.tls.keySchedule = none → psk.isSome = true → t.tls.offeredPsk = true
  external : ∀ p, s.tls.ctx.preSharedKey = some p → psk.map OfferedPsk.secret = some p.secret

variable [Crypto]

/-- The schedule of a first flight starts with the hash of the offered pre-shared key. -/
theorem composeClientHello_eq_ok {emitter : Emitter} {cookie : Option Bytes} {message : Bytes}
    (h : composeClientHello emitter properties cookie env s =
      (.ok (isSecondFlight, psk, message), t)) : ComposesHello psk s t := by
  unfold composeClientHello at h
  dsimp only at h
  rw [getTls_bind] at h
  obtain ⟨_, s₁, hech, h⟩ := bind_eq_ok.mp h
  obtain ⟨psk', s₂, hoffer, h⟩ := bind_eq_ok.mp h
  obtain ⟨_, s₃, hreport, h⟩ := bind_eq_ok.mp h
  obtain ⟨_, s₄, hshare, h⟩ := bind_eq_ok.mp h
  obtain ⟨_, s₅, hstart, h⟩ := bind_eq_ok.mp h
  obtain ⟨start, s₆, hbegin, h⟩ := bind_eq_ok.mp h
  obtain ⟨messStart, s₇, hoff, h⟩ := bind_eq_ok.mp h
  obtain ⟨_, s₈, hbuild, h⟩ := bind_eq_ok.mp h
  obtain ⟨buf, s₉, hbuf, h⟩ := bind_eq_ok.mp h
  obtain ⟨_, s₁₀, hcommit, h⟩ := bind_eq_ok.mp h
  cases h
  have hbefore : Via [.io, .draw, .ech] s s₁ := Within.steps inferInstance hech
  have hbetween : Via [.io, .negotiation] s₂ s₄ :=
    (Within.steps inferInstance hreport).trans (Within.steps inferInstance hshare)
  have hafter : Via [.io, .draw, .transcript, .ech, .encrypt, .note .derive,
      .note .finishedMac, .note .absorb] s₅ t :=
    (Within.steps inferInstance hbegin).trans <| (Within.steps inferInstance hoff).trans <|
      (Within.steps inferInstance hbuild).trans <| (Within.steps inferInstance hbuf).trans <|
      Within.steps inferInstance hcommit
  have hstarts : Via [.io, .advance, .schedule, .note .derive, .note .startSchedule]
      s₄ s₅ := Within.steps inferInstance hstart
  have hoffers := offerPsk_eq_ok hoffer
  have hoffered : Via [.io, .negotiation, .suite, .psk, .earlyData, .refuse] s₁ s₂ :=
    Within.steps inferInstance hoffer
  have hpsk : t.tls.isPskHandshake = s₂.tls.isPskHandshake ∧ t.tls.offeredPsk = s₂.tls.offeredPsk :=
    have h₁ := Steps.psk_eq hafter (by decide)
    have h₂ := Steps.psk_eq hstarts (by decide)
    have h₃ := Steps.psk_eq hbetween (by decide)
    ⟨h₁.1.trans (h₂.1.trans h₃.1), h₁.2.trans (h₂.2.trans h₃.2)⟩
  have hpsk₁ := Steps.psk_eq hbefore (by decide)
  have hsuite : s₄.tls.cipherSuite = s₂.tls.cipherSuite := Steps.suite_eq hbetween (by decide)
  have hstart' (hnone : s.tls.keySchedule = none) : startKeySchedule psk env s₄ = (.ok (), s₅) := by
    rw [hnone] at hstart
    exact hstart
  refine ⟨?_, fun hnone => ?_, fun hsome => ?_, fun hnone hcs => ?_, fun hnone => ?_,
    fun hnone hsome => ?_, fun p hp => ?_⟩
  · rw [hpsk.1, hoffers.isPskHandshake, hpsk₁.1]
  · rw [hpsk.2, hoffers.offeredPsk hnone, hpsk₁.2]
  · obtain rfl : s₅ = s₄ := by
      rw [hsome] at hstart
      cases hstart
      rfl
    constructor
    · rw [Steps.algos_eq hafter (by decide), Steps.algos_eq hbetween (by decide),
        Steps.algos_eq hoffered (by decide), Steps.algos_eq hbefore (by decide)]
    · rw [Steps.secret_eq hafter (by decide) (by decide),
        Steps.secret_eq hbetween (by decide) (by decide),
        Steps.secret_eq hoffered (by decide) (by decide),
        Steps.secret_eq hbefore (by decide) (by decide)]
  · obtain ⟨halgos, algo, hhead, hsecret⟩ := startKeySchedule_eq_ok (hstart' hnone)
    refine ⟨_, algo, _, (Steps.algos_eq hafter (by decide)).trans halgos, hhead,
      (Steps.secret_eq hafter (by decide) (by decide)).trans hsecret, ?_⟩
    rintro p rfl
    refine ⟨?_, rfl⟩
    have hcs₁ : s₁.tls.cipherSuite = none := (Steps.suite_eq hbefore (by decide)).trans hcs
    have hhash := hoffers.suite p rfl (by rw [hnone]; rfl) hcs₁
    rw [hsuite] at hhead
    obtain ⟨cs, hcs₂, hcs_hash⟩ := Option.map_eq_some_iff.mp hhash
    rw [← hcs_hash]
    simpa [keyScheduleHashes, hcs₂, eq_comm] using hhead
  · obtain ⟨halgos, algo, hhead, hsecret⟩ := startKeySchedule_eq_ok (hstart' hnone)
    exact ⟨_, algo, (Steps.algos_eq hafter (by decide)).trans halgos, hhead,
      (Steps.secret_eq hafter (by decide) (by decide)).trans hsecret⟩
  · rw [hpsk.2]
    exact hoffers.offers (by rw [hnone]; rfl) hsome
  · exact hoffers.external p (by rw [Steps.ctx_eq hbefore (by decide), hp])

end Picotls
