import Picotls.Hpke.Setup
import Picotls.Sample

/-!
# HPKE contexts and lack of memory

Whatever fails while a shared secret, a key and a base nonce are derived is reported, and what is
derived does not depend on anything else than the inputs, so that both sides derive the same. That
there is no memory for the AEAD context itself is not reported: the setup returns zero without a
context.
-/

namespace Picotls.Hpke

open Foundation Procedure

variable {α β : Type}

variable {ctx : AeadContext} {isEnc : Bool} {pkR pkS sharedSecret : Bytes}
  {decoded : DecodedEchConfig} {env : Environment} {outcome : Except Stop Unit × State}
  {algo : HashAlgorithm} {host : Host} {s t : State} {m : Proc α}

/-! ## Derivations -/

/-- The derivation gives a value that does not depend on the host, or fails for lack of memory. -/
def Yields (m : Proc α) (a : α) : Prop :=
  ∀ host s, (∃ requests, m host s = (.ok a, { s with requests })) ∨
    ∃ t, m host s = (.error (.code Error.noMemory), t) ∧ s.failures < t.failures ∧
      ∃ n, host.alloc n = false

/-- The derivation gives some such value. -/
def IsDetermined (m : Proc α) : Prop := ∃ a, Yields m a

theorem isDetermined_pure (a : α) : IsDetermined (pure a) := ⟨a, fun _ s => .inl ⟨s.requests, rfl⟩⟩

theorem isDetermined_request : IsDetermined request := by
  refine ⟨(), fun host s => ?_⟩
  unfold request
  cases hgrant : host.alloc s.requests with
  | true => exact .inl ⟨s.requests + 1, rfl⟩
  | false => exact .inr ⟨_, rfl, Nat.lt_succ_self _, s.requests, hgrant⟩

theorem IsDetermined.bind {f : α → Proc β} (hm : IsDetermined m) (hf : ∀ a, IsDetermined (f a)) :
    IsDetermined (m >>= f) := by
  obtain ⟨a, hm⟩ := hm
  obtain ⟨b, hf⟩ := hf a
  refine ⟨b, fun host s => ?_⟩
  rcases hm host s with ⟨requests, hrun⟩ | ⟨t, hrun, hfailed⟩
  · rw [bind_of_ok hrun]
    rcases hf host { s with requests } with ⟨requests', hrest⟩ | ⟨t, hrest, hfailed⟩
    · exact .inl ⟨requests', hrest⟩
    · exact .inr ⟨t, hrest, hfailed⟩
  · rw [bind_of_error hrun]
    exact .inr ⟨t, rfl, hfailed⟩

theorem isDetermined_assertThat {c : Prop} [Decidable c] (hc : c) :
    IsDetermined (assertThat c) := by
  rw [assertThat, if_pos hc]
  exact isDetermined_pure ()

theorem isDetermined_pushv (buf octets : Bytes) : IsDetermined (pushv buf octets) := by
  unfold pushv
  split
  · exact isDetermined_pure buf
  · exact isDetermined_request.bind fun _ => isDetermined_pure _

theorem isDetermined_buildSuiteId (buf : Bytes) (kem : HpkeKem) (cipher : Option HpkeCipherSuite) :
    IsDetermined (buildSuiteId buf kem cipher) := by
  cases cipher with
  | none => exact (isDetermined_pushv _ _).bind fun _ => isDetermined_pushv _ _
  | some cipher =>
    exact (isDetermined_pushv _ _).bind fun _ => (isDetermined_pushv _ _).bind fun _ =>
      (isDetermined_pushv _ _).bind fun _ => isDetermined_pushv _ _

theorem isDetermined_hmacCreate {key : Bytes} (hkey : key.length ≤ algo.blockSize) :
    IsDetermined (hmacCreate algo key) :=
  (isDetermined_assertThat hkey).bind fun _ =>
    isDetermined_request.bind fun _ => isDetermined_request

theorem orForget_ok {a : α} (h : m host s = (.ok a, t)) : orForget m host s = (.ok a, t) := by
  rw [orForget, bind_run, attempt_run, h]
  rfl

theorem orForget_error {stop : Stop} (h : m host s = (.error stop, t)) :
    orForget m host s = (.error stop, { t with pkS := [] }) := by
  rw [orForget, bind_run, attempt_run, h]
  rfl

/-- Octets of the size of a digest are not more than the largest digest. -/
theorem Octets.length_le (octets : Octets algo.digestSize) :
    octets.1.length ≤ maxDigestSize := octets.2.le.trans algo.digestSize_le

/-- A block of the hash has room for every digest. -/
def HasRoom (algo : HashAlgorithm) : Prop := maxDigestSize ≤ algo.blockSize

variable [Crypto] {kem : HpkeKem} {cipher : HpkeCipherSuite}

theorem isDetermined_labeledExtract (suite : Option HpkeCipherSuite)
    (hroom : HasRoom (suiteHash kem suite)) {salt : Bytes} (hsalt : salt.length ≤ maxDigestSize)
    (label ikm : Bytes) : IsDetermined (labeledExtract kem suite salt label ikm) := by
  have hcreate (message : Bytes) :
      IsDetermined (hkdfExtract (suiteHash kem suite) salt message) := by
    refine (isDetermined_hmacCreate ?_).bind fun _ => isDetermined_pure _
    split
    · rw [zeros_length]
      exact (suiteHash kem suite).digestSize_le.trans hroom
    · exact hsalt.trans hroom
  exact (isDetermined_pushv _ _).bind fun _ => (isDetermined_buildSuiteId _ _ _).bind fun _ =>
    (isDetermined_pushv _ _).bind fun _ => (isDetermined_pushv _ _).bind hcreate

theorem isDetermined_labeledExpand (suite : Option HpkeCipherSuite)
    (hroom : HasRoom (suiteHash kem suite)) {outlen : ℕ} (houtlen : outlen < 65535) {prk : Bytes}
    (hprk : prk.length ≤ maxDigestSize) (label info : Bytes) :
    IsDetermined (labeledExpand kem suite outlen prk label info) := by
  have hcreate (message : Bytes) :
      IsDetermined (hkdfExpand (suiteHash kem suite) outlen prk message) := by
    refine IsDetermined.bind ?_ fun _ => isDetermined_pure _
    unfold expandCreate
    split
    · exact isDetermined_pure ()
    · exact isDetermined_hmacCreate (hprk.trans hroom)
  exact (isDetermined_assertThat houtlen).bind fun _ => (isDetermined_pushv _ _).bind fun _ =>
    (isDetermined_pushv _ _).bind fun _ => (isDetermined_buildSuiteId _ _ _).bind fun _ =>
    (isDetermined_pushv _ _).bind fun _ => (isDetermined_pushv _ _).bind hcreate

theorem isDetermined_dhDerive (hkem : HasRoom kem.hash) (pkS pkR dh : Bytes) :
    IsDetermined (dhDerive kem pkS pkR dh) := by
  have hsize : kem.hash.digestSize < 65535 :=
    lt_of_le_of_lt kem.hash.digestSize_le (by decide)
  exact (isDetermined_pushv _ _).bind fun _ => (isDetermined_pushv _ _).bind fun context =>
    (isDetermined_labeledExtract none hkem (Nat.zero_le _) _ _).bind fun eaePrk =>
      isDetermined_labeledExpand none hkem hsize eaePrk.length_le _ context

theorem isDetermined_deriveKeys (hcipher : HasRoom cipher.hash) (hiv : cipher.aead.ivSize < 65535)
    (hsecret : sharedSecret.length ≤ maxDigestSize) (info : Bytes) :
    IsDetermined (deriveKeys kem cipher sharedSecret info) := by
  have hkey : cipher.aead.keySize < 65535 := lt_of_le_of_lt cipher.aead.keySize_le (by decide)
  refine (isDetermined_pushv _ _).bind fun _ => isDetermined_request.bind fun _ =>
    (isDetermined_labeledExtract (some cipher) hcipher (Nat.zero_le _) _ _).bind fun _ =>
    isDetermined_request.bind fun _ =>
    (isDetermined_labeledExtract (some cipher) hcipher (Nat.zero_le _) _ _).bind fun _ =>
    (isDetermined_labeledExtract (some cipher) hcipher hsecret _ _).bind fun secret => ?_
  have hprk : secret.1.length ≤ maxDigestSize := secret.length_le
  exact (isDetermined_labeledExpand (some cipher) hcipher hkey hprk _ _).bind fun _ =>
    (isDetermined_labeledExpand (some cipher) hcipher hiv hprk _ _).bind fun _ =>
    isDetermined_pure _

/-! ## Contexts -/

/-- How a setup ends that derives a context: the context is there; or there is none although zero is
returned, since it could not be made; or the derivation has failed for lack of memory. -/
inductive SetsUp (host : Host) (isEnc : Bool) (pkS : Bytes) (ctx : AeadContext) (s : State) :
    Except Stop Unit × State → Prop
  | made {t : State} (aead : host.aeadNew isEnc = true) (ctx_eq : t.ctx = some ctx)
      (pkS_eq : t.pkS = pkS) (failures : t.failures = s.failures) :
      SetsUp host isEnc pkS ctx s (.ok (), t)
  | missing {t : State} (aead : host.aeadNew isEnc = false) (ctx_eq : t.ctx = none)
      (pkS_eq : t.pkS = pkS) (failures : s.failures < t.failures) :
      SetsUp host isEnc pkS ctx s (.ok (), t)
  | refused {t : State} (refused : ∃ n, host.alloc n = false)
      (failures : s.failures < t.failures) :
      SetsUp host isEnc pkS ctx s (.error (.code Error.noMemory), t)

/-- The suite can be used: its hashes and its nonces have the sizes that the code has room for. -/
structure IsUsable (kem : HpkeKem) (cipher : HpkeCipherSuite) : Prop where
  kem_hasRoom : HasRoom kem.hash
  cipher_hasRoom : HasRoom cipher.hash
  ivSize_le : cipher.aead.ivSize ≤ 32

/-- The key schedule sets up the same context on both sides. -/
theorem keySchedule_setsUp (h : IsUsable kem cipher) (hsecret : sharedSecret.length ≤ maxDigestSize)
    (info : Bytes) :
    ∃ ctx, ∀ isEnc host s, SetsUp host isEnc s.pkS ctx s
      (keySchedule kem cipher isEnc sharedSecret info host s) := by
  have hiv : cipher.aead.ivSize < 65535 := lt_of_le_of_lt h.ivSize_le (by decide)
  obtain ⟨⟨key, iv⟩, hkeys⟩ : IsDetermined (deriveKeys kem cipher sharedSecret info) :=
    isDetermined_deriveKeys h.cipher_hasRoom hiv hsecret info
  refine ⟨⟨cipher.aead, key.1, iv.1, iv.2⟩, fun isEnc host s => ?_⟩
  change SetsUp host isEnc _ _ s ((deriveKeys kem cipher sharedSecret info >>= fun keys =>
    aeadNewDirect cipher.aead isEnc keys.1.1 keys.2) host { s with ctx := none })
  rcases hkeys host { s with ctx := none } with ⟨requests, hrun⟩ | ⟨t, hrun, hfailed, hrefused⟩
  · rw [bind_of_ok hrun, aeadNewDirect]
    cases haead : host.aeadNew isEnc with
    | true => exact .made haead rfl rfl rfl
    | false => exact .missing haead rfl rfl (Nat.lt_succ_self _)
  · rw [bind_of_error hrun]
    exact .refused hrefused hfailed

omit [Crypto] in
theorem SetsUp.of_failures {u : State} (h : SetsUp host isEnc pkS ctx u outcome)
    (hfailures : u.failures = s.failures) : SetsUp host isEnc pkS ctx s outcome := by
  cases h with
  | made haead hctx hpkS hcount => exact .made haead hctx hpkS (hcount.trans hfailures)
  | missing haead hctx hpkS hcount => exact .missing haead hctx hpkS (hfailures ▸ hcount)
  | refused hrefused hcount => exact .refused hrefused (hfailures ▸ hcount)

/-- The setup of the sender, after its key exchange, and of the receiver, after its own with the
same result. -/
theorem setups_agree (h : IsUsable kem cipher) (pkS pkR dh info : Bytes) :
    ∃ ctx,
      (∀ host s, host.exchange kem.keyex pkR = .ok (pkS, dh) →
        SetsUp host true pkS ctx s (ptlsHpkeSetupBaseS kem cipher pkR info host s)) ∧
      ∀ keyex host s, keyex.pubkey = pkR → host.onExchange keyex pkS = .ok dh →
        SetsUp host false s.pkS ctx s (ptlsHpkeSetupBaseR kem cipher keyex pkS info host s) := by
  obtain ⟨secret, hsecret⟩ : IsDetermined (dhDerive kem pkS pkR dh) :=
    isDetermined_dhDerive h.kem_hasRoom pkS pkR dh
  obtain ⟨ctx, hschedule⟩ := keySchedule_setsUp h secret.length_le info
  refine ⟨ctx, fun host s hexchange => ?_, fun keyex host s hpubkey hexchange => ?_⟩
  · let start : State := { s with pkS := [] }
    let encapsulated : State := { s with pkS := pkS }
    have hanswer : (ofExchange fun host => host.exchange kem.keyex pkR) host start =
        (.ok (pkS, dh), start) := by
      rw [ofExchange, hexchange]
    have hencap : dhEncap kem pkR host start =
        orForget (dhDerive kem pkS pkR dh) host encapsulated := by
      rw [dhEncap]
      change ((ofExchange fun host => host.exchange kem.keyex pkR) >>= fun _ => _) host start = _
      rw [bind_of_ok hanswer]
      rfl
    change SetsUp host true pkS ctx s (orForget (dhEncap kem pkR >>= fun secret =>
      keySchedule kem cipher true secret.1 info) host start)
    rcases hsecret host encapsulated with ⟨requests, hrun⟩ | ⟨t, hrun, hfailed, hrefused⟩
    · have hset := hschedule true host { encapsulated with requests }
      have hboth : (dhEncap kem pkR >>= fun secret => keySchedule kem cipher true secret.1 info)
          host start = keySchedule kem cipher true secret.1 info host
            { encapsulated with requests } := by
        rw [bind_of_ok (hencap.trans (orForget_ok hrun))]
      rcases hrest : keySchedule kem cipher true secret.1 info host { encapsulated with requests }
        with ⟨_ | _, t⟩
      · rw [hrest] at hset hboth
        rw [orForget_error hboth]
        cases hset with
        | refused hrefused hcount => exact .refused hrefused hcount
      · rw [hrest] at hset hboth
        rw [orForget_ok hboth]
        exact hset.of_failures rfl
    · rw [orForget_error (bind_of_error (hencap.trans (orForget_error hrun)))]
      exact .refused hrefused hfailed
  · subst hpubkey
    have hstart : (ofExchange fun host => host.onExchange keyex pkS) host s = (.ok dh, s) := by
      rw [ofExchange, hexchange]
    rw [ptlsHpkeSetupBaseR, dhDecap, bind_assoc, bind_of_ok hstart]
    rcases hsecret host s with ⟨requests, hrun⟩ | ⟨t, hrun, hfailed, hrefused⟩
    · rw [bind_of_ok hrun]
      exact (hschedule false host { s with requests }).of_failures rfl
    · rw [bind_of_error hrun]
      exact .refused hrefused hfailed

/-- A key exchange that fails is reported. -/
theorem ptlsHpkeSetupBaseS_error {c : FailureCode} (cipher : HpkeCipherSuite) (info : Bytes)
    (s : State) (hexchange : host.exchange kem.keyex pkR = .error c) :
    ∃ t, ptlsHpkeSetupBaseS kem cipher pkR info host s = (.error (.code c), t) := by
  let start : State := { s with pkS := [] }
  have hanswer : (ofExchange fun host => host.exchange kem.keyex pkR) host start =
      (.error (.code c), { start with failures := s.failures + 1 }) := by
    rw [ofExchange, hexchange]
  have hencap : dhEncap kem pkR host start =
      (.error (.code c), { start with failures := s.failures + 1 }) := by
    rw [dhEncap]
    change ((ofExchange fun host => host.exchange kem.keyex pkR) >>= fun _ => _) host start = _
    exact bind_of_error hanswer
  change ∃ t, orForget (dhEncap kem pkR >>= fun secret =>
    keySchedule kem cipher true secret.1 info) host start = (.error (.code c), t)
  rw [orForget_error (bind_of_error hencap)]
  exact ⟨_, rfl⟩

theorem ptlsHpkeSetupBaseR_error {keyex : KeyExchangeContext} {c : FailureCode} (kem : HpkeKem)
    (cipher : HpkeCipherSuite) (info : Bytes) (s : State)
    (hexchange : host.onExchange keyex pkS = .error c) :
    ∃ t, ptlsHpkeSetupBaseR kem cipher keyex pkS info host s = (.error (.code c), t) := by
  have hanswer : (ofExchange fun host => host.onExchange keyex pkS) host s =
      (.error (.code c), { s with failures := s.failures + 1 }) := by
    rw [ofExchange, hexchange]
  have hdecap : dhDecap kem keyex pkS keyex.pubkey host s = _ := bind_of_error hanswer
  rw [ptlsHpkeSetupBaseR, bind_of_error hdecap]
  exact ⟨_, rfl⟩

omit [Crypto] in
/-- A setup that has returned zero with an AEAD context that could be made. -/
theorem SetsUp.of_ok (h : SetsUp host isEnc pkS ctx s (.ok (), t))
    (haead : host.aeadNew isEnc = true) :
    t.ctx = some ctx ∧ t.pkS = pkS ∧ t.failures = s.failures := by
  cases h with
  | made _ hctx hpkS hcount => exact ⟨hctx, hpkS, hcount⟩
  | missing hmissing => exact absurd (hmissing.symm.trans haead) (by decide)

omit [Crypto] in
/-- A setup for which there is memory returns zero. -/
theorem SetsUp.granted {host : Host} {isEnc : Bool} {pkS : Bytes} {ctx : AeadContext} {s : State}
    {outcome : Except Stop Unit × State} (h : SetsUp host isEnc pkS ctx s outcome)
    (halloc : ∀ n, host.alloc n = true) :
    ∃ t, outcome = (.ok (), t) ∧ (t.ctx ≠ none → host.aeadNew isEnc = true) := by
  cases h with
  | made haead => exact ⟨_, rfl, fun _ => haead⟩
  | missing _ hctx => exact ⟨_, rfl, fun hne => absurd hctx hne⟩
  | refused hrefused =>
    obtain ⟨n, hn⟩ := hrefused
    rw [halloc n] at hn
    cases hn

/-- A setup for a suite that can be used returns. -/
theorem ptlsHpkeSetupBaseS_returns (h : IsUsable kem cipher) {info : Bytes} {stop : Stop}
    (hrun : ptlsHpkeSetupBaseS kem cipher pkR info host s = (.error stop, t)) :
    ∃ c, stop = .code c := by
  cases hexchange : host.exchange kem.keyex pkR with
  | error c =>
    obtain ⟨u, herror⟩ := ptlsHpkeSetupBaseS_error cipher info s hexchange
    rw [herror] at hrun
    cases hrun
    exact ⟨_, rfl⟩
  | ok answer =>
    obtain ⟨ctx, hset, -⟩ := setups_agree h answer.1 pkR answer.2 info
    have hends := hset host s hexchange
    rw [hrun] at hends
    cases hends
    exact ⟨_, rfl⟩

/-! ## What is reported -/

/-- The setups return zero only if nothing has failed and the context is there; the contexts of both
sides then are the same, with which opening inverts sealing; and a client that sets up ECH has an
AEAD context. -/
structure ReportsFailures (aeadNew : Bool → Bool) (kem : HpkeKem) (cipher : HpkeCipherSuite)
    (pkR info : Bytes) (keyex : KeyExchangeContext) : Prop where
  sender : ∀ (host : Host) (s t : State), host.aeadNew = aeadNew →
    ptlsHpkeSetupBaseS kem cipher pkR info host s = (.ok (), t) →
    t.ctx ≠ none ∧ t.failures = s.failures
  receiver : ∀ (host : Host) (s t : State) (pkS : Bytes), host.aeadNew = aeadNew →
    ptlsHpkeSetupBaseR kem cipher keyex pkS info host s = (.ok (), t) →
    t.ctx ≠ none ∧ t.failures = s.failures
  agree : ∀ (hostS hostR : Host) (s t u v : State) (pkS dh : Bytes), hostS.aeadNew = aeadNew →
    hostR.aeadNew = aeadNew → keyex.pubkey = pkR →
    hostS.exchange kem.keyex pkR = .ok (pkS, dh) → hostR.onExchange keyex pkS = .ok dh →
    ptlsHpkeSetupBaseS kem cipher pkR info hostS s = (.ok (), t) →
    ptlsHpkeSetupBaseR kem cipher keyex pkS info hostR u = (.ok (), v) →
    t.pkS = pkS ∧ ∃ ctx, t.ctx = some ctx ∧ v.ctx = some ctx ∧
      ∀ text seq aad, ctx.decrypt (ctx.encrypt text seq aad) seq aad = some text
  client : ∀ (env : Environment) (decoded : DecodedEchConfig) (s t : Session),
    Answers env aeadNew → clientSetupEch decoded kem cipher env s = (.ok (), t) →
    t.tls.ech.aead ≠ none

omit [Crypto] in
/-- What a client that sets up ECH was answered. -/
theorem clientSetupEchBody_ok {s t : Session} {u : Unit}
    (h : clientSetupEchBody decoded kem cipher env s = (.ok u, t)) :
    ∃ tick enc, env.hpkeSetupBaseS tick kem cipher decoded.publicKey
      (echInfoPrefix ++ decoded.bytes) = .ok (enc, t.tls.ech.aead) := by
  unfold clientSetupEchBody at h
  obtain ⟨_, s₁, -, h⟩ := bind_eq_ok.mp h
  obtain ⟨answer, s₂, hask, h⟩ := bind_eq_ok.mp h
  obtain ⟨⟨enc, aead⟩, s₃, hanswer, h⟩ := bind_eq_ok.mp h
  obtain ⟨_, s₄, hset, h⟩ := bind_eq_ok.mp h
  obtain ⟨random, s₅, hrandom, h⟩ := bind_eq_ok.mp h
  obtain ⟨_, s₆, hrest, h⟩ := bind_eq_ok.mp h
  obtain ⟨_, s₇, halloc, hname⟩ := bind_eq_ok.mp h
  cases hset
  cases hrandom
  cases hrest
  cases hname
  rw [allocate_run] at halloc
  obtain ⟨-, rfl⟩ := Prod.mk.inj halloc
  cases answer with
  | error code => cases hanswer
  | ok answer =>
    cases hanswer
    exact ⟨s₁.tick, enc, Except.ok.inj (Prod.mk.inj hask).1⟩

omit [Crypto] in
/-- What a client that has set up ECH was answered. -/
theorem clientSetupEch_ok {s t : Session}
    (h : clientSetupEch decoded kem cipher env s = (.ok (), t)) :
    ∃ tick enc, env.hpkeSetupBaseS tick kem cipher decoded.publicKey
      (echInfoPrefix ++ decoded.bytes) = .ok (enc, t.tls.ech.aead) := by
  unfold clientSetupEch at h
  obtain ⟨result, s₁, hbody, h⟩ := bind_eq_ok.mp h
  rw [attempt_run] at hbody
  rcases hrun : clientSetupEchBody decoded kem cipher env s with ⟨_ | _, t'⟩
  · rw [hrun] at hbody
    cases hbody
    cases h
  · rw [hrun] at hbody
    cases hbody
    cases h
    exact clientSetupEchBody_ok hrun

/-- The setups report what fails exactly if AEAD contexts can be made. -/
theorem hpke_setup_iff (h : IsUsable kem cipher) (aeadNew : Bool → Bool) (pkR info : Bytes)
    (keyex : KeyExchangeContext) :
    ReportsFailures aeadNew kem cipher pkR info keyex ↔ ∀ isEnc, aeadNew isEnc = true := by
  constructor
  · intro hreports
    -- memory is granted and the key exchanges succeed: only the AEAD context may be missing
    let host : Host := ⟨fun _ => true, aeadNew, fun _ _ => .ok ([], []), fun _ _ => .ok []⟩
    obtain ⟨_, hsender, -⟩ := setups_agree h [] pkR [] info
    obtain ⟨_, -, hreceiver⟩ := setups_agree h [] keyex.pubkey [] info
    rintro (_ | _)
    · obtain ⟨t, hrun, haead⟩ :=
        (hreceiver keyex host .initial rfl rfl).granted fun _ => rfl
      exact haead (hreports.receiver host .initial t [] rfl hrun).1
    · obtain ⟨t, hrun, haead⟩ := (hsender host .initial rfl).granted fun _ => rfl
      exact haead (hreports.sender host .initial t rfl hrun).1
  · intro haead
    have hsender (pkR info : Bytes) (host : Host) (s t : State) (hhost : host.aeadNew = aeadNew)
        (hrun : ptlsHpkeSetupBaseS kem cipher pkR info host s = (.ok (), t)) :
        t.ctx ≠ none ∧ t.failures = s.failures := by
      cases hexchange : host.exchange kem.keyex pkR with
      | error c =>
        obtain ⟨u, herror⟩ := ptlsHpkeSetupBaseS_error cipher info s hexchange
        rw [herror] at hrun
        cases hrun
      | ok answer =>
        obtain ⟨ctx, hset, -⟩ := setups_agree h answer.1 pkR answer.2 info
        have hends := hset host s hexchange
        rw [hrun] at hends
        obtain ⟨hctx, -, hcount⟩ := hends.of_ok (by rw [hhost, haead])
        exact ⟨by simp [hctx], hcount⟩
    refine ⟨hsender pkR info, fun host s t pkS hhost hrun => ?_, ?_, ?_⟩
    · cases hexchange : host.onExchange keyex pkS with
      | error c =>
        obtain ⟨u, herror⟩ := ptlsHpkeSetupBaseR_error kem cipher info s hexchange
        rw [herror] at hrun
        cases hrun
      | ok dh =>
        obtain ⟨ctx, -, hset⟩ := setups_agree h pkS keyex.pubkey dh info
        have hends := hset keyex host s rfl hexchange
        rw [hrun] at hends
        obtain ⟨hctx, -, hcount⟩ := hends.of_ok (by rw [hhost, haead])
        exact ⟨by simp [hctx], hcount⟩
    · intro hostS hostR s t u v pkS dh hhostS hhostR hpubkey hexchange honExchange hrunS hrunR
      obtain ⟨ctx, hsetS, hsetR⟩ := setups_agree h pkS pkR dh info
      have hendsS := hsetS hostS s hexchange
      have hendsR := hsetR keyex hostR u hpubkey honExchange
      rw [hrunS] at hendsS
      rw [hrunR] at hendsR
      obtain ⟨hctxS, hpkS, -⟩ := hendsS.of_ok (by rw [hhostS, haead])
      obtain ⟨hctxR, -, -⟩ := hendsR.of_ok (by rw [hhostR, haead])
      exact ⟨hpkS, ctx, hctxS, hctxR, fun text seq aad => ctx.decrypt_encrypt text seq aad⟩
    · intro env decoded s t hanswers hrun
      obtain ⟨tick, enc, hanswer⟩ := clientSetupEch_ok hrun
      obtain ⟨host, hhost, hcode⟩ := hanswers tick kem cipher decoded.publicKey
        (echInfoPrefix ++ decoded.bytes)
      rcases hsetup : ptlsHpkeSetupBaseS kem cipher decoded.publicKey
        (echInfoPrefix ++ decoded.bytes) host .initial with ⟨stop | _, u⟩
      · rw [hsetup] at hcode
        obtain ⟨c, rfl⟩ := ptlsHpkeSetupBaseS_returns h hsetup
        rw [hanswer] at hcode
        cases hcode
      · rw [hsetup, hanswer] at hcode
        have hctx := (hsender _ _ host .initial u hhost hsetup).1
        rwa [← (Prod.mk.inj (Except.ok.inj hcode)).2] at hctx

namespace Sample

omit [Crypto] in
theorem two_le_maxDigestSize : 2 ≤ maxDigestSize := by decide

/-- A hash algorithm with a block that has room for every digest. -/
def wideHash : HashAlgorithm where
  name := 0
  digestSize := 2
  blockSize := 64
  digestSize_pos := Nat.two_pos
  digestSize_le := two_le_maxDigestSize

/-- A KEM. -/
def wideKem : HpkeKem := ⟨32, ⟨29, 0⟩, wideHash⟩

/-- A cipher suite. -/
def wideCipher : HpkeCipherSuite := ⟨1, 1, wideHash, Picotls.Sample.aead⟩

/-- The key of a receiver. -/
def receiverKey : KeyExchangeContext := ⟨⟨29, 0⟩, [9], [8]⟩

/-- A host on which everything succeeds but making an AEAD context. -/
def poorHost : Host :=
  ⟨fun _ => true, fun _ => false, fun _ _ => .ok ([5], [6]), fun _ _ => .ok [6]⟩

/-- The environment of a client on that host. -/
def poorEnvironment : Environment :=
  { Picotls.Sample.environment with
    hpkeSetupBaseS := fun _ kem cipher pkR info =>
      match @ptlsHpkeSetupBaseS Picotls.Sample.crypto kem cipher pkR info poorHost .initial with
      | (.ok (), t) => .ok (t.pkS, t.ctx)
      | (.error (.code c), _) => .error c
      | (.error _, _) => .error 0 }

/-- A new client. -/
def newClient : Session where
  tls := newInstance Picotls.Sample.context false .clientHandshakeStart

omit [Crypto] in
theorem wide_isUsable : IsUsable wideKem wideCipher :=
  ⟨(by decide : 64 ≤ 64), (by decide : 64 ≤ 64), by decide⟩

end Sample

open Hpke.Sample

omit [Crypto] in
/-- With AEAD contexts that can be made, what fails is reported. -/
theorem hpke_setup_sample :
    IsUsable wideKem wideCipher ∧
    @ReportsFailures Picotls.Sample.crypto (fun _ => true) wideKem wideCipher [9] []
      receiverKey :=
  ⟨wide_isUsable, (@hpke_setup_iff Picotls.Sample.crypto wideKem wideCipher
    wide_isUsable (fun _ => true) [9] [] receiverKey).mpr fun _ => rfl⟩

omit [Crypto] in
/-- Without one the setup returns zero, and so does the client's setup of ECH, which then looks as
if ECH was not used. -/
theorem missing_context_accepted :
    (@ptlsHpkeSetupBaseS Picotls.Sample.crypto wideKem wideCipher [9] [] poorHost
      .initial).1 = .ok () ∧
    (@ptlsHpkeSetupBaseS Picotls.Sample.crypto wideKem wideCipher [9] [] poorHost
      .initial).2.ctx = none ∧
    (clientSetupEch {} wideKem wideCipher
      poorEnvironment newClient).1 = .ok () ∧
    (clientSetupEch {} wideKem wideCipher
      poorEnvironment newClient).2.tls.ech.aead = none :=
  ⟨rfl, rfl, rfl, rfl⟩

end Picotls.Hpke
