import Picotls.Effects.Output
import Picotls.Server.HelloMessage

/-!
# The first flight up to the decision on a retry

Before a server decides whether it asks for another hello, it has decoded the hello, settled the
cipher suite and started the key schedule. What is known at that point is collected here for the
arguments about retries.
-/

namespace Picotls

open Foundation Procedure

variable {env : Environment} {s t : Session}

variable {isSecondFlight : Bool} {message' : Bytes} {cs : CipherSuite} {ch ch' : ClientHello}
  {ctx : Context} {keyShare : Option (KeyExchangeAlgorithm × Bytes)} {src : Src} {u : Unit}
  {fuel : ℕ}

/-! ## Selections -/

/-- A decoded number fits its octets. -/
theorem Src.decodeUInt_lt {width number : ℕ} {rest : Src}
    (h : src.decodeUInt width = .ok (number, rest)) : number < 256 ^ width := by
  obtain ⟨hlength, rfl, -⟩ := Src.decodeUInt_eq_ok.mp h
  have hbound := ofBE_lt (src.data.take width)
  rwa [List.length_take, Nat.min_eq_left hlength] at hbound

/-- The smaller of two indices, where there are any. -/
def smallerIndex : Option ℕ → Option ℕ → Option ℕ
  | none, found => found
  | some i, none => some i
  | some i, some j => some (min i j)

@[simp] theorem smallerIndex_none_right (i : Option ℕ) : smallerIndex i none = i := by
  cases i <;> rfl

theorem smallerIndex_zero (j : Option ℕ) : smallerIndex j (some 0) = some 0 := by
  cases j with
  | none => rfl
  | some j => simp [smallerIndex]

theorem smallerIndex_assoc (i j k : Option ℕ) :
    smallerIndex (smallerIndex i j) k = smallerIndex i (smallerIndex j k) := by
  cases i <;> cases j <;> cases k <;> simp [smallerIndex, min_assoc]

theorem smallerIndex_comm (i j : Option ℕ) : smallerIndex i j = smallerIndex j i := by
  cases i <;> cases j <;> simp [smallerIndex, min_comm]

section

variable {candidates : List CipherSuite} {hash : Option HashAlgorithm} {id : ℕ}

/-- With preference the walk keeps the smallest matching index. -/
theorem scanCandidates_preferred (i : ℕ) (found : Option ℕ) :
    scanCandidates true hash id i found candidates = .proceed (smallerIndex
      ((candidates.findIdx? fun cs => cs.id = id ∧ cs.HasHash hash).map (· + i)) found) := by
  induction candidates generalizing i with
  | nil => rfl
  | cons cs rest ih =>
    rw [scanCandidates, List.findIdx?_cons]
    by_cases hmatch : cs.id = id ∧ cs.HasHash hash
    · rw [if_pos hmatch, if_pos rfl, if_pos (decide_eq_true hmatch), Option.map_some, Nat.zero_add]
      cases found with
      | none => rfl
      | some j =>
        by_cases hlt : i < j
        · rw [if_pos (by simpa using hlt)]
          simp [smallerIndex, Nat.min_eq_left hlt.le]
        · -- the walk goes on, but no later index is smaller
          have hle : j ≤ i := by omega
          rw [if_neg (by simpa using hle), ih]
          cases rest.findIdx? fun cs => cs.id = id ∧ cs.HasHash hash with
          | none => simp [smallerIndex, Nat.min_eq_right hle]
          | some k =>
            simp only [Option.map_some, smallerIndex, Nat.min_eq_right hle]
            rw [Nat.min_eq_right (by omega)]
    · rw [if_neg hmatch, if_neg (by simpa using hmatch), ih, Option.map_map]
      congr 3
      funext k
      simp only [Function.comp_apply]
      omega

/-- Without preference the first match is returned. -/
theorem scanCandidates_first (i : ℕ) (found : Option ℕ) :
    scanCandidates false hash id i found candidates =
      match candidates.find? fun cs => cs.id = id ∧ cs.HasHash hash with
      | some cs => .selected cs
      | none => .proceed found := by
  induction candidates generalizing i with
  | nil => rfl
  | cons cs rest ih =>
    rw [scanCandidates, List.find?_cons]
    by_cases hmatch : cs.id = id ∧ cs.HasHash hash
    · rw [if_pos hmatch, if_neg Bool.false_ne_true, decide_eq_true hmatch]
    · rw [if_neg hmatch, ih, decide_eq_false hmatch]

/-- An index that is found belongs to a candidate with the number, unless it was there before. -/
theorem scanCandidates_proceed {preferred : Bool} {found : Option ℕ} {i : ℕ}
    (h : scanCandidates preferred hash id 0 found candidates = .proceed (some i)) :
    found = some i ∨ ∀ cs, candidates[i]? = some cs → cs.id = id := by
  cases preferred with
  | false =>
    rw [scanCandidates_first] at h
    split at h
    · cases h
    · exact .inl (CandidateScan.proceed.inj h)
  | true =>
    rw [scanCandidates_preferred] at h
    have hsmaller := CandidateScan.proceed.inj h
    cases hk : candidates.findIdx? fun cs => cs.id = id ∧ cs.HasHash hash with
    | none => exact .inl (by rwa [hk] at hsmaller)
    | some k =>
      have hat (cs : CipherSuite) (hcs : candidates[k]? = some cs) : cs.id = id := by
        have hmatches := List.of_findIdx?_eq_some hk
        rw [hcs] at hmatches
        exact (of_decide_eq_true hmatches).1
      rw [hk] at hsmaller
      cases found with
      | none => exact .inr (Option.some.inj hsmaller ▸ hat)
      | some j =>
        rcases min_choice k j with hmin | hmin
        · exact .inr ((hmin.symm.trans (Option.some.inj hsmaller)) ▸ hat)
        · exact .inl (congrArg some (hmin.symm.trans (Option.some.inj hsmaller)))

/-- The selected suite is one of the candidates, and its number was read from two octets. -/
theorem selectCipherFrom_found {preference chachaPriority : Bool} {found : Option ℕ}
    {offered : Bytes}
    (hfound : ∀ i cs, found = some i → candidates[i]? = some cs → cs.id < 256 ^ 2)
    (h : selectCipherFrom candidates preference hash chachaPriority found offered = .ok cs) :
    cs ∈ candidates ∧ cs.id < 256 ^ 2 := by
  have hend {found : Option ℕ} (hfound : ∀ i cs, found = some i → candidates[i]? = some cs →
      cs.id < 256 ^ 2) (h : foundCandidate candidates found = .ok cs) :
      cs ∈ candidates ∧ cs.id < 256 ^ 2 := by
    unfold foundCandidate at h
    split at h
    case h_1 hbind =>
      cases h
      obtain ⟨i, hi, hcs⟩ := Option.bind_eq_some_iff.mp hbind
      exact ⟨List.mem_of_getElem? hcs, hfound i cs hi hcs⟩
    case h_2 => cases h
  have hproceed {id : ℕ} {preferred : Bool} {found found' : Option ℕ}
      (hfound : ∀ i cs, found = some i → candidates[i]? = some cs → cs.id < 256 ^ 2)
      (hid : id < 256 ^ 2)
      (hscan : scanCandidates preferred hash id 0 found candidates = .proceed found') (i : ℕ)
      (cs : CipherSuite) (hi : found' = some i) (hcs : candidates[i]? = some cs) :
      cs.id < 256 ^ 2 := by
    rcases scanCandidates_proceed (hi ▸ hscan) with hbefore | hnumber
    · exact hfound i cs hbefore hcs
    · exact hnumber cs hcs ▸ hid
  fun_induction selectCipherFrom candidates preference hash chachaPriority found offered with
  | case1 => exact hend hfound h
  | case2 => cases h
  | case3 chachaPriority found high low rest id preferred selected hscan =>
    cases h
    cases hpreferred : preferred with
    | true =>
      rw [hpreferred, scanCandidates_preferred] at hscan
      cases hscan
    | false =>
      rw [hpreferred, scanCandidates_first] at hscan
      split at hscan
      case h_1 hfind =>
        cases hscan
        have hmatches := List.find?_some hfind
        have hsame := (of_decide_eq_true hmatches).1
        exact ⟨List.mem_of_find?_eq_some hfind, hsame ▸ ofBE_lt [high, low]⟩
      case h_2 => cases hscan
  | case4 chachaPriority found high low rest id preferred hscan =>
    exact hend (hproceed hfound (ofBE_lt [high, low]) hscan) h
  | case5 chachaPriority found high low rest id preferred found' hscan hzero ih =>
    exact ih (hproceed hfound (ofBE_lt [high, low]) hscan) h

end

/-- A selected suite is configured, and its number fits its field. -/
theorem selectCipher_eq_ok {offered : Bytes} (h : selectCipher ctx offered = .ok cs) :
    cs ∈ ctx.cipherSuites ∧ cs.id < 256 ^ 2 :=
  selectCipherFrom_found (fun _ _ hnone => by cases hnone) h

/-- The algorithm of a selected key share is a candidate, and its number fits its field. -/
theorem selectKeyShareLoop_found {candidates : List KeyExchangeAlgorithm}
    {selected found : Option (KeyExchangeAlgorithm × Bytes)}
    (hselected : ∀ algo key, selected = some (algo, key) → algo ∈ candidates ∧ algo.id < 256 ^ 2)
    (h : selectKeyShareLoop candidates fuel selected src = .ok found) (algo : KeyExchangeAlgorithm)
    (key : Bytes) (hfound : found = some (algo, key)) : algo ∈ candidates ∧ algo.id < 256 ^ 2 := by
  induction fuel generalizing selected src with
  | zero => exact hselected algo key ((Except.ok.inj h).trans hfound)
  | succ fuel ih =>
    rw [selectKeyShareLoop] at h
    refine of_ite_eq h (fun _ h => hselected algo key ((Except.ok.inj h).trans hfound))
      fun _ h => ?_
    obtain ⟨⟨group, key', src'⟩, hentry, h⟩ := except_bind_eq_ok.mp h
    obtain ⟨⟨group', src''⟩, hgroup, hentry⟩ := except_bind_eq_ok.mp hentry
    obtain ⟨⟨key'', src'''⟩, -, hentry⟩ := except_bind_eq_ok.mp hentry
    cases hentry
    refine ih (fun algo key hsome => ?_) h
    cases selected with
    | some previous => exact hselected algo key hsome
    | none =>
      obtain ⟨found, hfind, hpair⟩ := Option.map_eq_some_iff.mp hsome
      have hid : found.id = group := by simpa using List.find?_some hfind
      cases hpair
      rw [hid]
      exact ⟨List.mem_of_find?_eq_some hfind, Src.decodeUInt_lt hgroup⟩

/-- A group to ask for is the one that its number finds, and the number fits its field. -/
theorem selectNegotiatedGroup_eq_ok {candidates : List KeyExchangeAlgorithm} {groups : Bytes}
    {algo : KeyExchangeAlgorithm} (h : selectNegotiatedGroup candidates groups = .ok algo) :
    candidates.find? (·.id = algo.id) = some algo ∧ algo.id < 256 ^ 2 := by
  have hloop {fuel : ℕ} {src : Src} {found : KeyExchangeAlgorithm}
      (h : selectNegotiatedGroupLoop candidates fuel src = .ok (some found)) :
      candidates.find? (·.id = found.id) = some found ∧ found.id < 256 ^ 2 := by
    induction fuel generalizing src with
    | zero => cases h
    | succ fuel ih =>
      rw [selectNegotiatedGroupLoop] at h
      refine of_ite_eq h (fun _ h => by cases h) fun _ h => ?_
      obtain ⟨⟨group, src'⟩, hgroup, h⟩ := except_bind_eq_ok.mp h
      cases hfind : candidates.find? (·.id = group) with
      | none =>
        simp only [hfind] at h
        exact ih h
      | some algo =>
        simp only [hfind] at h
        cases h
        have hid : found.id = group := by simpa using List.find?_some hfind
        rw [hid]
        exact ⟨hfind, Src.decodeUInt_lt hgroup⟩
  obtain ⟨⟨block, rest⟩, -, h⟩ := except_bind_eq_ok.mp h
  obtain ⟨found, hfound, h⟩ := except_bind_eq_ok.mp h
  cases found with
  | none =>
    obtain ⟨_, -, h⟩ := except_bind_eq_ok.mp h
    cases h
  | some found =>
    cases h
    exact hloop hfound

/-! ## Reading a hello -/

section Reading

variable [Crypto] {message : Bytes} {properties : Option HandshakeProperties}

instance (message : Bytes) (properties : Option HandshakeProperties) :
    Respects SameOutput (serverReadHello message properties) := by
  unfold serverReadHello
  dsimp only
  infer_instance

/-- A hello is read, and then the server decides on a retry. -/
theorem serverHandleHello_run (emitter : Emitter) :
    serverHandleHello emitter message properties env s =
      (serverReadHello message properties >>= fun (message, ch, keyShare) =>
        serverDecideRetry emitter message ch keyShare
          (s.tls.state = .serverExpectSecondClientHello) properties) env s :=
  getTls_bind _

/-- A second hello that is read does not offer early data. -/
theorem serverReadHello_second {message' : Bytes}
    (hsecond : s.tls.state = .serverExpectSecondClientHello)
    (h : serverReadHello message properties env s = (.ok (message', ch, keyShare), t)) :
    ch.earlyDataIndication = false := by
  rw [serverReadHello, getTls_bind] at h
  simp only [hsecond, if_true, decide_true] at h
  obtain ⟨_, s₁, -, h⟩ := bind_eq_ok.mp h
  obtain ⟨ch₁, s₂, -, h⟩ := bind_eq_ok.mp h
  obtain ⟨_, s₃, -, h⟩ := bind_eq_ok.mp h
  obtain ⟨_, s₄, -, h⟩ := bind_eq_ok.mp h
  obtain ⟨⟨message₁, ch₂⟩, s₅, -, h⟩ := bind_eq_ok.mp h
  rw [getTls_bind] at h
  obtain ⟨_, s₆, hadmit, h⟩ := bind_eq_ok.mp h
  obtain ⟨_, s₇, -, h⟩ := bind_eq_ok.mp h
  obtain ⟨keyShare', s₈, -, h⟩ := bind_eq_ok.mp h
  cases h
  rw [serverAdmitHello] at hadmit
  simp only [Bool.not_true, Bool.false_eq_true, if_false] at hadmit
  obtain ⟨_, s₉, hindication, -⟩ := bind_eq_ok.mp hadmit
  simpa using (throwIf_eq_ok.mp hindication).1

omit [Crypto] in
/-- A hello without some key-exchange modes is as well-formed. -/
theorem ClientHello.WellFormed.allowed (h : ch.WellFormed properties) (ctx : Context) :
    (allowedPskKeModes ctx ch).WellFormed properties := by
  unfold allowedPskKeModes
  split_ifs
  · exact h.of_eq rfl rfl rfl
  · exact h

omit [Crypto] in
/-- A hello that passes the checks has the supported version, and the checks change nothing. -/
theorem checkClientHelloConstraints_eq_ok {prevRandom : Option Bytes} {echIsInnerCh : Bool}
    (h : checkClientHelloConstraints ch prevRandom echIsInnerCh message env s = (.ok u, t)) :
    t.tls = s.tls ∧ ch.selectedVersion = protocolVersionTls13 := by
  rw [checkClientHelloConstraints] at h
  obtain ⟨_, s₁, hrandom, h⟩ := bind_eq_ok.mp h
  obtain ⟨_, s₂, hversion, h⟩ := bind_eq_ok.mp h
  obtain ⟨_, s₃, hlegacy, h⟩ := bind_eq_ok.mp h
  obtain ⟨_, s₄, hcompression, h⟩ := bind_eq_ok.mp h
  obtain ⟨_, s₅, hpsk, hech⟩ := bind_eq_ok.mp h
  obtain ⟨-, rfl⟩ := throwIf_eq_ok.mp hlegacy
  obtain ⟨-, rfl⟩ := throwIf_eq_ok.mp hcompression
  obtain ⟨-, rfl⟩ := throwIf_eq_ok.mp hpsk
  obtain ⟨-, rfl⟩ := throwIf_eq_ok.mp hech
  have hsame : s₁.tls = s.tls := by
    cases prevRandom with
    | none =>
      cases hrandom
      rfl
    | some random => rw [(throwIf_eq_ok.mp hrandom).2]
  by_cases hsupported : ch.selectedVersion = protocolVersionTls13
  · rw [runIf, if_neg (not_not.mpr hsupported)] at hversion
    cases hversion
    exact ⟨hsame, hsupported⟩
  · rw [runIf, if_pos hsupported, refuseVersion] at hversion
    obtain ⟨_, s₆, -, hversion⟩ := bind_eq_ok.mp hversion
    obtain ⟨_, s₇, -, hversion⟩ := bind_eq_ok.mp hversion
    cases hversion

omit [Crypto] in
/-- Steps that concern ECH and the output change nothing else of the connection. -/
theorem Steps.only_ech (h : Via [.io, .ech, .refuse] s t) :
    t.tls = { s.tls with ech := t.tls.ech } := by
  refine h.preserves (P := fun u => u.tls = { s.tls with ech := u.tls.ech }) ?_ rfl
  intro e he u v hstep hu
  cases hstep with
  | io | refuse => exact hu
  | ech =>
    dsimp only
    rw [hu]
  | _ => simp at he

/-- The hello to continue with is the given one, or an inner one that has been decoded and checked
after ECH has been accepted. Nothing but the state of ECH changes. -/
theorem serverHandleEch_eq_ok
    (h : serverHandleEch message ch isSecondFlight properties env s = (.ok (message', ch'), t)) :
    t.tls = { s.tls with ech := t.tls.ech } ∧
      (message' = message ∧ ch' = ch ∨ t.tls.ech.state = .accepted ∧
        ∃ u v, decodeClientHello message' properties env u = (.ok ch', v) ∧
          ch'.selectedVersion = protocolVersionTls13) := by
  have honly {u v : Session} (hu : u.tls = { s.tls with ech := u.tls.ech })
      (hv : v.tls = { u.tls with ech := v.tls.ech }) : v.tls = { s.tls with ech := v.tls.ech } := by
    rw [hv, hu]
  have hadopt {encoded : Bytes} {u v : Session} (hu : u.tls = { s.tls with ech := u.tls.ech })
      (h : serverAdoptInnerHello encoded message ch isSecondFlight properties env u =
        (.ok (message', ch'), v)) : v.tls = { s.tls with ech := v.tls.ech } ∧
        (message' = message ∧ ch' = ch ∨ v.tls.ech.state = .accepted ∧
          ∃ u v, decodeClientHello message' properties env u = (.ok ch', v) ∧
            ch'.selectedVersion = protocolVersionTls13) := by
    rw [serverAdoptInnerHello] at h
    obtain ⟨_, s₁, hmodify, h⟩ := bind_eq_ok.mp h
    obtain ⟨⟨_, inner⟩, s₂, hrebuild, h⟩ := bind_eq_ok.mp h
    obtain ⟨ch₁, s₃, hdecode, h⟩ := bind_eq_ok.mp h
    rw [getTls_bind] at h
    obtain ⟨_, s₄, hcheck, h⟩ := bind_eq_ok.mp h
    obtain ⟨_, s₅, hrandom, h⟩ := bind_eq_ok.mp h
    cases h
    obtain ⟨hchecked, hversion⟩ := checkClientHelloConstraints_eq_ok hcheck
    have hbefore : Via [.io, .ech, .refuse] u s₃ :=
      ((Within.steps inferInstance hmodify).trans (Within.steps inferInstance hrebuild)).trans
        (Within.steps inferInstance hdecode)
    have hafter : Via [.io, .ech, .refuse] s₄ v := Within.steps inferInstance hrandom
    have hsame : v.tls = { s₃.tls with ech := v.tls.ech } := by
      rw [← hchecked]
      exact Steps.only_ech hafter
    have haccepted : v.tls.ech.state = .accepted := by
      have hs₁ : s₁.tls.ech.state = .accepted := by
        cases hmodify
        rfl
      have hs₄ : s₄.tls = s₁.tls := by
        have hquiet : Within [.io] (withBuffer [] (rebuildChInner encoded ch
            (Src.ofMessage message (handshakeHeaderSize + ch.firstExtensionAt)))) := inferInstance
        rw [hchecked, tls_eq_of_run hdecode (by decide), hquiet.tls_eq hrebuild (by decide)]
      rw [← hs₄] at hs₁
      cases isSecondFlight <;> cases hrandom <;> exact hs₁
    exact ⟨honly (honly hu (Steps.only_ech hbefore)) hsame,
      .inr ⟨haccepted, s₂, s₃, hdecode, hversion⟩⟩
  rw [serverHandleEch] at h
  cases hech : ch.ech with
  | none =>
    simp only [hech] at h
    rw [getTls_bind] at h
    obtain ⟨_, s₁, hrefuse, h⟩ := bind_eq_ok.mp h
    cases h
    exact ⟨Steps.only_ech (Within.steps inferInstance hrefuse), .inl ⟨rfl, rfl⟩⟩
  | some kind =>
    cases kind with
    | inner =>
      simp only [hech] at h
      cases h
    | outer kdf aead configId enc payload payloadOff =>
      simp only [hech] at h
      obtain ⟨_, s₁, hopener, h⟩ := bind_eq_ok.mp h
      have hs₁ := Steps.only_ech (Within.steps inferInstance hopener)
      rw [getTls_bind] at h
      cases haead : s₁.tls.ech.aead with
      | none =>
        simp only [haead] at h
        cases h
        exact ⟨hs₁, .inl ⟨rfl, rfl⟩⟩
      | some aead =>
        simp only [haead] at h
        rw [serverOpenEch] at h
        obtain ⟨_, s₂, hshort, h⟩ := bind_eq_ok.mp h
        obtain ⟨_, s₃, halloc, h⟩ := bind_eq_ok.mp h
        obtain ⟨_, s₄, halloc', h⟩ := bind_eq_ok.mp h
        have hs₄ : s₄.tls = s₁.tls := by
          rw [(allocate_eq_ok.mp halloc').2, (allocate_eq_ok.mp halloc).2,
            (throwIf_eq_ok.mp hshort).2]
        rw [← hs₄] at hs₁
        generalize aead.decrypt payload _ _ = opened at h
        cases opened with
        | some encoded => exact hadopt hs₁ h
        | none =>
          obtain ⟨_, s₅, hsecond, h⟩ := bind_eq_ok.mp h
          obtain ⟨_, s₆, hmodify, h⟩ := bind_eq_ok.mp h
          cases h
          rw [← (throwIf_eq_ok.mp hsecond).2] at hs₁
          exact ⟨honly hs₁ (Steps.only_ech (Within.steps inferInstance hmodify)), .inl ⟨rfl, rfl⟩⟩

/-- The hello to continue with is well-formed, be it the outer or the inner one. -/
theorem serverHandleEch_wellFormed (hch : ch.WellFormed properties)
    (h : serverHandleEch message ch isSecondFlight properties env s = (.ok (message', ch'), t)) :
    ch'.WellFormed properties := by
  obtain ⟨-, ⟨-, rfl⟩ | ⟨-, u, v, hdecode, -⟩⟩ := serverHandleEch_eq_ok h
  · exact hch
  · exact (decodeClientHello_decodedFrom hdecode).toWellFormed

/-- The key share of a hello that the server selects, if both sides exchange keys. -/
def ClientHello.selectedKeyShare (ctx : Context) (ch : ClientHello) :
    Except Fault (Option (KeyExchangeAlgorithm × Bytes)) :=
  match ch.keyShares, ctx.keyExchanges with
  | some keyShares, some algos => selectKeyShare algos keyShares
  | _, _ => .ok none

/-- The context and the name of a connection after the application has seen a first hello. -/
def Tls.admitted (tls : Tls) (answer : OnClientHelloAnswer) : Context × Option Bytes :=
  if tls.ctx.onClientHello then
    (answer.context.getD tls.ctx, answer.serverName.map cString <|> tls.serverName)
  else (tls.ctx, tls.serverName)

/-- What is known when a first hello has been read. -/
structure HelloRead (properties : Option HandshakeProperties) (s t : Session) (ch : ClientHello)
    (keyShare : Option (KeyExchangeAlgorithm × Bytes)) (suite : CipherSuite) : Prop where
  hello : ch.WellFormed properties
  cipherSuite : t.tls.cipherSuite = some suite
  selected : selectCipher t.tls.ctx ch.cipherSuites = .ok suite
  schedule : t.tls.keySchedule = some { hashes := [{ algo := suite.hash }] }
  version : ch.selectedVersion = protocolVersionTls13
  shares : ch.selectedKeyShare t.tls.ctx = .ok keyShare
  enc : t.tls.enc = s.tls.enc
  sendbuf : t.sendbuf = s.sendbuf
  epochOffsets : t.epochOffsets = s.epochOffsets
  trace : t.trace = s.trace

omit [Crypto] in
/-- In a first flight a suite is selected and the key schedule is started for its hash. -/
theorem serverSelectCipher_first (h : serverSelectCipher ch false env s = (.ok u, t)) :
    ∃ suite, selectCipher s.tls.ctx ch.cipherSuites = .ok suite ∧
      t.tls = { s.tls with
        cipherSuite := some suite
        keySchedule := some { hashes := [{ algo := suite.hash }] } } := by
  rw [serverSelectCipher, getTls_bind] at h
  obtain ⟨suite, s₁, hselect, h⟩ := bind_eq_ok.mp h
  obtain ⟨hselect, rfl⟩ := liftM_eq_ok.mp hselect
  refine ⟨suite, hselect, ?_⟩
  rw [Bool.not_false, if_pos rfl, modifyTls_bind] at h
  obtain ⟨sched, s₂, hnew, h⟩ := bind_eq_ok.mp h
  rw [keyScheduleNew] at hnew
  obtain ⟨_, s₃, halloc, hnew⟩ := bind_eq_ok.mp hnew
  obtain ⟨-, rfl⟩ := allocate_eq_ok.mp halloc
  cases hnew
  cases h
  rfl

omit [Crypto] in
/-- The selected key share is that of the hello. -/
theorem serverSelectKeyShare_eq_ok :
    serverSelectKeyShare ch env s = (.ok keyShare, t) ↔
      ch.selectedKeyShare s.tls.ctx = .ok keyShare ∧ t = s := by
  rw [serverSelectKeyShare, getTls_bind, ClientHello.selectedKeyShare]
  cases ch.keyShares with
  | none => simp [eq_comm]
  | some keyShares =>
    cases s.tls.ctx.keyExchanges with
    | none => simp [eq_comm]
    | some algos => exact liftM_eq_ok

omit [Crypto] in
/-- The algorithm of the selected key share is configured, and its number fits its field. -/
theorem selectedKeyShare_found (h : ch.selectedKeyShare ctx = .ok keyShare)
    (algo : KeyExchangeAlgorithm) (key : Bytes) (hsome : keyShare = some (algo, key)) :
    algo ∈ ctx.keyExchanges.getD [] ∧ algo.id < 256 ^ 2 := by
  rw [ClientHello.selectedKeyShare] at h
  cases hshares : ch.keyShares with
  | none =>
    simp only [hshares] at h
    cases h
    cases hsome
  | some keyShares =>
    cases halgos : ctx.keyExchanges with
    | none =>
      simp only [hshares, halgos] at h
      cases h
      cases hsome
    | some algos =>
      simp only [hshares, halgos] at h
      obtain ⟨⟨block, rest⟩, -, h⟩ := except_bind_eq_ok.mp h
      obtain ⟨found, hloop, h⟩ := except_bind_eq_ok.mp h
      obtain ⟨_, -, h⟩ := except_bind_eq_ok.mp h
      cases h
      exact selectKeyShareLoop_found (fun _ _ hnone => by cases hnone) hloop algo key hsome

/-- The steps in which a first hello is read. -/
structure ReadsHello (env : Environment) (message : Bytes)
    (properties : Option HandshakeProperties) (s : Session) (message' : Bytes) (ch : ClientHello)
    (keyShare : Option (KeyExchangeAlgorithm × Bytes)) (t : Session) (decoding decoded checked
    opened admitted : Session) (outerCh innerCh : ClientHello) (suite : CipherSuite) : Prop where
  decode : decodeClientHello message properties env decoding = (.ok outerCh, decoded)
  version : outerCh.selectedVersion = protocolVersionTls13
  tls : checked.tls = { s.tls with clientRandom := outerCh.randomBytes }
  openEch : serverHandleEch message outerCh false properties env checked =
    (.ok (message', innerCh), opened)
  allowed : ch = allowedPskKeModes opened.tls.ctx innerCh
  admission : serverAdmitHello message' ch false env opened = (.ok (), admitted)
  selected : selectCipher t.tls.ctx ch.cipherSuites = .ok suite
  settled : t.tls = { admitted.tls with
    cipherSuite := some suite, keySchedule := some { hashes := [{ algo := suite.hash }] } }
  shares : ch.selectedKeyShare t.tls.ctx = .ok keyShare

/-- A first hello that is read goes through all steps. -/
theorem serverReadHello_eq_ok (hfirst : s.tls.state ≠ .serverExpectSecondClientHello)
    (h : serverReadHello message properties env s = (.ok (message', ch, keyShare), t)) :
    ∃ decoding decoded checked opened admitted outerCh innerCh suite,
      ReadsHello env message properties s message' ch keyShare t decoding decoded checked opened
        admitted outerCh innerCh suite := by
  rw [serverReadHello, getTls_bind] at h
  simp only [hfirst, if_false, decide_false] at h
  obtain ⟨_, s₁, halloc, h⟩ := bind_eq_ok.mp h
  obtain ⟨ch₁, s₂, hdecode, h⟩ := bind_eq_ok.mp h
  obtain ⟨_, s₃, hcheck, h⟩ := bind_eq_ok.mp h
  obtain ⟨_, s₄, hrandom, h⟩ := bind_eq_ok.mp h
  obtain ⟨⟨message₁, ch₂⟩, s₅, hech, h⟩ := bind_eq_ok.mp h
  rw [getTls_bind] at h
  obtain ⟨_, s₆, hadmit, h⟩ := bind_eq_ok.mp h
  obtain ⟨_, s₇, hcipher, h⟩ := bind_eq_ok.mp h
  obtain ⟨keyShare', s₈, hkeyShare, h⟩ := bind_eq_ok.mp h
  cases h
  obtain ⟨hchecked, hversion⟩ := checkClientHelloConstraints_eq_ok hcheck
  obtain ⟨hshares, rfl⟩ := serverSelectKeyShare_eq_ok.mp hkeyShare
  obtain ⟨suite, hselect, htls⟩ := serverSelectCipher_first hcipher
  refine ⟨s₁, s₂, s₄, s₅, s₆, ch₁, ch₂, suite, hdecode, hversion, ?_, hech, rfl, hadmit, ?_, htls,
    hshares⟩
  · have hs₃ : s₃.tls = s.tls := by
      rw [hchecked, tls_eq_of_run hdecode (by decide), (allocate_eq_ok.mp halloc).2]
    rw [← hs₃]
    cases hrandom
    rfl
  · rw [htls]
    exact hselect

/-- Reading a first hello selects a suite and starts the key schedule, and sends nothing. -/
theorem serverReadHello_first (hfirst : s.tls.state ≠ .serverExpectSecondClientHello)
    (h : serverReadHello message properties env s = (.ok (message', ch, keyShare), t)) :
    ∃ suite, HelloRead properties s t ch keyShare suite := by
  have hsteps : Via [.io, .schedule, .names, .negotiation, .suite, .ech, .misc,
      .context, .refuse] s t := Within.steps inferInstance h
  have houtput : SameOutput s t := Respects.run h
  have henc : t.tls.enc = s.tls.enc := by
    refine hsteps.preserves (P := fun u => u.tls.enc = s.tls.enc) ?_ rfl
    intro e he u v hstep hu
    cases hstep <;> first | exact hu | simp at he
  have htrace : t.trace = s.trace := by
    refine hsteps.preserves (P := fun u => u.trace = s.trace) ?_ rfl
    intro e he u v hstep hu
    cases hstep <;> first | exact hu | simp at he
  obtain ⟨_, _, _, opened, _, outerCh, innerCh, suite, hread⟩ := serverReadHello_eq_ok hfirst h
  have hinner := serverHandleEch_wellFormed
    (decodeClientHello_decodedFrom hread.decode).toWellFormed hread.openEch
  have hversion : innerCh.selectedVersion = protocolVersionTls13 := by
    obtain ⟨-, ⟨-, hsame⟩ | ⟨-, u, v, -, hversion⟩⟩ := serverHandleEch_eq_ok hread.openEch
    · rw [hsame]
      exact hread.version
    · exact hversion
  have hallowed : ch = allowedPskKeModes opened.tls.ctx innerCh := hread.allowed
  refine ⟨suite, ?_, ?_, hread.selected, ?_, ?_, hread.shares, henc, houtput.1, houtput.2, htrace⟩
  · rw [hallowed]
    exact hinner.allowed _
  · rw [hread.settled]
  · rw [hread.settled]
  · rw [hallowed, ← hversion]
    unfold allowedPskKeModes
    split_ifs <;> rfl

omit [Crypto] in
/-- The application sets the name of a connection and may replace its context. -/
theorem callOnClientHello_admits {params : OnClientHelloParameters}
    (h : callOnClientHello params env s = (.ok u, t)) :
    (t.tls.ctx, t.tls.serverName) = s.tls.admitted (env.onClientHello s.tick params) := by
  rw [callOnClientHello, getTls_bind, runIf] at h
  rw [Tls.admitted]
  cases hcall : s.tls.ctx.onClientHello with
  | false =>
    rw [hcall, if_neg Bool.false_ne_true] at h
    cases h
    rfl
  | true =>
    rw [hcall, if_pos rfl, ask_bind, modifyTls_bind, checkCode] at h
    by_cases hret : (env.onClientHello s.tick params).ret = 0
    · rw [if_pos hret] at h
      cases h
      rfl
    · rw [if_neg hret] at h
      cases h

omit [Crypto] in
/-- A first hello is shown to the application. -/
theorem serverAdmitHello_admits (h : serverAdmitHello message ch false env s = (.ok u, t)) :
    ∃ tick, (t.tls.ctx, t.tls.serverName) =
      s.tls.admitted (env.onClientHello tick (helloParameters ch message)) := by
  rw [serverAdmitHello, Bool.not_false, if_pos rfl] at h
  obtain ⟨_, s₁, hsession, h⟩ := bind_eq_ok.mp h
  obtain ⟨_, s₂, hcall, h⟩ := bind_eq_ok.mp h
  rw [getTls_bind] at h
  obtain ⟨-, rfl⟩ := throwIf_eq_ok.mp h
  have hsame : s.tls.admitted = s₁.tls.admitted := by
    rw [runIf] at hsession
    split_ifs at hsession <;> cases hsession <;> rfl
  exact ⟨s₁.tick, hsame ▸ callOnClientHello_admits hcall⟩

/-- Reading a first hello, the application is asked once about the name and the context. -/
theorem serverReadHello_admits (hfirst : s.tls.state ≠ .serverExpectSecondClientHello)
    (h : serverReadHello message properties env s = (.ok (message', ch, keyShare), t)) :
    ∃ tick, (t.tls.ctx, t.tls.serverName) =
      s.tls.admitted (env.onClientHello tick (helloParameters ch message')) := by
  obtain ⟨_, _, _, opened, _, _, _, _, hread⟩ := serverReadHello_eq_ok hfirst h
  have hopened : opened.tls.admitted = s.tls.admitted := by
    rw [(serverHandleEch_eq_ok hread.openEch).1, hread.tls]
    rfl
  obtain ⟨tick, hadmitted⟩ := serverAdmitHello_admits hread.admission
  refine ⟨tick, ?_⟩
  rw [hread.settled, ← hopened]
  exact hadmitted

/-- Unless ECH is accepted, the server goes on with the message that it got. -/
theorem serverReadHello_message (hfirst : s.tls.state ≠ .serverExpectSecondClientHello)
    (h : serverReadHello message properties env s = (.ok (message', ch, keyShare), t))
    (hech : t.tls.ech.state ≠ .accepted) : message' = message := by
  obtain ⟨_, _, _, opened, admitted, _, _, _, hread⟩ := serverReadHello_eq_ok hfirst h
  obtain ⟨-, ⟨hsame, -⟩ | ⟨haccepted, -⟩⟩ := serverHandleEch_eq_ok hread.openEch
  · exact hsame
  · have hsteps : Via [.io, .names, .negotiation, .misc, .context] opened admitted :=
      Within.steps inferInstance hread.admission
    have hkeeps : admitted.tls.ech = opened.tls.ech := Steps.ech_eq hsteps (by decide)
    rw [← hkeeps] at haccepted
    rw [hread.settled] at hech
    exact absurd haccepted hech

end Reading

end Picotls
