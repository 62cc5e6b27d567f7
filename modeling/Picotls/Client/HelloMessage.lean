import Picotls.Effects.Client

/-!
# The fields of a hello

What a ServerHello or HelloRetryRequest says can be read off its octets without the state of the
connection: its random value, the cipher suite it names, and the types of its extensions. A hello
that the client decodes has exactly these fields.
-/

namespace Picotls

open Foundation Procedure

variable {isRetry : Bool} {message : Bytes} {hstype : ExtensionCarrier} {types : List ℕ}
  {acc acc' : ServerHelloExtensions} {block left rest src : Src} {exttype : ℕ}

/-! ## Fields -/

/-- The random value of a hello. -/
def helloRandom (message : Bytes) : Bytes :=
  ((message.drop handshakeHeaderSize).drop 2).take helloRandomSize

/-- The hello is a HelloRetryRequest. -/
def helloIsRetry (message : Bytes) : Bool := helloRandom message = helloRetryRandom

/-- The octets of a hello from its session identifier on. -/
def helloSession (message : Bytes) : Bytes :=
  ((message.drop handshakeHeaderSize).drop 2).drop helloRandomSize

/-- The octets of a hello from its cipher suite on. -/
def helloTail (message : Bytes) : Bytes :=
  ((helloSession message).drop 1).drop (ofBE ((helloSession message).take 1))

/-- The number of the cipher suite that a hello names. -/
def helloCipherSuiteId (message : Bytes) : ℕ := ofBE ((helloTail message).take 2)

/-- The cipher suite that a hello of the server names. -/
def helloSuite (ctx : Context) (message : Bytes) : Option CipherSuite :=
  findCipherSuite (some ctx.cipherSuites) (helloCipherSuiteId message)

/-- The hashes of the suites that the hellos of a history name. -/
def helloHashes (ctx : Context) (trace : List Event) : List HashAlgorithm :=
  trace.filterMap fun event => match event with
    | .hello message => (helloSuite ctx message).map CipherSuite.hash
    | _ => none

theorem hash_mem_helloHashes {ctx : Context} {trace : List Event} {cs : CipherSuite}
    (hmem : .hello message ∈ trace) (hcs : helloSuite ctx message = some cs) :
    cs.hash ∈ helloHashes ctx trace :=
  List.mem_filterMap.mpr ⟨_, hmem, by simp [hcs]⟩

/-- The types of the extensions in a list of them. -/
def extensionTypes : ℕ → Bytes → List ℕ
  | 0, _ => []
  | fuel + 1, data =>
    if data = [] then []
    else ofBE (data.take 2) ::
      extensionTypes fuel (((data.drop 2).drop 2).drop (ofBE ((data.drop 2).take 2)))

/-- The extension block of a hello, behind the cipher suite and the compression method. -/
def helloExtensionBlock (message : Bytes) : Bytes :=
  let octets := ((helloTail message).drop 2).drop 1
  (octets.drop 2).take (ofBE (octets.take 2))

/-- The types of the extensions of a hello. -/
def helloExtensionTypes (message : Bytes) : List ℕ :=
  extensionTypes (helloExtensionBlock message).length (helloExtensionBlock message)

/-! ## Decoders -/

variable {β : Type} {env : Environment} {s t : Session}

theorem Src.decodeUInt_eq_ok {width value : ℕ} :
    src.decodeUInt width = .ok (value, rest) ↔ width ≤ src.data.length ∧
      value = ofBE (src.data.take width) ∧ rest = ⟨src.off + width, src.data.drop width⟩ := by
  unfold Src.decodeUInt
  split_ifs with hshort
  · simp [hshort]
  · simp [Nat.not_lt.mp hshort, eq_comm]

theorem Src.decodeBytes_eq_ok {len : ℕ} {octets : Bytes} :
    src.decodeBytes len = .ok (octets, rest) ↔ len ≤ src.data.length ∧
      octets = src.data.take len ∧ rest = ⟨src.off + len, src.data.drop len⟩ := by
  unfold Src.decodeBytes
  split_ifs with hshort
  · simp [hshort]
  · simp [Nat.not_lt.mp hshort, eq_comm]

theorem Src.decodeOpenBlock_eq_ok {capacity : ℕ}
    (h : src.decodeOpenBlock capacity = .ok (block, rest)) :
    block = ⟨src.off + capacity, (src.data.drop capacity).take (ofBE (src.data.take capacity))⟩ ∧
      rest = ⟨src.off + capacity + ofBE (src.data.take capacity),
        (src.data.drop capacity).drop (ofBE (src.data.take capacity))⟩ := by
  unfold Src.decodeOpenBlock at h
  dsimp only at h
  split_ifs at h
  cases h
  exact ⟨rfl, rfl⟩

theorem Src.decode8_eq_ok {octet : UInt8} (h : src.decode8 = .ok (octet, rest)) :
    rest.data = src.data.drop 1 := by
  unfold Src.decode8 at h
  split at h <;> cases h
  simp [*]

/-! ## Parts of a message -/

/-- The octets of a source stand in the message at its offset. -/
def Src.IsPart (message : Bytes) (src : Src) : Prop := src.data <+: message.drop src.off

/-- The octets from an offset on are a part of the message. -/
theorem Src.ofMessage_isPart (message : Bytes) (off : ℕ) :
    (Src.ofMessage message off).IsPart message :=
  List.prefix_rfl

theorem Src.exists_isPart (src : Src) : ∃ message, src.IsPart message :=
  ⟨zeros src.off ++ src.data, by simp [Src.IsPart, List.drop_left']⟩

/-- What is left of a part is a part. -/
theorem Src.IsPart.drop (h : src.IsPart message) (n : ℕ) :
    Src.IsPart message ⟨src.off + n, src.data.drop n⟩ := by
  obtain ⟨after, hafter⟩ := h
  refine ⟨after.drop (n - src.data.length), ?_⟩
  rw [← List.drop_append, hafter, List.drop_drop]

/-- The first octets of a part are a part. -/
theorem Src.IsPart.take (h : src.IsPart message) (n : ℕ) :
    Src.IsPart message ⟨src.off, src.data.take n⟩ :=
  (List.take_prefix n src.data).trans h

/-- A part that is as long as the octets read there is what is read. -/
theorem Src.IsPart.read_eq (h : src.IsPart message) :
    (message.drop src.off).take src.data.length = src.data :=
  (List.prefix_iff_eq_take.mp h).symm

/-- What follows a number in a part is a part. -/
theorem Src.IsPart.decodeUInt {width number : ℕ} (h : src.IsPart message)
    (hread : src.decodeUInt width = .ok (number, rest)) : rest.IsPart message := by
  obtain ⟨-, -, rfl⟩ := Src.decodeUInt_eq_ok.mp hread
  exact h.drop width

/-- What follows octets in a part is a part. -/
theorem Src.IsPart.decodeBytes {octets : Bytes} {len : ℕ} (h : src.IsPart message)
    (hread : src.decodeBytes len = .ok (octets, rest)) : rest.IsPart message := by
  obtain ⟨-, -, rfl⟩ := Src.decodeBytes_eq_ok.mp hread
  exact h.drop len

/-- A block in a part is a part, and so is what follows it. -/
theorem Src.IsPart.decodeOpenBlock {capacity : ℕ} (h : src.IsPart message)
    (hread : src.decodeOpenBlock capacity = .ok (block, rest)) :
    block.IsPart message ∧ rest.IsPart message := by
  obtain ⟨rfl, rfl⟩ := Src.decodeOpenBlock_eq_ok hread
  exact ⟨(h.drop capacity).take _, (h.drop capacity).drop _⟩

/-! ## Lists of extensions -/

/-- A relation between the types read so far and the accumulator that every extension keeps holds
when the list has been read. -/
theorem decodeExtensionList_ok {body : β → ℕ → Src → Proc (β × Src)} {P : List ℕ → β → Prop}
    (hbody : ∀ types acc acc' exttype block left s t,
      body acc exttype block env s = (.ok (acc', left), t) → block.IsPart message →
        P types acc → P (types ++ [exttype]) acc')
    {fuel : ℕ} {seen : List ℕ} (types : List ℕ) {acc acc' : β}
    (h : decodeExtensionList hstype body fuel seen src acc env s = (.ok acc', t))
    (hsrc : src.IsPart message) (hacc : P types acc) :
    P (types ++ extensionTypes fuel src.data) acc' := by
  induction fuel generalizing seen types src acc s with
  | zero =>
    cases h
    simpa [extensionTypes] using hacc
  | succ fuel ih =>
    unfold decodeExtensionList at h
    unfold extensionTypes
    split_ifs at h ⊢ with hempty
    · cases h
      simpa using hacc
    obtain ⟨⟨exttype, src₁⟩, s₁, htype, h⟩ := bind_eq_ok.mp h
    have hsrc₁ := hsrc.decodeUInt (congrArg Prod.fst htype)
    obtain ⟨-, rfl, rfl⟩ := Src.decodeUInt_eq_ok.mp (congrArg Prod.fst htype)
    cases htest : extensionBitmapTestAndSet seen hstype (ofBE (src.data.take 2)) with
    | none =>
      simp only [htest] at h
      cases h
    | some seen' =>
      simp only [htest] at h
      obtain ⟨⟨block, rest⟩, s₂, hblock, h⟩ := bind_eq_ok.mp h
      obtain ⟨hpart, hrest⟩ := hsrc₁.decodeOpenBlock (congrArg Prod.fst hblock)
      obtain ⟨rfl, rfl⟩ := Src.decodeOpenBlock_eq_ok (congrArg Prod.fst hblock)
      obtain ⟨⟨acc₁, left⟩, s₃, hrun, h⟩ := bind_eq_ok.mp h
      obtain ⟨_, s₄, -, h⟩ := bind_eq_ok.mp h
      simpa using ih _ h hrest (hbody _ _ _ _ _ _ _ _ hrun hpart hacc)

/-! ## The client's decoder -/

/-- What the extensions read so far say about the result. -/
structure HelloExtensionsRead (isRetry : Bool) (types : List ℕ) (acc : ServerHelloExtensions) :
    Prop where
  isRetry_eq : acc.sh.isRetryRequest = isRetry
  peerkey : acc.sh.peerkey.isSome ↔ isRetry = false ∧ ExtensionType.keyShare ∈ types
  echOff : acc.sh.echOff.isSome ↔ ExtensionType.encryptedClientHello ∈ types
  identity : acc.selectedPskIdentity ≠ uint16Max → ExtensionType.preSharedKey ∈ types

/-- An extension of another type changes none of it. -/
theorem HelloExtensionsRead.other (h : HelloExtensionsRead isRetry types acc)
    (hkeyShare : exttype ≠ ExtensionType.keyShare)
    (hech : exttype ≠ ExtensionType.encryptedClientHello)
    (hretry' : acc'.sh.isRetryRequest = acc.sh.isRetryRequest)
    (hpeerkey' : acc'.sh.peerkey = acc.sh.peerkey) (hech' : acc'.sh.echOff = acc.sh.echOff)
    (hidentity' : exttype ≠ ExtensionType.preSharedKey →
      acc'.selectedPskIdentity = acc.selectedPskIdentity) :
    HelloExtensionsRead isRetry (types ++ [exttype]) acc' where
  isRetry_eq := hretry'.trans h.isRetry_eq
  peerkey := by
    rw [hpeerkey', h.peerkey]
    simp [hkeyShare.symm]
  echOff := by
    rw [hech', h.echOff]
    simp [hech.symm]
  identity hne := by
    by_cases hpsk : exttype = ExtensionType.preSharedKey
    · simp [hpsk]
    · rw [hidentity' hpsk] at hne
      exact List.mem_append_left _ (h.identity hne)

/-- The key share of a ServerHello. -/
theorem decodeServerKeyShare_read (h : decodeServerKeyShare acc block env s = (.ok (acc', left), t))
    (hacc : HelloExtensionsRead isRetry types acc) :
    HelloExtensionsRead isRetry (types ++ [ExtensionType.keyShare]) acc' := by
  unfold decodeServerKeyShare at h
  obtain ⟨tls, s₁, -, h⟩ := bind_eq_ok.mp h
  obtain ⟨_, s₂, -, h⟩ := bind_eq_ok.mp h
  have hretry := hacc.isRetry_eq
  split_ifs at h with hflag
  · obtain ⟨⟨group, rest⟩, s₃, -, h⟩ := bind_eq_ok.mp h
    cases h
    have hisRetry : isRetry = true := hretry.symm.trans hflag
    refine ⟨hretry, ?_, ?_, fun hne => List.mem_append_left _ (hacc.identity hne)⟩
    · simpa [hisRetry] using hacc.peerkey
    · simpa using hacc.echOff
  · obtain ⟨⟨group, key, rest⟩, s₃, -, h⟩ := bind_eq_ok.mp h
    obtain ⟨_, s₄, -, h⟩ := bind_eq_ok.mp h
    obtain ⟨_, s₅, -, h⟩ := bind_eq_ok.mp h
    cases h
    have hisRetry : isRetry = false := hretry.symm.trans (by simpa using hflag)
    refine ⟨hretry, ?_, ?_, fun hne => List.mem_append_left _ (hacc.identity hne)⟩
    · simp [hisRetry]
    · simpa using hacc.echOff

/-- One extension. -/
theorem decodeServerHelloExtension_read
    (h : decodeServerHelloExtension acc exttype block env s = (.ok (acc', left), t))
    (hacc : HelloExtensionsRead isRetry types acc) :
    HelloExtensionsRead isRetry (types ++ [exttype]) acc' := by
  unfold decodeServerHelloExtension at h
  obtain ⟨_, s₁, -, h⟩ := bind_eq_ok.mp h
  split_ifs at h with hversion hkeyShare hcookie hpsk hech
  · obtain ⟨⟨version, rest⟩, s₂, -, h⟩ := bind_eq_ok.mp h
    cases h
    exact hacc.other (by simp [hversion]) (by simp [hversion]) rfl rfl rfl fun _ => rfl
  · rw [hkeyShare]
    exact decodeServerKeyShare_read h hacc
  · obtain ⟨_, s₂, -, h⟩ := bind_eq_ok.mp h
    obtain ⟨cookie, s₃, -, h⟩ := bind_eq_ok.mp h
    obtain ⟨_, s₄, -, h⟩ := bind_eq_ok.mp h
    cases h
    exact hacc.other (by simp [hcookie]) (by simp [hcookie]) rfl rfl rfl fun _ => rfl
  · obtain ⟨_, s₂, -, h⟩ := bind_eq_ok.mp h
    obtain ⟨⟨identity, rest⟩, s₃, -, h⟩ := bind_eq_ok.mp h
    cases h
    exact hacc.other (by simp [hpsk]) (by simp [hpsk]) rfl rfl rfl fun hne => absurd hpsk hne
  · obtain ⟨_, s₂, -, h⟩ := bind_eq_ok.mp h
    obtain ⟨tls, s₃, -, h⟩ := bind_eq_ok.mp h
    obtain ⟨_, s₄, -, h⟩ := bind_eq_ok.mp h
    obtain ⟨_, s₅, -, h⟩ := bind_eq_ok.mp h
    cases h
    refine ⟨hacc.isRetry_eq, ?_, ?_, fun hne => List.mem_append_left _ (hacc.identity hne)⟩
    · simpa [hech] using hacc.peerkey
    · simp [hech]
  · cases h
    exact hacc.other hkeyShare hech rfl rfl rfl fun _ => rfl

/-- All extensions. -/
theorem decodeExtensions_read
    (h : decodeExtensions hstype src acc decodeServerHelloExtension env s = (.ok acc', t))
    (hpeerkey : acc.sh.peerkey = none) (hech : acc.sh.echOff = none)
    (hidentity : acc.selectedPskIdentity = uint16Max) :
    let block := (src.data.drop 2).take (ofBE (src.data.take 2))
    HelloExtensionsRead acc.sh.isRetryRequest (extensionTypes block.length block) acc' := by
  unfold decodeExtensions decodeOpenExtensions at h
  obtain ⟨⟨acc₁, rest₁⟩, s₁, hopen, hclose⟩ := bind_eq_ok.mp h
  obtain ⟨_, s₂, -, hreturn⟩ := bind_eq_ok.mp hclose
  cases hreturn
  obtain ⟨⟨block, rest⟩, s₃, hblock, hlist⟩ := bind_eq_ok.mp hopen
  obtain ⟨hdata, -⟩ := Src.decodeOpenBlock_eq_ok (liftM_eq_ok.mp hblock).1
  obtain ⟨acc₂, s₄, hrun, hreturn⟩ := bind_eq_ok.mp hlist
  cases hreturn
  rw [hdata] at hrun
  have hstart : HelloExtensionsRead acc.sh.isRetryRequest [] acc :=
    ⟨rfl, by simp [hpeerkey], by simp [hech], fun hne => absurd hidentity hne⟩
  obtain ⟨message, hpart⟩ := Src.exists_isPart
    ⟨src.off + 2, (src.data.drop 2).take (ofBE (src.data.take 2))⟩
  have hread := decodeExtensionList_ok
    (fun _ _ _ _ _ _ _ _ hone _ hacc => decodeServerHelloExtension_read hone hacc) [] hrun hpart
    hstart
  simpa using hread

/-- A pre-shared key is selected only by a ServerHello with the extension for it. -/
theorem checkServerSelection_eq_ok {ext : ServerHelloExtensions} {u : Unit}
    (h : checkServerSelection ext env s = (.ok u, t)) :
    ∃ psk, t = { s with tls := { s.tls with isPskHandshake := psk } } ∧
      (psk = true → s.tls.isPskHandshake = true ∨
        s.tls.offeredPsk = true ∧ ext.selectedPskIdentity ≠ uint16Max) ∧
      (psk = false → ext.sh.peerkey.isSome) := by
  unfold checkServerSelection at h
  obtain ⟨_, s₁, hselect, h⟩ := bind_eq_ok.mp h
  rw [getTls_bind] at h
  obtain ⟨hkeyed, rfl⟩ := throwIf_eq_ok.mp h
  rw [runIf] at hselect
  split_ifs at hselect with hidentity
  · rw [getTls_bind] at hselect
    obtain ⟨_, s₂, hguard₁, hrest⟩ := bind_eq_ok.mp hselect
    obtain ⟨hoffered, rfl⟩ := throwIf_eq_ok.mp hguard₁
    obtain ⟨_, s₃, hguard₂, hset⟩ := bind_eq_ok.mp hrest
    obtain ⟨-, rfl⟩ := throwIf_eq_ok.mp hguard₂
    cases hset
    exact ⟨true, rfl, fun _ => .inr ⟨by simpa using hoffered, hidentity⟩, fun h => nomatch h⟩
  · cases hselect
    refine ⟨s.tls.isPskHandshake, rfl, .inl, fun hpsk => ?_⟩
    simpa [hpsk, ← Option.ne_none_iff_isSome] using hkeyed

/-- A hello that the client reads has the fields read off its octets. -/
theorem clientReadHello_eq_ok {sh : ServerHello}
    (h : clientReadHello message env s = (.ok sh, t)) :
    sh.isRetryRequest = helloIsRetry message ∧
    (sh.peerkey.isSome ↔ helloIsRetry message = false ∧
      ExtensionType.keyShare ∈ helloExtensionTypes message) ∧
    (sh.echOff.isSome ↔ ExtensionType.encryptedClientHello ∈ helloExtensionTypes message) ∧
    ∃ suite psk,
      findCipherSuite (some s.tls.ctx.cipherSuites) (helloCipherSuiteId message) = some suite ∧
      t.tls = { s.tls with cipherSuite := some suite, isPskHandshake := psk } ∧
      (psk = true → s.tls.isPskHandshake = true ∨ helloIsRetry message = false ∧
        s.tls.offeredPsk = true ∧ ExtensionType.preSharedKey ∈ helloExtensionTypes message) ∧
      (helloIsRetry message = true → psk = s.tls.isPskHandshake) ∧
      (helloIsRetry message = false → psk = false → sh.peerkey.isSome) := by
  obtain ⟨_, s', h, hsession⟩ := bind_eq_ok.mp h
  rw [getTls_bind] at hsession
  obtain ⟨_, s'', hsession, hreturn⟩ := bind_eq_ok.mp hsession
  obtain ⟨-, rfl⟩ := throwIf_eq_ok.mp hsession
  cases hreturn
  unfold decodeServerHello at h
  obtain ⟨⟨version, src₁⟩, s₁, h₁, h⟩ := bind_eq_ok.mp h
  obtain ⟨hversion, hs₁⟩ := liftM_eq_ok.mp h₁
  obtain ⟨-, -, hsrc₁⟩ := Src.decodeBytes_eq_ok.mp hversion
  obtain ⟨⟨random, src₂⟩, s₂, h₂, h⟩ := bind_eq_ok.mp h
  obtain ⟨hrandom', hs₂⟩ := liftM_eq_ok.mp h₂
  obtain ⟨-, hrandom, hsrc₂⟩ := Src.decodeBytes_eq_ok.mp hrandom'
  obtain ⟨⟨sessionId, src₃⟩, s₃, h₃, h⟩ := bind_eq_ok.mp h
  obtain ⟨hsession, hs₃⟩ := liftM_eq_ok.mp h₃
  obtain ⟨-, hsrc₃⟩ := Src.decodeOpenBlock_eq_ok hsession
  obtain ⟨_, s₄, h₄, h⟩ := bind_eq_ok.mp h
  obtain ⟨-, hs₄⟩ := throwIf_eq_ok.mp h₄
  obtain ⟨⟨csid, src₅⟩, s₅, h₅, h⟩ := bind_eq_ok.mp h
  obtain ⟨hcsid', hs₅⟩ := liftM_eq_ok.mp h₅
  obtain ⟨-, hcsid, hsrc₅⟩ := Src.decodeUInt_eq_ok.mp hcsid'
  dsimp only at h
  rw [getTls_bind, modifyTls_bind] at h
  obtain ⟨_, s₆, h₆, h⟩ := bind_eq_ok.mp h
  obtain ⟨hsuite, hs₆⟩ := throwIf_eq_ok.mp h₆
  obtain ⟨⟨method, src₇⟩, s₇, h₇, h⟩ := bind_eq_ok.mp h
  obtain ⟨hmethod, hs₇⟩ := liftM_eq_ok.mp h₇
  obtain ⟨_, s₈, h₈, h⟩ := bind_eq_ok.mp h
  obtain ⟨-, hs₈⟩ := throwIf_eq_ok.mp h₈
  obtain ⟨ext, s₉, hext, h⟩ := bind_eq_ok.mp h
  obtain ⟨_, s₁₀, h₁₀, h⟩ := bind_eq_ok.mp h
  obtain ⟨-, hs₁₀⟩ := throwIf_eq_ok.mp h₁₀
  obtain ⟨_, s₁₁, hselection, hreturn⟩ := bind_eq_ok.mp h
  cases hreturn
  have hstart : s₅ = s := by rw [hs₅, hs₄, hs₃, hs₂, hs₁]
  subst hstart
  have hrandom' : random = helloRandom message := by
    rw [hrandom, hsrc₁]
    rfl
  have htail : src₃.data = helloTail message := by
    rw [hsrc₃, hsrc₂, hsrc₁]
    rfl
  have hcsid' : csid = helloCipherSuiteId message := by rw [hcsid, htail, helloCipherSuiteId]
  have hsrc₇ : src₇.data = ((helloTail message).drop 2).drop 1 := by
    rw [← htail, Src.decode8_eq_ok hmethod, hsrc₅]
  have hread := decodeExtensions_read hext rfl rfl rfl
  have htls₉ : s₉.tls = s₈.tls := Within.tls_eq (E := [.io, .refuse]) inferInstance hext (by decide)
  rw [hs₈, hs₇, hs₆] at htls₉
  subst hrandom' hcsid' hs₁₀
  simp only [hsrc₇] at hread
  rw [Option.isNone_iff_eq_none] at hsuite
  obtain ⟨suite, hsuite'⟩ := Option.ne_none_iff_exists'.mp hsuite
  refine ⟨hread.isRetry_eq, hread.peerkey, hread.echOff, suite, ?_⟩
  rw [hsuite'] at htls₉
  rw [runIf] at hselection
  split_ifs at hselection with hretry
  · have hretry' : helloIsRetry message = true := by simpa [helloIsRetry] using hretry
    cases hselection
    refine ⟨s₅.tls.isPskHandshake, hsuite', htls₉, .inl, fun _ => rfl, ?_⟩
    intro hproper
    rw [hretry'] at hproper
    cases hproper
  · obtain ⟨psk, rfl, hpsk, hkeyed⟩ := checkServerSelection_eq_ok hselection
    have hretry' : helloIsRetry message = false := by simpa [helloIsRetry] using hretry
    refine ⟨psk, hsuite', by rw [htls₉], fun htrue => ?_, ?_, fun _ => hkeyed⟩
    · rw [htls₉] at hpsk
      rcases hpsk htrue with hbefore | ⟨hoffered, hidentity⟩
      · exact .inl hbefore
      · exact .inr ⟨hretry', hoffered, hread.identity hidentity⟩
    · intro hrequest
      rw [hretry'] at hrequest
      cases hrequest

end Picotls
