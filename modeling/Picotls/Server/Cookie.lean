import Picotls.Server.RetryMessage

/-!
# Cookies of stateless retries

A cookie holds the hash of the first hello and tells whether a key share was requested. Its
signature also covers what the server has settled about the connection: the random value of the
client, the name of the server, the cipher suite, the group, and data of the application. All of
these are written one after the other, in a way that determines each of them.
-/

namespace Picotls

open Foundation Procedure

variable [Crypto] {env : Environment} {s : Session}

variable {sent sent' : Bool} {ch1Hash ch1Hash' : Bytes} {suite : CipherSuite}
  {properties : HandshakeProperties} {slot : HashSlot} {group : KeyExchangeAlgorithm}
  {sched : KeySchedule}

/-! ## What a cookie binds -/

/-- What the signature of a cookie covers. A connection without a server name counts as one with
the empty name. -/
structure CookieBinding where
  clientRandom : Bytes
  serverName : Bytes
  cipherSuite : ℕ
  group : ℕ
  additionalData : Bytes
  tbs : Bytes
  deriving DecidableEq

namespace CookieBinding

/-- The signed octets. -/
def encode (b : CookieBinding) : Bytes :=
  encodeBlock 1 b.clientRandom ++ (encodeBlock 1 b.serverName ++ (toBE 2 b.cipherSuite ++
    (toBE 2 b.group ++ (encodeBlock 1 b.additionalData ++ encodeBlock 1 b.tbs))))

/-- The parts are short enough to be signed. -/
structure Fits (b : CookieBinding) : Prop where
  clientRandom : b.clientRandom.length < 255
  serverName : b.serverName.length < 255
  additionalData : b.additionalData.length < 255
  tbs : b.tbs.length < 255

omit [Crypto] in
/-- The signed octets determine what they cover. -/
theorem encode_inj {b b' : CookieBinding} (h : b.Fits) (h' : b'.Fits)
    (hsuite : b.cipherSuite < 256 ^ 2) (hsuite' : b'.cipherSuite < 256 ^ 2)
    (hgroup : b.group < 256 ^ 2) (hgroup' : b'.group < 256 ^ 2) (hencode : b.encode = b'.encode) :
    b = b' := by
  have hblock {octets : Bytes} (hlength : octets.length < 255) : octets.length < 256 ^ 1 := by
    omega
  rw [encode, encode,
    encodeBlock_append_inj (hblock h.clientRandom) (hblock h'.clientRandom)] at hencode
  obtain ⟨hrandom, hencode⟩ := hencode
  rw [encodeBlock_append_inj (hblock h.serverName) (hblock h'.serverName)] at hencode
  obtain ⟨hname, hencode⟩ := hencode
  rw [toBE_append_inj hsuite hsuite'] at hencode
  obtain ⟨hsuites, hencode⟩ := hencode
  rw [toBE_append_inj hgroup hgroup'] at hencode
  obtain ⟨hgroups, hencode⟩ := hencode
  rw [encodeBlock_append_inj (hblock h.additionalData) (hblock h'.additionalData)] at hencode
  obtain ⟨hdata, hencode⟩ := hencode
  rw [encodeBlock_inj (hblock h.tbs) (hblock h'.tbs)] at hencode
  cases b
  cases b'
  simp_all

end CookieBinding

/-- The part of a cookie that is signed: the hash of the first hello, and whether a key share was
requested. -/
def cookieTbs (ch1Hash : Bytes) (sentKeyShare : Bool) : Bytes :=
  encodeBlock 2 (encodeBlock 1 ch1Hash ++ [if sentKeyShare then 1 else 0])

/-- A cookie extension. -/
def cookieData (tbs signature : Bytes) : Bytes := encodeBlock 2 (tbs ++ encodeBlock 1 signature)

omit [Crypto] in
theorem cookieTbs_length (ch1Hash : Bytes) (sentKeyShare : Bool) :
    (cookieTbs ch1Hash sentKeyShare).length = 4 + ch1Hash.length := by
  simp only [cookieTbs, encodeBlock_length, List.length_append, List.length_singleton]
  omega

omit [Crypto] in
/-- The signed part, and what it is followed by, determine the hash and the flag. -/
theorem cookieTbs_append_inj {a b : Bytes} (hhash : ch1Hash.length < 256)
    (hhash' : ch1Hash'.length < 256)
    (h : cookieTbs ch1Hash sent ++ a = cookieTbs ch1Hash' sent' ++ b) :
    ch1Hash = ch1Hash' ∧ sent = sent' ∧ a = b := by
  have hfits {octets : Bytes} (flag : Bool) (hlength : octets.length < 256) :
      (encodeBlock 1 octets ++ [if flag then (1 : UInt8) else 0]).length < 256 ^ 2 := by
    simp only [List.length_append, encodeBlock_length, List.length_singleton]
    omega
  rw [cookieTbs, cookieTbs, encodeBlock_append_inj (hfits sent hhash) (hfits sent' hhash'),
    encodeBlock_append_inj (by simpa using hhash) (by simpa using hhash')] at h
  refine ⟨h.1.1, ?_, h.2⟩
  cases sent <;> cases sent' <;> simp at h ⊢

omit [Crypto] in
/-- The signed part determines the hash and the flag. -/
theorem cookieTbs_inj (hhash : ch1Hash.length < 256) (hhash' : ch1Hash'.length < 256)
    (h : cookieTbs ch1Hash sent = cookieTbs ch1Hash' sent') :
    ch1Hash = ch1Hash' ∧ sent = sent' := by
  obtain ⟨hhashes, hflags, -⟩ := cookieTbs_append_inj (a := []) (b := []) hhash hhash' (by rw [h])
  exact ⟨hhashes, hflags⟩

omit [Crypto] in
/-- A cookie determines the hash, the flag and the signature. -/
theorem cookieData_inj {signature signature' : Bytes} (hhash : ch1Hash.length < 256)
    (hhash' : ch1Hash'.length < 256) (hsignature : signature.length < 256)
    (hsignature' : signature'.length < 256)
    (h : cookieData (cookieTbs ch1Hash sent) signature =
      cookieData (cookieTbs ch1Hash' sent') signature') :
    ch1Hash = ch1Hash' ∧ sent = sent' ∧ signature = signature' := by
  have hfits {digest octets : Bytes} (flag : Bool) (hdigest : digest.length < 256)
      (hoctets : octets.length < 256) :
      (cookieTbs digest flag ++ encodeBlock 1 octets).length < 256 ^ 2 := by
    rw [List.length_append, cookieTbs_length, encodeBlock_length]
    omega
  rw [cookieData, cookieData, encodeBlock_inj (hfits sent hhash hsignature)
    (hfits sent' hhash' hsignature')] at h
  obtain ⟨hhashes, hflags, hblock⟩ := cookieTbs_append_inj hhash hhash' h
  exact ⟨hhashes, hflags, (encodeBlock_inj (by simpa using hsignature)
    (by simpa using hsignature')).mp hblock⟩

/-! ## Signatures -/

/-- What a cookie of a connection binds. -/
def Tls.cookieBinding (tls : Tls) (properties : HandshakeProperties) (suite group : ℕ)
    (tbs : Bytes) : CookieBinding where
  clientRandom := tls.clientRandom
  serverName := tls.serverName.getD []
  cipherSuite := suite
  group := group
  additionalData := properties.cookieAdditionalData
  tbs := tbs

/-- The hash algorithm and the key of the signatures. -/
def Tls.cookieKey (tls : Tls) (properties : HandshakeProperties) :
    Option (HashAlgorithm × Bytes) := do
  let suite ← tls.ctx.cipherSuites.head?
  let key ← properties.cookieKey
  return (suite.hash, key.take suite.hash.digestSize)

/-- The signature of what a cookie binds. -/
def cookieSignature (key : Option (HashAlgorithm × Bytes)) (b : CookieBinding) : Bytes :=
  key.elim [] fun (algo, key) => hmac algo key b.encode

theorem cookieSignature_length_le (key : Option (HashAlgorithm × Bytes)) (b : CookieBinding) :
    (cookieSignature key b).length ≤ maxDigestSize := by
  rcases key with _ | ⟨algo, key⟩
  · simp [cookieSignature]
  · simpa [cookieSignature] using algo.digestSize_le

omit [Crypto] in
theorem cookieBlock_builds (s : Session) (octets : Bytes) :
    Builds (octets.length < 255) env s (cookieBlock octets env s) [] (encodeBlock 1 octets)
      s.tls := by
  rw [cookieBlock]
  refine ((Builds.assert s _).andReturn fun tick => ?_).of_iff decide_eq_true_iff
  simp [encodeBlock, toBE]

omit [Crypto] in
theorem cookieHash_bind {β : Type} (f : HashAlgorithm → Proc β) :
    (cookieHash >>= f) env s =
      (deref s.tls.ctx.cipherSuites.head? >>= fun suite => f suite.hash) env s := by
  cases hhead : s.tls.ctx.cipherSuites.head? <;>
    simp [cookieHash, bind_run, getTls_run, hhead, deref]

/-- The signature covers the binding of the connection. -/
theorem calcCookieSignature_builds (tbs : Bytes) (hsuite : s.tls.cipherSuite = some suite) :
    Builds ((s.tls.cookieKey properties).isSome = true ∧
        (s.tls.cookieBinding properties suite.id group.id tbs).Fits) env s
      (calcCookieSignature properties (some group) tbs env s) []
      (cookieSignature (s.tls.cookieKey properties)
        (s.tls.cookieBinding properties suite.id group.id tbs)) s.tls := by
  have hbuilds : Builds (s.tls.ctx.cipherSuites.head?.isSome = true ∧
      properties.cookieKey.isSome = true ∧ s.tls.clientRandom.length < 255 ∧
      (s.tls.serverName.getD []).length < 255 ∧ properties.cookieAdditionalData.length < 255 ∧
      tbs.length < 255) env s (calcCookieSignature properties (some group) tbs env s) []
      (cookieSignature (s.tls.cookieKey properties)
        (s.tls.cookieBinding properties suite.id group.id tbs)) s.tls := by
    rw [calcCookieSignature, getTls_bind, cookieHash_bind, hsuite]
    refine Builds.deref_bind fun first hfirst => Builds.deref_bind fun key hkey =>
      (Builds.allocate s).seq fun _ => (cookieBlock_builds _ _).bind fun _ _ =>
      (cookieBlock_builds _ _).bind fun _ _ => ?_
    rw [deref_some_bind]
    refine (cookieBlock_builds _ _).bind fun _ _ => (cookieBlock_builds _ _).andReturn fun _ => ?_
    rw [Tls.cookieKey, hfirst, hkey]
    simp [cookieSignature, CookieBinding.encode, Tls.cookieBinding]
  refine hbuilds.of_iff ⟨fun h => ⟨?_, h.2.2.1, h.2.2.2.1, h.2.2.2.2.1, h.2.2.2.2.2⟩, fun h => ?_⟩
  · obtain ⟨first, hfirst⟩ := Option.isSome_iff_exists.mp h.1
    obtain ⟨key, hkey⟩ := Option.isSome_iff_exists.mp h.2.1
    simp [Tls.cookieKey, hfirst, hkey]
  · obtain ⟨hkeyed, hfits⟩ := h
    have hkeys : s.tls.ctx.cipherSuites.head?.isSome = true ∧
        properties.cookieKey.isSome = true := by
      cases hfirst : s.tls.ctx.cipherSuites.head? <;> cases hkey : properties.cookieKey <;>
        simp [Tls.cookieKey, hfirst, hkey] at hkeyed ⊢
    exact ⟨hkeys.1, hkeys.2, hfits.clientRandom, hfits.serverName, hfits.additionalData, hfits.tbs⟩

/-! ## Writing a cookie -/

/-- The connection after the hash of the first hello has been taken out of the transcript. -/
def Tls.forgetHello (tls : Tls) : Tls :=
  { tls with keySchedule := tls.keySchedule.map fun sched =>
      { sched with hashes := sched.hashes.modifyHead fun slot => { slot with ctx := [] } } }

/-- The transcript of the first hello is replaced by nothing, and its hash is returned. -/
theorem keyScheduleExtractCh1hash_builds (hsched : s.tls.keySchedule = some sched)
    (hslot : sched.hashes.head? = some slot) (houter : slot.ctxOuter = none) :
    Builds True env s (keyScheduleExtractCh1hash env s) [] (Crypto.hash slot.algo slot.ctx)
      s.tls.forgetHello := by
  have hget : getKeySchedule env s = (.ok sched, s) := by
    rw [getKeySchedule, getTls_bind, hsched]
    rfl
  have hfirst : firstHash env s = (.ok slot, s) := by
    rw [firstHash, bind_of_ok hget, hslot]
    rfl
  have hrun : keyScheduleExtractCh1hash env s = (.ok (Crypto.hash slot.algo slot.ctx),
      s.appended s.tls.forgetHello [] s.tick) := by
    rw [keyScheduleExtractCh1hash, bind_of_ok hfirst, houter, assert_bind]
    simp [modifyFirstHash, bind_run, hget, setKeySchedule, Session.appended, Tls.forgetHello,
      hsched]
  constructor
  · intro r t h
    rw [hrun] at h
    cases h
    exact ⟨trivial, rfl, s.tick, rfl⟩
  · intro _ _
    exact ⟨_, _, hrun⟩

omit [Crypto] in
/-- A digest is computed into a block of its own. -/
theorem pushDigest_builds {C : Prop} {digest : Proc Bytes} {octets : Bytes} {tls tls' : Tls}
    (hdigest : ∀ u : Session, u.tls = tls → Builds C env u (digest env u) [] octets tls')
    (hlength : octets.length ≤ maxDigestSize) (hs : s.tls = tls) :
    Builds C env s (bufferPushBlock 1 (do
        allocate
        let octets ← digest
        appendReserved octets) env s) (encodeBlock 1 octets) () tls' := by
  have hbody (u : Session) (hu : u.tls = tls) : Builds C env u ((do
      allocate
      let octets ← digest
      appendReserved octets : Proc Unit) env u) octets () tls' := by
    refine (Builds.allocate u).seq fun tick => ?_
    have hwhole := (hdigest (u.appended u.tls [] tick) hu).bind (f := appendReserved) fun tick' _ =>
      Builds.appendReserved _ octets
    exact hwhole.of_iff (iff_of_eq (and_true C))
  have hfits : octets.length < 256 ^ 1 := by
    simp only [maxDigestSize] at hlength
    omega
  exact (Builds.bufferPushBlock fun tick => hbody _ hs).of_iff (and_iff_left hfits)

/-- The writer of a cookie appends the hash of the first hello, whether a key share is requested,
and the signature. -/
theorem pushCookieExtension_builds {missing : Bool} (hsuite : s.tls.cipherSuite = some suite)
    (hsched : s.tls.keySchedule = some sched) (hslot : sched.hashes.head? = some slot)
    (houter : slot.ctxOuter = none) :
    Builds ((s.tls.cookieKey properties).isSome = true ∧ (s.tls.cookieBinding properties suite.id
        group.id (cookieTbs (Crypto.hash slot.algo slot.ctx) missing)).Fits) env s
      (pushCookieExtension properties missing group env s)
      (encodeExtension ExtensionType.cookie
        (cookieData (cookieTbs (Crypto.hash slot.algo slot.ctx) missing)
          (cookieSignature (s.tls.cookieKey properties) (s.tls.cookieBinding properties suite.id
            group.id (cookieTbs (Crypto.hash slot.algo slot.ctx) missing))))) ()
      s.tls.forgetHello := by
  have hhash : (Crypto.hash slot.algo slot.ctx).length ≤ maxDigestSize :=
    (Crypto.hash_length slot.algo slot.ctx).trans_le slot.algo.digestSize_le
  have hextract (u : Session) (hu : u.tls = s.tls) : Builds True env u
      (keyScheduleExtractCh1hash env u) [] (Crypto.hash slot.algo slot.ctx) s.tls.forgetHello := by
    rw [← hu] at hsched ⊢
    exact keyScheduleExtractCh1hash_builds hsched hslot houter
  generalize hdigest : Crypto.hash slot.algo slot.ctx = digest at hhash hextract ⊢
  have hsize := cookieTbs_length digest missing
  have htbs (u : Session) (hu : u.tls = s.tls) : Builds True env u (bufferPushBlock 2 (do
      bufferPushBlock 1 do
        allocate
        let ch1Hash ← keyScheduleExtractCh1hash
        appendReserved ch1Hash
      bufferPushv [if missing then 1 else 0]) env u) (cookieTbs digest missing) ()
      s.tls.forgetHello := by
    have hfits : (encodeBlock 1 digest ++ [if missing then (1 : UInt8) else 0]).length <
        256 ^ 2 := by
      simp only [maxDigestSize] at hhash
      simp only [List.length_append, encodeBlock_length, List.length_singleton]
      omega
    refine (Builds.bufferPushBlock fun tick => ?_).of_iff (and_iff_left hfits)
    exact (pushDigest_builds (s := u.appended u.tls (zeros 2) tick) hextract hhash hu).seq
      fun tick => Builds.bufferPushv _ _
  generalize htbsEq : cookieTbs digest missing = tbs at hsize htbs ⊢
  have hcalc (u : Session) (hu : u.tls = s.tls.forgetHello) :
      Builds ((s.tls.cookieKey properties).isSome = true ∧
          (s.tls.cookieBinding properties suite.id group.id tbs).Fits) env u
        (calcCookieSignature properties (some group) tbs env u) []
        (cookieSignature (s.tls.cookieKey properties)
          (s.tls.cookieBinding properties suite.id group.id tbs)) s.tls.forgetHello := by
    have hsuite' : u.tls.cipherSuite = some suite := by
      rw [hu]
      exact hsuite
    have hbuilds : Builds _ env u (calcCookieSignature properties (some group) tbs env u) _ _ _ :=
      calcCookieSignature_builds tbs hsuite'
    rw [hu] at hbuilds
    exact hbuilds
  have hsignature := cookieSignature_length_le (s.tls.cookieKey properties)
    (s.tls.cookieBinding properties suite.id group.id tbs)
  generalize cookieSignature (s.tls.cookieKey properties)
    (s.tls.cookieBinding properties suite.id group.id tbs) = signature at hcalc hsignature ⊢
  have hdata : (tbs ++ encodeBlock 1 signature).length < 65000 := by
    simp only [maxDigestSize] at hhash hsignature
    rw [List.length_append, encodeBlock_length]
    omega
  have hinner (u : Session) (hu : u.tls = s.tls) :
      Builds ((s.tls.cookieKey properties).isSome = true ∧
          (s.tls.cookieBinding properties suite.id group.id tbs).Fits) env u ((do
        let tbsStart ← sendbufOff
        bufferPushBlock 2 do
          bufferPushBlock 1 do
            allocate
            let ch1Hash ← keyScheduleExtractCh1hash
            appendReserved ch1Hash
          bufferPushv [if missing then 1 else 0]
        let buf ← getSendbuf
        bufferPushBlock 1 do
          allocate
          let signature ← calcCookieSignature properties (some group) (buf.drop tbsStart)
          appendReserved signature : Proc Unit) env u) (tbs ++ encodeBlock 1 signature) ()
        s.tls.forgetHello := by
    rw [sendbufOff, observe_bind]
    refine (htbs u hu).seq fun tick => ?_
    have hdrop : (u.appended s.tls.forgetHello tbs tick).sendbuf.drop u.sendbuf.length = tbs :=
      List.drop_left
    rw [getSendbuf, observe_bind, hdrop]
    exact pushDigest_builds hcalc hsignature rfl
  have hblock : (tbs ++ encodeBlock 1 signature).length < 256 ^ 2 := by omega
  have hextension : (cookieData tbs signature).length < 256 ^ 2 := by
    rw [cookieData, encodeBlock_length]
    omega
  rw [pushCookieExtension]
  refine (Builds.bufferPushExtension fun tick => Builds.bufferPushBlock fun tick' =>
    hinner _ rfl).of_iff ?_
  exact (and_iff_left hextension).trans (and_iff_left hblock)

end Picotls
