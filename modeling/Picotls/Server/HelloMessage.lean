import Picotls.Client.HelloMessage
import Picotls.Server.Cookie

/-!
# What the server accepts as a ClientHello

The decoder takes the fields of a hello out of blocks whose lengths bound them. A cookie is read in
the layout in which it is written, so what is cut out as the signed part is determined by the hash
and the flag in it.
-/

namespace Picotls

open Foundation Procedure

variable {env : Environment} {s t : Session}

variable {message octets : Bytes} {block rest src : Src} {capacity exttype fuel : ℕ}

/-! ## Blocks -/

/-- A number is read back. -/
theorem Src.decodeUInt_toBE {width number : ℕ} (off : ℕ) (rest : Bytes)
    (h : number < 256 ^ width) :
    Src.decodeUInt width ⟨off, toBE width number ++ rest⟩ = .ok (number, ⟨off + width, rest⟩) := by
  rw [Src.decodeUInt_eq_ok]
  simp [List.take_left', List.drop_left', ofBE_toBE h]

/-- A block is read back. -/
theorem Src.decodeOpenBlock_encodeBlock (off : ℕ) (rest : Bytes)
    (h : octets.length < 256 ^ capacity) :
    Src.decodeOpenBlock capacity ⟨off, encodeBlock capacity octets ++ rest⟩ =
      .ok (⟨off + capacity, octets⟩, ⟨off + capacity + octets.length, rest⟩) := by
  rw [Src.decodeOpenBlock, encodeBlock, List.append_assoc]
  simp [List.take_left', List.drop_left', ofBE_toBE h]

/-- An opened block stands at the start of what was read. -/
theorem Src.decodeOpenBlock_data (h : src.decodeOpenBlock capacity = .ok (block, rest)) :
    src.data = encodeBlock capacity block.data ++ rest.data ∧
      block.data.length < 256 ^ capacity := by
  have hwhole := h
  unfold Src.decodeOpenBlock at h
  dsimp only at h
  split_ifs at h with hshort hbody
  obtain ⟨rfl, rfl⟩ := Src.decodeOpenBlock_eq_ok hwhole
  have hwidth : (src.data.take capacity).length = capacity := by
    rw [List.length_take]
    omega
  have hsize : ((src.data.drop capacity).take (ofBE (src.data.take capacity))).length =
      ofBE (src.data.take capacity) := by
    rw [List.length_take]
    omega
  have hbound := ofBE_lt (src.data.take capacity)
  have hnumber := toBE_ofBE (src.data.take capacity)
  rw [hwidth] at hbound hnumber
  refine ⟨?_, hsize.trans_lt hbound⟩
  rw [encodeBlock, hsize, hnumber, List.append_assoc, List.take_append_drop,
    List.take_append_drop]

theorem Src.assertBlockClose_eq_ok {u : Unit} : src.assertBlockClose = .ok u ↔ src.data = [] := by
  unfold Src.assertBlockClose
  split_ifs with hempty <;> simp [hempty]

/-- One octet was read. -/
theorem Src.decode8_data {octet : UInt8} (h : src.decode8 = .ok (octet, rest)) :
    src.data = octet :: rest.data := by
  unfold Src.decode8 at h
  split at h
  · cases h
  · cases h
    assumption

/-- A block that ends its source is all of it. -/
theorem Src.decodeBlock_data (h : src.decodeBlock capacity = .ok block) :
    src.data = encodeBlock capacity block.data ∧ block.data.length < 256 ^ capacity := by
  obtain ⟨⟨opened, rest⟩, hopen, h⟩ := except_bind_eq_ok.mp h
  obtain ⟨_, hclose, h⟩ := except_bind_eq_ok.mp h
  cases h
  obtain ⟨hdata, hlength⟩ := Src.decodeOpenBlock_data hopen
  rw [Src.assertBlockClose_eq_ok.mp hclose, List.append_nil] at hdata
  exact ⟨hdata, hlength⟩

/-- Octets are read back. -/
theorem Src.decodeBytes_append (off : ℕ) (octets rest : Bytes) :
    Src.decodeBytes octets.length ⟨off, octets ++ rest⟩ =
      .ok (octets, ⟨off + octets.length, rest⟩) := by
  rw [Src.decodeBytes_eq_ok]
  simp

/-- A block that ends its source is read back. -/
theorem Src.decodeBlock_encodeBlock (off : ℕ) (h : octets.length < 256 ^ capacity) :
    Src.decodeBlock capacity ⟨off, encodeBlock capacity octets⟩ = .ok ⟨off + capacity, octets⟩ := by
  have hopen := Src.decodeOpenBlock_encodeBlock off [] h
  rw [List.append_nil] at hopen
  rw [Src.decodeBlock, hopen]
  rfl

/-- Only a block that ends its source is accepted as one. -/
theorem Src.decodeBlock_eq_error
    (h : ∀ octets : Bytes, octets.length < 256 ^ capacity →
      src.data ≠ encodeBlock capacity octets) :
    src.decodeBlock capacity = .error (.code Alert.decodeError) := by
  cases hdecode : src.decodeBlock capacity with
  | ok block =>
    obtain ⟨hdata, hfits⟩ := Src.decodeBlock_data hdecode
    exact absurd hdata (h _ hfits)
  | error fault =>
    rw [← hdecode]
    rw [Src.decodeBlock, Src.decodeOpenBlock] at hdecode ⊢
    dsimp only at hdecode ⊢
    split_ifs at hdecode ⊢ with hshort hbody
    · rfl
    · rfl
    · dsimp only [bind, Except.bind, pure, Except.pure, Src.assertBlockClose] at hdecode ⊢
      split_ifs at hdecode ⊢
      rfl

/-- A block is neither accepted when it is cut short nor when it is continued. -/
theorem Src.decodeBlock_eq_error_of_cut {off : ℕ} {cut : Bytes} (h : octets.length < 256 ^ capacity)
    (hne : cut ≠ encodeBlock capacity octets)
    (hcut : cut <+: encodeBlock capacity octets ∨ encodeBlock capacity octets <+: cut) :
    Src.decodeBlock capacity ⟨off, cut⟩ = .error (.code Alert.decodeError) := by
  refine Src.decodeBlock_eq_error fun octets' hfits hdata => hne ?_
  have hcut' : cut = encodeBlock capacity octets' := hdata
  rw [hcut'] at hcut ⊢
  rcases hcut with hcut | hcut
  · rw [encodeBlock_eq_of_isPrefix hfits h hcut]
  · rw [encodeBlock_eq_of_isPrefix h hfits hcut]

/-! ## Cookies -/

/-- A cookie in the layout in which the server writes it. -/
structure ClientHelloCookie.WellFormed (cookie : ClientHelloCookie) : Prop where
  all : cookie.all = cookieData cookie.tbs cookie.signature
  tbs : cookie.tbs = cookieTbs cookie.ch1Hash cookie.sentKeyShare
  hash : cookie.ch1Hash.length < 256
  signature : cookie.signature.length < 256
  data : (cookie.tbs ++ encodeBlock 1 cookie.signature).length < 256 ^ 2

/-- The decoder accepts cookies in the layout of the writer only. -/
theorem decodeCookie_wellFormed {cookie : ClientHelloCookie} (h : decodeCookie src = .ok cookie) :
    cookie.WellFormed := by
  obtain ⟨block, hblock, h⟩ := except_bind_eq_ok.mp h
  obtain ⟨⟨tbs, rest⟩, htbs, h⟩ := except_bind_eq_ok.mp h
  obtain ⟨⟨ch1Hash, flag⟩, hhash, h⟩ := except_bind_eq_ok.mp h
  obtain ⟨⟨sent, tbsRest⟩, hsent, h⟩ := except_bind_eq_ok.mp h
  dsimp only at h
  by_cases hflag : 1 < sent
  · rw [if_pos hflag] at h
    cases h
  rw [if_neg hflag] at h
  obtain ⟨_, hclose, h⟩ := except_bind_eq_ok.mp h
  obtain ⟨signature, hsignature, h⟩ := except_bind_eq_ok.mp h
  cases h
  obtain ⟨hall, hfits⟩ := Src.decodeBlock_data hblock
  obtain ⟨hparts, htbsFits⟩ := Src.decodeOpenBlock_data htbs
  obtain ⟨hfields, hhashFits⟩ := Src.decodeOpenBlock_data hhash
  obtain ⟨hrest, hsignatureFits⟩ := Src.decodeBlock_data hsignature
  have hflagData := Src.decode8_data hsent
  rw [Src.assertBlockClose_eq_ok.mp hclose] at hflagData
  have hbit : sent = if decide (sent = 1) then 1 else 0 := by
    have hle : sent.toNat ≤ 1 := Nat.not_lt.mp hflag
    by_cases hone : sent = 1
    · simp [hone]
    · have hne : sent.toNat ≠ 1 := fun h => hone (UInt8.toNat_inj.mp h)
      have hzero : sent = 0 := UInt8.toNat_inj.mp (by simp; omega)
      simp [hzero]
  have htake : block.data.take (2 + tbs.data.length) = encodeBlock 2 tbs.data := by
    rw [hparts]
    exact List.take_left' (by simp)
  have hsigned : encodeBlock 2 tbs.data = cookieTbs ch1Hash.data (decide (sent = 1)) := by
    rw [hfields, hflagData, cookieTbs, ← hbit]
  constructor
  · simp only [htake]
    rw [hall, cookieData, hparts, hrest]
  · exact htake.trans hsigned
  · simpa using hhashFits
  · simpa using hsignatureFits
  · simp only [htake]
    rwa [← hrest, ← hparts]

/-! ## Binders -/

/-- The binders of an extension are parts of the message. -/
theorem decodePskBinders_isPart {binders : List Src} (h : decodePskBinders fuel src = .ok binders)
    (hsrc : src.IsPart message) : ∀ binder ∈ binders, binder.IsPart message := by
  induction fuel generalizing src binders with
  | zero =>
    cases h
    exact nofun
  | succ fuel ih =>
    obtain ⟨⟨binder, rest⟩, hopen, h⟩ := except_bind_eq_ok.mp h
    obtain ⟨hbinder, hrest⟩ := hsrc.decodeOpenBlock hopen
    dsimp only at h
    split_ifs at h with hend
    · cases h
      intro other hother
      rw [List.mem_singleton.mp hother]
      exact hbinder
    · obtain ⟨others, hothers, h⟩ := except_bind_eq_ok.mp h
      cases h
      intro other hother
      obtain rfl | hmem := List.mem_cons.mp hother
      · exact hbinder
      · exact ih hothers hrest other hmem

/-- The identities of an extension have binders that are parts of the message. -/
theorem decodePreSharedKeys_isPart {psks : List PskIdentity} {hashEnd : ℕ}
    (h : decodePreSharedKeys src = .ok (psks, hashEnd)) (hsrc : src.IsPart message) :
    ∀ psk ∈ psks, psk.binder.IsPart message := by
  obtain ⟨⟨list, rest⟩, hlist, h⟩ := except_bind_eq_ok.mp h
  obtain ⟨identities, -, h⟩ := except_bind_eq_ok.mp h
  obtain ⟨⟨block, after⟩, hblock, h⟩ := except_bind_eq_ok.mp h
  obtain ⟨binders, hbinders, h⟩ := except_bind_eq_ok.mp h
  have hrest := (hsrc.decodeOpenBlock hlist).2
  have hparts := decodePskBinders_isPart hbinders (hrest.decodeOpenBlock hblock).1
  dsimp only at h
  split_ifs at h with hcount
  obtain ⟨_, -, h⟩ := except_bind_eq_ok.mp h
  cases h
  intro psk hpsk
  obtain ⟨k, hk, rfl⟩ := List.mem_iff_getElem.mp (List.mem_of_mem_take hpsk)
  rw [List.getElem_zipWith]
  exact hparts _ (List.getElem_mem _)

/-! ## Hellos -/

/-- What the decoder of a hello ensures. -/
structure ClientHello.WellFormed (properties : Option HandshakeProperties) (ch : ClientHello) :
    Prop where
  random : ch.randomBytes.length = helloRandomSize
  session : ch.legacySessionId.length ≤ 32
  cookie : ∀ cookie, ch.cookie = some cookie → cookie.WellFormed
  cookieKey : ch.cookie.isSome = true →
    (properties.bind HandshakeProperties.cookieKey).isSome = true

variable {properties : Option HandshakeProperties} {ch ch' : ClientHello}

/-- Fields other than those of the cookie do not matter. -/
theorem ClientHello.WellFormed.of_eq (h : ch.WellFormed properties)
    (hrandom : ch'.randomBytes = ch.randomBytes)
    (hsession : ch'.legacySessionId = ch.legacySessionId) (hcookie : ch'.cookie = ch.cookie) :
    ch'.WellFormed properties where
  random := hrandom ▸ h.random
  session := hsession ▸ h.session
  cookie cookie hsome := h.cookie cookie (hcookie ▸ hsome)
  cookieKey hsome := h.cookieKey (hcookie ▸ hsome)

/-- What the decoder ensures of a hello in a message; the binders are parts of the message. -/
structure ClientHello.DecodedFrom (message : Bytes) (properties : Option HandshakeProperties)
    (ch : ClientHello) : Prop extends ch.WellFormed properties where
  binders : ∀ psk ∈ ch.pskIdentities, psk.binder.IsPart message

theorem ClientHello.DecodedFrom.of_eq (h : ch.DecodedFrom message properties)
    (hrandom : ch'.randomBytes = ch.randomBytes)
    (hsession : ch'.legacySessionId = ch.legacySessionId) (hcookie : ch'.cookie = ch.cookie)
    (hpsks : ch'.pskIdentities = ch.pskIdentities) : ch'.DecodedFrom message properties :=
  ⟨h.toWellFormed.of_eq hrandom hsession hcookie, hpsks ▸ h.binders⟩

/-- What follows from the value of a choice, shown for both of its branches. -/
theorem of_ite_eq {α : Type} {c Q : Prop} [Decidable c] {a b v : α} (h : (if c then a else b) = v)
    (hpos : c → a = v → Q) (hneg : ¬ c → b = v → Q) : Q := by
  by_cases hc : c
  · exact hpos hc (by rwa [if_pos hc] at h)
  · exact hneg hc (by rwa [if_neg hc] at h)

/-- An extension keeps what the decoder ensures. -/
theorem interpretClientHelloExtension_decodedFrom
    (h : interpretClientHelloExtension properties ch exttype block = .ok (some ch'))
    (hblock : block.IsPart message) (hch : ch.DecodedFrom message properties) :
    ch'.DecodedFrom message properties := by
  unfold interpretClientHelloExtension at h
  iterate 8
    refine of_ite_eq h (fun _ h => ?_) fun _ h => ?_
    · first
        | cases h
        | obtain ⟨_, -, h⟩ := except_bind_eq_ok.mp h
          first
            | cases h
            | obtain ⟨_, -, h⟩ := except_bind_eq_ok.mp h
              cases h
      first
        | exact hch.of_eq rfl rfl rfl rfl
        | split <;> exact hch.of_eq rfl rfl rfl rfl
  refine of_ite_eq h (fun _ h => ?_) fun _ h => ?_
  · by_cases hkey : (properties.bind HandshakeProperties.cookieKey).isNone
    · rw [if_pos hkey] at h
      cases h
    · rw [if_neg hkey] at h
      obtain ⟨cookie, hcookie, h⟩ := except_bind_eq_ok.mp h
      cases h
      refine ⟨⟨hch.random, hch.session, ?_, fun _ => ?_⟩, hch.binders⟩
      · rintro _ ⟨⟩
        exact decodeCookie_wellFormed hcookie
      · exact Option.isSome_iff_ne_none.mpr fun hnone => hkey (by rw [hnone]; rfl)
  refine of_ite_eq h (fun _ h => ?_) fun _ h => ?_
  · obtain ⟨⟨psks, hashEnd⟩, hpsks, h⟩ := except_bind_eq_ok.mp h
    cases h
    exact ⟨hch.toWellFormed.of_eq rfl rfl rfl, decodePreSharedKeys_isPart hpsks hblock⟩
  iterate 5
    refine of_ite_eq h (fun _ h => ?_) fun _ h => ?_
    · first
        | cases h
        | obtain ⟨_, -, h⟩ := except_bind_eq_ok.mp h
          cases h
        | split at h <;> cases h
      exact hch.of_eq rfl rfl rfl rfl
  cases h

/-- An extension, known or not, keeps what the decoder ensures. -/
theorem decodeClientHelloExtension_decodedFrom {left : Src}
    (h : decodeClientHelloExtension properties ch exttype block env s = (.ok (ch', left), t))
    (hblock : block.IsPart message) (hch : ch.DecodedFrom message properties) :
    ch'.DecodedFrom message properties := by
  obtain ⟨_, s₁, -, h⟩ := bind_eq_ok.mp h
  obtain ⟨known, s₂, hknown, h⟩ := bind_eq_ok.mp h
  have hinterpret := (liftM_eq_ok.mp hknown).1
  have hlast : ({ ch with pskIsLastExtension := false } : ClientHello).DecodedFrom message
      properties := hch.of_eq rfl rfl rfl rfl
  cases known with
  | some ch₁ =>
    cases h
    exact interpretClientHelloExtension_decodedFrom hinterpret hblock hlast
  | none =>
    obtain ⟨ch₁, s₃, hcollect, h⟩ := bind_eq_ok.mp h
    cases h
    obtain ⟨wanted, s₄, -, hcollect⟩ := bind_eq_ok.mp hcollect
    cases wanted with
    | true =>
      obtain ⟨slots, s₅, -, hcollect⟩ := bind_eq_ok.mp hcollect
      cases hcollect
      exact hlast.of_eq rfl rfl rfl rfl
    | false =>
      cases hcollect
      exact hlast

/-- A decoded hello is well-formed. -/
theorem decodeClientHello_decodedFrom
    (h : decodeClientHello message properties env s = (.ok ch, t)) :
    ch.DecodedFrom message properties := by
  obtain ⟨⟨version, src₁⟩, s₁, hversion, h⟩ := bind_eq_ok.mp h
  obtain ⟨_, s₂, -, h⟩ := bind_eq_ok.mp h
  obtain ⟨⟨random, src₂⟩, s₃, hrandom, h⟩ := bind_eq_ok.mp h
  obtain ⟨⟨sessionId, src₃⟩, s₄, hsession, h⟩ := bind_eq_ok.mp h
  obtain ⟨_, s₅, hshort, h⟩ := bind_eq_ok.mp h
  obtain ⟨⟨suites, src₄⟩, s₆, hsuites, h⟩ := bind_eq_ok.mp h
  obtain ⟨_, s₇, -, h⟩ := bind_eq_ok.mp h
  obtain ⟨⟨methods, src₅⟩, s₈, hmethods, h⟩ := bind_eq_ok.mp h
  obtain ⟨_, s₉, -, h⟩ := bind_eq_ok.mp h
  have hsrc₁ := (Src.ofMessage_isPart message handshakeHeaderSize).decodeUInt
    (liftM_eq_ok.mp hversion).1
  have hsrc₂ := hsrc₁.decodeBytes (liftM_eq_ok.mp hrandom).1
  have hsrc₃ := (hsrc₂.decodeOpenBlock (liftM_eq_ok.mp hsession).1).2
  have hsrc₄ := (hsrc₃.decodeOpenBlock (liftM_eq_ok.mp hsuites).1).2
  have hsrc₅ := (hsrc₄.decodeOpenBlock (liftM_eq_ok.mp hmethods).1).2
  obtain ⟨hlength, htake, -⟩ := Src.decodeBytes_eq_ok.mp (liftM_eq_ok.mp hrandom).1
  have hrandomLength : random.length = helloRandomSize := by
    rw [htake, List.length_take]
    omega
  have hsessionLength : sessionId.data.length ≤ 32 := by
    have hnot := (throwIf_eq_ok.mp hshort).1
    omega
  dsimp only at h
  split_ifs at h with hempty
  · cases h
    exact ⟨⟨hrandomLength, hsessionLength, nofun, nofun⟩, nofun⟩
  · obtain ⟨⟨ch₁, rest⟩, s₁₀, hopen, h⟩ := bind_eq_ok.mp h
    obtain ⟨_, s₁₁, -, h⟩ := bind_eq_ok.mp h
    cases h
    obtain ⟨⟨block, rest'⟩, s₁₂, hblock, hopen⟩ := bind_eq_ok.mp hopen
    obtain ⟨ch₂, s₁₃, hlist, hopen⟩ := bind_eq_ok.mp hopen
    cases hopen
    exact decodeExtensionList_ok (P := fun _ ch => ch.DecodedFrom message properties)
      (fun _ _ _ _ _ _ _ _ hone => decodeClientHelloExtension_decodedFrom hone) [] hlist
      (hsrc₅.decodeOpenBlock (liftM_eq_ok.mp hblock).1).1
      ⟨⟨hrandomLength, hsessionLength, nofun, nofun⟩, nofun⟩

end Picotls
