import Picotls.Effects.Memory
import Picotls.Sample
import Picotls.Server.HelloMessage

/-!
# Selection from a list of ECH configurations

A client reads a whole list of configurations and takes the first one it can use. Entries of an
unknown version are passed over, and configurations that cannot be used leave nothing behind in the
one that is returned.
-/

namespace Picotls

open Foundation Procedure

variable {env : Environment} {s t : Session}

/-! ## The entries of a list -/

/-- The contents of a configuration. -/
structure EchConfig where
  id : UInt8
  kemId : ℕ
  publicKey : Bytes
  suites : List (ℕ × ℕ)
  maxNameLength : UInt8
  publicName : Bytes
  extensions : List (ℕ × Bytes)

namespace EchConfig

/-- The symmetric suites as octets. -/
def encodeSuites (suites : List (ℕ × ℕ)) : Bytes :=
  suites.flatMap fun suite => toBE 2 suite.1 ++ toBE 2 suite.2

/-- The extensions as octets. -/
def encodeExtensions (extensions : List (ℕ × Bytes)) : Bytes :=
  extensions.flatMap fun extension => toBE 2 extension.1 ++ encodeBlock 2 extension.2

/-- The contents as octets. -/
def body (c : EchConfig) : Bytes :=
  c.id :: (toBE 2 c.kemId ++ (encodeBlock 2 c.publicKey ++ (encodeBlock 2 (encodeSuites c.suites) ++
    (c.maxNameLength :: (encodeBlock 1 c.publicName ++
      encodeBlock 2 (encodeExtensions c.extensions))))))

/-- The fields have the lengths and ranges of the format. -/
structure WellFormed (c : EchConfig) : Prop where
  kemId : c.kemId < 256 ^ 2
  publicKey : c.publicKey ≠ []
  suites : c.suites ≠ []
  suiteIds : ∀ suite ∈ c.suites, suite.1 < 256 ^ 2 ∧ suite.2 < 256 ^ 2
  publicName : c.publicName ≠ []
  nameLength : c.publicName.length < 256 ^ 1
  extensionTypes : ∀ extension ∈ c.extensions, extension.1 < 256 ^ 2
  length : c.body.length < 256 ^ 2

instance (c : EchConfig) : Decidable c.WellFormed :=
  decidable_of_iff (c.kemId < 256 ^ 2 ∧ c.publicKey ≠ [] ∧ c.suites ≠ [] ∧
      (∀ suite ∈ c.suites, suite.1 < 256 ^ 2 ∧ suite.2 < 256 ^ 2) ∧ c.publicName ≠ [] ∧
      c.publicName.length < 256 ^ 1 ∧ (∀ extension ∈ c.extensions, extension.1 < 256 ^ 2) ∧
      c.body.length < 256 ^ 2)
    ⟨fun ⟨h₁, h₂, h₃, h₄, h₅, h₆, h₇, h₈⟩ => ⟨h₁, h₂, h₃, h₄, h₅, h₆, h₇, h₈⟩,
      fun ⟨h₁, h₂, h₃, h₄, h₅, h₆, h₇, h₈⟩ => ⟨h₁, h₂, h₃, h₄, h₅, h₆, h₇, h₈⟩⟩

/-- The first suite of the configuration that the client supports. -/
def cipher (ctx : Context) (c : EchConfig) : Option HpkeCipherSuite :=
  c.suites.findSome? fun suite =>
    (ctx.echClientCiphers.getD []).find? fun cipher => cipher.kdf = suite.1 ∧
      cipher.aeadId = suite.2

/-- The KEM of the configuration, if the client supports it. -/
def kem (ctx : Context) (c : EchConfig) : Option HpkeKem :=
  ctx.echClientKems.find? (·.id = c.kemId)

/-- The client supports the KEM and a suite, the public name is no IP address, and no extension is
mandatory. -/
structure Usable (ctx : Context) (c : EchConfig) : Prop where
  kem : (c.kem ctx).isSome
  cipher : (c.cipher ctx).isSome
  publicName : serverNameIsIpaddr (cString c.publicName) = false
  extensions : ∀ extension ∈ c.extensions, extension.1 < 0x8000

end EchConfig

/-- An entry of a list: a configuration of the known version, or some octets of another version. -/
inductive EchEntry where
  | config (c : EchConfig)
  | other (version : ℕ) (body : Bytes)

namespace EchEntry

/-- The version of an entry. -/
def version : EchEntry → ℕ
  | config _ => ExtensionType.encryptedClientHello
  | other version _ => version

/-- The contents of an entry as octets. -/
def body : EchEntry → Bytes
  | config c => c.body
  | other _ body => body

/-- An entry as octets. -/
def encode (e : EchEntry) : Bytes := toBE 2 e.version ++ encodeBlock 2 e.body

/-- An entry of the format. -/
def WellFormed : EchEntry → Prop
  | config c => c.WellFormed
  | other version body =>
    version < 256 ^ 2 ∧ version ≠ ExtensionType.encryptedClientHello ∧ body.length < 256 ^ 2

instance (e : EchEntry) : Decidable e.WellFormed :=
  match e with
  | config c => inferInstanceAs (Decidable c.WellFormed)
  | other version body => inferInstanceAs (Decidable (version < 256 ^ 2 ∧
      version ≠ ExtensionType.encryptedClientHello ∧ body.length < 256 ^ 2))

/-- An entry that the client can use. -/
def Usable (ctx : Context) : EchEntry → Prop
  | config c => c.Usable ctx
  | other _ _ => False

end EchEntry

/-- The fields of a configuration that is returned. -/
def EchConfig.decoded (ctx : Context) (c : EchConfig) : DecodedEchConfig where
  id := c.id
  kem := c.kem ctx
  publicKey := c.publicKey
  cipher := c.cipher ctx
  maxNameLength := c.maxNameLength.toNat
  publicName := c.publicName
  bytes := (EchEntry.config c).encode

/-- What is to be selected from a list: its first entry that can be used, if there is one. -/
inductive SelectsEchConfig (ctx : Context) (entries : List EchEntry) :
    Option DecodedEchConfig → Prop
  | first (before : List EchEntry) (c : EchConfig) (after : List EchEntry)
      (hentries : entries = before ++ .config c :: after) (hbefore : ∀ e ∈ before, ¬ e.Usable ctx)
      (husable : c.Usable ctx) : SelectsEchConfig ctx entries (some (c.decoded ctx))
  | nothing (hnone : ∀ e ∈ entries, ¬ e.Usable ctx) : SelectsEchConfig ctx entries none

/-- An entry that cannot be used makes no difference in front of a list. -/
theorem SelectsEchConfig.cons {ctx : Context} {entries : List EchEntry} {e : EchEntry}
    {found : Option DecodedEchConfig} (h : SelectsEchConfig ctx entries found)
    (he : ¬ e.Usable ctx) : SelectsEchConfig ctx (e :: entries) found := by
  cases h with
  | first before c after hentries hbefore husable =>
    refine .first (e :: before) c after (by rw [hentries, List.cons_append]) ?_ husable
    simpa using ⟨he, hbefore⟩
  | nothing hnone => exact .nothing (by simpa using ⟨he, hnone⟩)

/-! ## Reading one configuration -/

/-- One octet is read back. -/
theorem Src.decode8_cons (off : ℕ) (octet : UInt8) (rest : Bytes) :
    Src.decode8 ⟨off, octet :: rest⟩ = .ok (octet, ⟨off + 1, rest⟩) := rfl

/-- Parts that are not empty are no more than the octets they have. -/
theorem length_le_length_flatMap {α : Type} {f : α → Bytes} (hf : ∀ a, 0 < (f a).length)
    (as : List α) : as.length ≤ (as.flatMap f).length := by
  induction as with
  | nil => exact Nat.zero_le _
  | cons a as ih =>
    have ha := hf a
    rw [List.flatMap_cons, List.length_append, List.length_cons]
    omega

namespace EchConfig

variable {c : EchConfig}

theorem length_body (c : EchConfig) : c.body.length = 11 + c.publicKey.length +
    (encodeSuites c.suites).length + c.publicName.length +
      (encodeExtensions c.extensions).length := by
  simp only [body, List.length_cons, List.length_append, toBE_length, encodeBlock_length]
  omega

variable {ciphers : List HpkeCipherSuite}

/-- All suites are read, and the first one that is supported is kept. -/
theorem decodeEchCiphers_encode {suites : List (ℕ × ℕ)} {fuel off : ℕ}
    {found : Option HpkeCipherSuite} (hne : suites ≠ []) (hfuel : suites.length ≤ fuel)
    (hids : ∀ suite ∈ suites, suite.1 < 256 ^ 2 ∧ suite.2 < 256 ^ 2) :
    decodeEchCiphers ciphers fuel found ⟨off, encodeSuites suites⟩ =
      .ok (found <|> suites.findSome? fun suite =>
        ciphers.find? fun cipher => cipher.kdf = suite.1 ∧ cipher.aeadId = suite.2) := by
  induction suites generalizing fuel off found with
  | nil => exact absurd rfl hne
  | cons suite suites ih =>
    obtain ⟨fuel, rfl⟩ : ∃ n, fuel = n + 1 := ⟨fuel - 1, by simp at hfuel; omega⟩
    obtain ⟨hkdf, haead⟩ := hids suite List.mem_cons_self
    have hdata : encodeSuites (suite :: suites) =
        toBE 2 suite.1 ++ (toBE 2 suite.2 ++ encodeSuites suites) := by
      simp [encodeSuites]
    have hids' : ∀ suite ∈ suites, suite.1 < 256 ^ 2 ∧ suite.2 < 256 ^ 2 :=
      fun suite' h => hids suite' (List.mem_cons_of_mem _ h)
    rw [decodeEchCiphers, hdata, Src.decodeUInt_toBE off _ hkdf]
    dsimp only [bind, Except.bind]
    rw [Src.decodeUInt_toBE (off + 2) _ haead]
    dsimp only
    rw [List.findSome?_cons]
    cases suites with
    | nil =>
      rw [if_pos (by rfl), List.findSome?_nil]
      cases found <;>
        cases ciphers.find? fun cipher => cipher.kdf = suite.1 ∧ cipher.aeadId = suite.2 <;> rfl
    | cons suite' suites =>
      have hmore : encodeSuites (suite' :: suites) ≠ [] := by
        intro hnil
        have hlength := congrArg List.length hnil
        simp [encodeSuites] at hlength
      rw [if_neg hmore, ih (by simp) (by simp at hfuel ⊢; omega) hids']
      cases found <;>
        cases ciphers.find? fun cipher => cipher.kdf = suite.1 ∧ cipher.aeadId = suite.2 <;> rfl

/-- All extensions are read, and it is noted whether one of them is mandatory. -/
theorem decodeEchExtensions_encode {extensions : List (ℕ × Bytes)} {fuel off : ℕ} {critical : Bool}
    (hfuel : extensions.length ≤ fuel) (htypes : ∀ extension ∈ extensions, extension.1 < 256 ^ 2)
    (hlength : (encodeExtensions extensions).length < 256 ^ 2) :
    decodeEchExtensions fuel critical ⟨off, encodeExtensions extensions⟩ =
      .ok (critical || extensions.any fun extension => decide (0x8000 ≤ extension.1)) := by
  induction extensions generalizing fuel off critical with
  | nil => cases fuel <;> simp [decodeEchExtensions, encodeExtensions]
  | cons extension extensions ih =>
    obtain ⟨fuel, rfl⟩ : ∃ n, fuel = n + 1 := ⟨fuel - 1, by simp at hfuel; omega⟩
    have hdata : encodeExtensions (extension :: extensions) =
        toBE 2 extension.1 ++ (encodeBlock 2 extension.2 ++ encodeExtensions extensions) := by
      simp [encodeExtensions]
    rw [hdata] at hlength ⊢
    simp only [List.length_append, toBE_length, encodeBlock_length] at hlength
    have hne : toBE 2 extension.1 ++ (encodeBlock 2 extension.2 ++ encodeExtensions extensions) ≠
        [] := by
      intro hnil
      have := congrArg List.length hnil
      simp at this
    rw [decodeEchExtensions, if_neg hne,
      Src.decodeUInt_toBE off _ (htypes extension List.mem_cons_self)]
    dsimp only [bind, Except.bind]
    rw [Src.decodeOpenBlock_encodeBlock (off + 2) _ (by omega)]
    dsimp only
    rw [ih (by simp at hfuel; omega) (fun e he => htypes e (List.mem_cons_of_mem _ he)) (by omega),
      List.any_cons, Bool.or_assoc]

/-- A well-formed configuration is read; if it cannot be used, its KEM or its cipher is missing. -/
theorem decodeOneEchConfig_ends {ctx : Context} (hc : c.WellFormed) (off : ℕ) :
    Ends (LacksMemory env) (fun conf t => t.tls = s.tls ∧
        (c.Usable ctx → conf = { c.decoded ctx with bytes := [] }) ∧
        (¬ c.Usable ctx → (conf.kem.isSome && conf.cipher.isSome) = false))
      (decodeOneEchConfig ctx.echClientKems (ctx.echClientCiphers.getD [])
        ⟨off, c.body⟩ env s) := by
  have hlength := hc.length
  rw [length_body] at hlength
  have hsuites : c.suites.length ≤ (encodeSuites c.suites).length :=
    length_le_length_flatMap (fun suite => by simp) c.suites
  have hextensions : c.extensions.length ≤ (encodeExtensions c.extensions).length :=
    length_le_length_flatMap (fun extension => by simp) c.extensions
  rw [decodeOneEchConfig, body, liftM_bind_of_ok (Src.decode8_cons off _ _)]
  dsimp only
  rw [liftM_bind_of_ok (Src.decodeUInt_toBE (off + 1) _ hc.kemId)]
  dsimp only
  rw [liftM_bind_of_ok (Src.decodeOpenBlock_encodeBlock (off + 1 + 2) _ (by omega))]
  dsimp only
  rw [throwIf_bind_of_not hc.publicKey,
    liftM_bind_of_ok (Src.decodeOpenBlock_encodeBlock _ _ (by omega))]
  dsimp only
  rw [liftM_bind_of_ok (decodeEchCiphers_encode hc.suites (by omega) hc.suiteIds),
    liftM_bind_of_ok (Src.decode8_cons _ _ _)]
  dsimp only
  rw [liftM_bind_of_ok (Src.decodeOpenBlock_encodeBlock _ _ hc.nameLength)]
  dsimp only
  rw [throwIf_bind_of_not hc.publicName]
  refine allocate_ends.bind fun _ t ht => ?_
  rw [liftM_bind_of_ok (Src.decodeBlock_encodeBlock _ (by omega))]
  dsimp only
  rw [liftM_bind_of_ok (decodeEchExtensions_encode hextensions hc.extensionTypes (by omega))]
  subst ht
  have hcritical : (c.extensions.any fun extension => decide (0x8000 ≤ extension.1)) = false ↔
      ∀ extension ∈ c.extensions, extension.1 < 0x8000 := by
    simp only [List.any_eq_false, decide_eq_true_eq, Nat.not_le]
  refine ⟨rfl, fun husable => ?_, fun hunusable => ?_⟩
  · rw [hcritical.mpr husable.extensions, husable.publicName]
    rfl
  · cases hname : serverNameIsIpaddr (cString c.publicName) with
    | true => rfl
    | false =>
      cases hany : c.extensions.any fun extension => decide (0x8000 ≤ extension.1) with
      | true => rfl
      | false =>
        refine Bool.eq_false_iff.mpr fun hsome => hunusable ?_
        obtain ⟨hkem, hcipher⟩ := Bool.and_eq_true_iff.mp hsome
        exact ⟨hkem, hcipher, hname, hcritical.mp hany⟩

end EchConfig

/-! ## Reading a list -/

namespace EchEntry

theorem length_encode_pos (e : EchEntry) : 0 < e.encode.length := by
  simp [encode]

theorem WellFormed.fits {e : EchEntry} (h : e.WellFormed) :
    e.version < 256 ^ 2 ∧ e.body.length < 256 ^ 2 := by
  cases e with
  | config c => exact ⟨(by decide : ExtensionType.encryptedClientHello < 256 ^ 2), h.length⟩
  | other version body => exact ⟨h.1, h.2.2⟩

/-- What is known after an entry: what was found before, or the entry if it can be used. -/
def Leaves (ctx : Context) (e : EchEntry) (found found' : Option DecodedEchConfig) : Prop :=
  (found.isSome → found' = found) ∧
  (found = none → (∃ c, e = .config c ∧ c.Usable ctx ∧ found' = some (c.decoded ctx)) ∨
    ¬ e.Usable ctx ∧ found' = none)

end EchEntry

/-- One entry is read. -/
theorem decodeEchEntry_ends {ctx : Context} {e : EchEntry} {found : Option DecodedEchConfig}
    (he : e.WellFormed) (off : ℕ) (rest : Bytes) :
    Ends (LacksMemory env) (fun found' t => t.tls = s.tls ∧ e.Leaves ctx found found')
      ((if e.version = ExtensionType.encryptedClientHello then do
          let conf ← decodeOneEchConfig ctx.echClientKems (ctx.echClientCiphers.getD [])
            ⟨off, e.body⟩
          return if found.isNone && conf.kem.isSome && conf.cipher.isSome then
              some { conf with bytes := (e.encode ++ rest).take (4 + e.body.length) }
            else found
        else return found : Proc (Option DecodedEchConfig)) env s) := by
  cases e with
  | config c =>
    have hversion : (EchEntry.config c).version = ExtensionType.encryptedClientHello := rfl
    rw [if_pos hversion]
    refine (EchConfig.decodeOneEchConfig_ends he off).bind fun conf t ht => ?_
    obtain ⟨htls, husable, hunusable⟩ := ht
    refine ⟨htls, fun hsome => ?_, fun hnone => ?_⟩
    · obtain ⟨conf', rfl⟩ := Option.isSome_iff_exists.mp hsome
      rfl
    · subst hnone
      by_cases hc : c.Usable ctx
      · have hbytes : ((EchEntry.config c).encode ++ rest).take (4 + c.body.length) =
            (EchEntry.config c).encode := by
          refine List.take_left' ?_
          simp [EchEntry.encode, EchEntry.body]
          omega
        refine .inl ⟨c, rfl, hc, ?_⟩
        have hsome : (Option.isNone (none : Option DecodedEchConfig) && conf.kem.isSome &&
            conf.cipher.isSome) = true := by
          rw [husable hc]
          exact Bool.and_eq_true_iff.mpr ⟨hc.kem, hc.cipher⟩
        rw [if_pos hsome, husable hc]
        exact congrArg (fun bytes => some { c.decoded ctx with bytes := bytes }) hbytes
      · have hmissing : ¬ (Option.isNone (none : Option DecodedEchConfig) && conf.kem.isSome &&
            conf.cipher.isSome) = true := by
          rw [Option.isNone_none, Bool.true_and, hunusable hc]
          decide
        exact .inr ⟨hc, if_neg hmissing⟩
  | other version body =>
    have hversion : (EchEntry.other version body).version ≠ ExtensionType.encryptedClientHello :=
      he.2.1
    rw [if_neg hversion]
    exact ⟨rfl, fun _ => rfl, fun hnone => .inr ⟨id, hnone⟩⟩

/-- A list of well-formed entries is read to its end; what was found before stays. -/
theorem decodeEchConfigs_ends {ctx : Context} {entries : List EchEntry} {fuel off : ℕ}
    {found : Option DecodedEchConfig} (hne : entries ≠ []) (hfuel : entries.length ≤ fuel)
    (hentries : ∀ e ∈ entries, e.WellFormed) :
    Ends (LacksMemory env) (fun found' t => t.tls = s.tls ∧
        (found.isSome → found' = found) ∧ (found = none → SelectsEchConfig ctx entries found'))
      (decodeEchConfigs ctx.echClientKems (ctx.echClientCiphers.getD []) fuel found
        ⟨off, entries.flatMap EchEntry.encode⟩ env s) := by
  induction entries generalizing fuel off found s with
  | nil => exact absurd rfl hne
  | cons e entries ih =>
    obtain ⟨fuel, rfl⟩ : ∃ n, fuel = n + 1 := ⟨fuel - 1, by simp at hfuel; omega⟩
    obtain ⟨hversion, hbody⟩ := (hentries e List.mem_cons_self).fits
    have hdata : (e :: entries).flatMap EchEntry.encode =
        toBE 2 e.version ++ (encodeBlock 2 e.body ++ entries.flatMap EchEntry.encode) := by
      rw [List.flatMap_cons, EchEntry.encode, List.append_assoc]
    have hentry := @decodeEchEntry_ends env s ctx e found (hentries e List.mem_cons_self)
      (off + 2 + 2) (entries.flatMap EchEntry.encode)
    rw [EchEntry.encode, List.append_assoc] at hentry
    rw [decodeEchConfigs, hdata, liftM_bind_of_ok (Src.decodeUInt_toBE off _ hversion)]
    dsimp only
    rw [liftM_bind_of_ok (Src.decodeOpenBlock_encodeBlock (off + 2) _ hbody)]
    dsimp only
    refine hentry.bind fun found' t ht => ?_
    obtain ⟨htls, hbefore, hfirst⟩ := ht
    cases entries with
    | nil =>
      rw [if_pos (by rfl)]
      refine ⟨htls, hbefore, fun hnone => ?_⟩
      obtain ⟨c, rfl, husable, rfl⟩ | ⟨hunusable, rfl⟩ := hfirst hnone
      · exact .first [] c [] rfl (by simp) husable
      · exact .nothing (by simpa using hunusable)
    | cons e' entries =>
      have hmore : (e' :: entries).flatMap EchEntry.encode ≠ [] := by
        intro hnil
        have hlength := congrArg List.length hnil
        have hpos := e'.length_encode_pos
        rw [List.flatMap_cons, List.length_append, List.length_nil] at hlength
        omega
      rw [if_neg hmore]
      refine (ih (by simp) (by simp at hfuel ⊢; omega)
        fun e he => hentries e (List.mem_cons_of_mem _ he)).mono (fun _ => id)
          fun found'' u hu => ?_
      obtain ⟨htls', hkept, hlater⟩ := hu
      refine ⟨htls'.trans htls, fun hsome => ?_, fun hnone => ?_⟩
      · rw [hkept (by rwa [hbefore hsome]), hbefore hsome]
      · obtain ⟨c, rfl, husable, rfl⟩ | ⟨hunusable, rfl⟩ := hfirst hnone
        · rw [hkept rfl]
          exact .first [] c _ rfl (by simp) husable
        · exact (hlater rfl).cons hunusable

/-! ## Writing a configuration -/

/-- The suites of a configuration are appended one after the other. -/
theorem forEach_suites_appends {u : Unit}
    (h : Procedure.forEach (fun cipher : HpkeCipherSuite => do
      bufferPushUInt 2 cipher.kdf
      bufferPushUInt 2 cipher.aeadId) ciphers env s = (.ok u, t)) :
    t.sendbuf = s.sendbuf ++ EchConfig.encodeSuites
      (ciphers.map fun cipher => (cipher.kdf % 256 ^ 2, cipher.aeadId % 256 ^ 2)) := by
  induction ciphers generalizing s with
  | nil =>
    cases h
    exact (List.append_nil _).symm
  | cons cipher ciphers ih =>
    obtain ⟨_, s₁, hcipher, hrest⟩ := bind_eq_ok.mp h
    obtain ⟨_, s₂, hkdf, haead⟩ := bind_eq_ok.mp hcipher
    rw [ih hrest, bufferPushUInt_appends haead, bufferPushUInt_appends hkdf]
    simp only [EchConfig.encodeSuites, List.map_cons, List.flatMap_cons, toBE_mod,
      List.append_assoc]

/-- The configuration that is written for some parameters. -/
def EchConfig.written (configId : UInt8) (kem : HpkeKem) (publicKey : Bytes)
    (ciphers : List HpkeCipherSuite) (maxNameLength : UInt8) (publicName : Bytes) : EchConfig where
  id := configId
  kemId := kem.id % 256 ^ 2
  publicKey := publicKey
  suites := ciphers.map fun cipher => (cipher.kdf % 256 ^ 2, cipher.aeadId % 256 ^ 2)
  maxNameLength := maxNameLength
  publicName := cString publicName
  extensions := []

/-- What is written is a well-formed configuration, unless the key, the suites or the name are
missing. -/
theorem ptlsEchEncodeConfig_eq_ok {configId maxNameLength : UInt8} {kem : HpkeKem}
    {publicKey publicName : Bytes} {u : Unit}
    (h : ptlsEchEncodeConfig configId kem publicKey ciphers maxNameLength publicName env s =
      (.ok u, t))
    (hkey : publicKey ≠ []) (hciphers : ciphers ≠ []) (hname : cString publicName ≠ []) :
    let c := EchConfig.written configId kem publicKey ciphers maxNameLength publicName
    c.WellFormed ∧ t.sendbuf = s.sendbuf ++ (EchEntry.config c).encode := by
  intro c
  rw [ptlsEchEncodeConfig] at h
  obtain ⟨_, s₁, hversion, h⟩ := bind_eq_ok.mp h
  obtain ⟨s₂, t₂, hbody, hblock⟩ := bufferPushBlock_appends h
  obtain ⟨_, s₃, hid, hbody⟩ := bind_eq_ok.mp hbody
  obtain ⟨_, s₄, hkem, hbody⟩ := bind_eq_ok.mp hbody
  obtain ⟨_, s₅, hkeyBlock, hbody⟩ := bind_eq_ok.mp hbody
  obtain ⟨_, s₆, hsuiteBlock, hbody⟩ := bind_eq_ok.mp hbody
  obtain ⟨_, s₇, hmax, hbody⟩ := bind_eq_ok.mp hbody
  obtain ⟨_, s₈, hnameBlock, hextensions⟩ := bind_eq_ok.mp hbody
  obtain ⟨_, _, hpush, hfits⟩ := bufferPushBlock_appends hkeyBlock
  obtain ⟨-, hs₅⟩ := hfits _ (bufferPushv_appends hpush)
  obtain ⟨_, _, hpush, hfits⟩ := bufferPushBlock_appends hsuiteBlock
  obtain ⟨-, hs₆⟩ := hfits _ (forEach_suites_appends hpush)
  obtain ⟨_, _, hpush, hfits⟩ := bufferPushBlock_appends hnameBlock
  obtain ⟨hnameLength, hs₈⟩ := hfits _ (bufferPushv_appends hpush)
  obtain ⟨_, _, hpush, hfits⟩ := bufferPushBlock_appends hextensions
  cases hpush
  obtain ⟨-, ht₂⟩ := hfits [] (List.append_nil _).symm
  have hbody : t₂.sendbuf = s₂.sendbuf ++ c.body := by
    rw [ht₂, hs₈, bufferPushv_appends hmax, hs₆, hs₅, bufferPushUInt_appends hkem,
      bufferPushv_appends hid]
    rw [EchConfig.body, show toBE 2 c.kemId = toBE 2 kem.id from toBE_mod 2 kem.id]
    simp only [List.append_assoc, List.cons_append, List.nil_append]
    rfl
  obtain ⟨hlength, ht⟩ := hblock _ hbody
  refine ⟨⟨Nat.mod_lt _ (by decide), hkey, ?_, ?_, hname, hnameLength, ?_, hlength⟩, ?_⟩
  · simpa [c, EchConfig.written] using hciphers
  · simp only [c, EchConfig.written, List.mem_map]
    rintro _ ⟨cipher, -, rfl⟩
    exact ⟨Nat.mod_lt _ (by decide), Nat.mod_lt _ (by decide)⟩
  · simp [c, EchConfig.written]
  · rw [ht, bufferPushUInt_appends hversion, List.append_assoc]
    rfl

/-! ## The selection -/

/-- From a list of well-formed entries the client takes the first one that it can use, with the
fields of this entry, and nothing if there is none; it fails only for lack of memory. The entries
include the configurations that are written with a key, suites and a name. -/
theorem ech_config_list_selection (env : Environment) (s : Session) (ctx : Context) :
    (∀ entries : List EchEntry, entries ≠ [] → (∀ e ∈ entries, e.WellFormed) →
      (entries.flatMap EchEntry.encode).length < 256 ^ 2 →
      let list := encodeBlock 2 (entries.flatMap EchEntry.encode)
      (∃ found t, clientDecodeEchConfigList ctx list env s = (.ok found, t) ∧ t.tls = s.tls ∧
        SelectsEchConfig ctx entries found) ∨
      ∃ fault t, clientDecodeEchConfigList ctx list env s = (.error fault, t) ∧
        LacksMemory env fault) ∧
    ∀ configId kem publicKey ciphers maxNameLength publicName u t,
      ptlsEchEncodeConfig configId kem publicKey ciphers maxNameLength publicName env s =
        (.ok u, t) → publicKey ≠ [] → ciphers ≠ [] → cString publicName ≠ [] →
      let c := EchConfig.written configId kem publicKey ciphers maxNameLength publicName
      c.WellFormed ∧ t.sendbuf = s.sendbuf ++ (EchEntry.config c).encode := by
  refine ⟨fun entries hne hentries hlength => ?_,
    fun _ _ _ _ _ _ _ _ h => ptlsEchEncodeConfig_eq_ok h⟩
  have hfuel := length_le_length_flatMap EchEntry.length_encode_pos entries
  have hopen := Src.decodeOpenBlock_encodeBlock 0 [] hlength
  rw [List.append_nil] at hopen
  have hends : Ends (LacksMemory env)
      (fun found t => t.tls = s.tls ∧ SelectsEchConfig ctx entries found)
      (clientDecodeEchConfigList ctx (encodeBlock 2 (entries.flatMap EchEntry.encode)) env s) := by
    rw [clientDecodeEchConfigList, liftM_bind_of_ok hopen]
    dsimp only
    refine (decodeEchConfigs_ends hne (Nat.le_succ_of_le hfuel) hentries).bind fun found t ht => ?_
    exact ⟨ht.1, ht.2.2 rfl⟩
  intro list
  rcases hrun : clientDecodeEchConfigList ctx list env s with ⟨fault | found, t⟩
  · exact .inr ⟨fault, t, rfl, hends.error hrun⟩
  · exact .inl ⟨found, t, rfl, hends.ok hrun⟩

namespace Sample

/-- A client that supports one KEM and one suite for ECH. -/
def choosyContext : Context := { context with
  echClientCiphers := some [⟨1, 1, hash 0, aead⟩]
  echClientKems := [⟨32, ⟨29, 0⟩, hash 0⟩] }

/-- A configuration with two suites, of which the client supports the second one. -/
def echConfig : EchConfig := ⟨7, 32, [1, 2], [(1, 2), (1, 1)], 9, ascii "a.b", [(5, [])]⟩

/-- Entries that cannot be used stand around one that can. -/
def echEntries : List EchEntry :=
  [.other 5 [1], .config { echConfig with kemId := 33 },
    .config { echConfig with publicName := ascii "1.2.3.4" },
    .config { echConfig with extensions := [(0x8001, [3])] }, .config echConfig,
    .config { echConfig with id := 8 }]

/-- How writing a configuration ends. -/
def echWritten : Except Fault Unit × Session :=
  ptlsEchEncodeConfig 7 ⟨32, ⟨29, 0⟩, hash 0⟩ [1, 2] [⟨1, 1, hash 0, aead⟩] 9
    (ascii "a.b") environment (.initial choosyContext false)

end Sample

open Sample

/-- The theorem at a list whose fifth entry is the first one that can be used, and at a
configuration that is written. -/
theorem ech_config_list_selection_sample :
    (∃ found t, clientDecodeEchConfigList choosyContext
        (encodeBlock 2 (echEntries.flatMap EchEntry.encode)) environment
        (.initial choosyContext false) = (.ok found, t) ∧
      SelectsEchConfig choosyContext echEntries found ∧
      found.map DecodedEchConfig.id = some 7) ∧
    ∃ t c, echWritten = (.ok (), t) ∧ c.WellFormed ∧
      t.sendbuf = (EchEntry.config c).encode := by
  have hselection := ech_config_list_selection environment (.initial choosyContext false)
    choosyContext
  constructor
  · have hid : (clientDecodeEchConfigList choosyContext
        (encodeBlock 2 (echEntries.flatMap EchEntry.encode)) environment
        (.initial choosyContext false)).1.toOption.map (·.map DecodedEchConfig.id) =
          some (some 7) := by decide +kernel
    have hentries : ∀ e ∈ echEntries, e.WellFormed := by decide +kernel
    have hlength : (echEntries.flatMap EchEntry.encode).length < 256 ^ 2 := by decide +kernel
    obtain ⟨found, t, hrun, -, hselects⟩ | ⟨fault, t, -, -, tick, halloc⟩ :=
      hselection.1 echEntries (List.cons_ne_nil _ _) hentries hlength
    · rw [hrun] at hid
      exact ⟨found, t, hrun, hselects, Option.some.inj hid⟩
    · cases halloc
  · have hsucceeds : echWritten.1.toBool = true := by decide +kernel
    rcases hrun : echWritten with ⟨fault | u, t⟩ <;> rw [hrun] at hsucceeds
    · cases hsucceeds
    · obtain ⟨hwellFormed, hsent⟩ := hselection.2 7 ⟨32, ⟨29, 0⟩, Sample.hash 0⟩ [1, 2]
        [⟨1, 1, Sample.hash 0, aead⟩] 9 (ascii "a.b") u t hrun (by decide) (by simp) (by decide)
      exact ⟨t, _, rfl, hwellFormed, hsent⟩

end Picotls
