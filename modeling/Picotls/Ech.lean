import Picotls.KeySchedule
import Picotls.Wire

/-!
# Encrypted ClientHello configurations

The client picks the first usable configuration of a list, sets up an HPKE sender for it, and keeps
the public name under which the outer ClientHello is sent. A client without a configuration may
send an offer of the same shape made of random octets.
-/

namespace Picotls

open Foundation

variable [Crypto]

/-- Clear the secrets of an ECH state, keeping its flags and modes. -/
def clearEch (ech : Ech) (isServer : Bool) : Ech :=
  let ech := { ech with aead := none, innerClientRandom := zeros helloRandomSize }
  if isServer then ech else { ech with enc := [], publicName := none, firstEch := none }

/-- Update the ECH state of the connection. -/
def modifyEch (f : Ech → Ech) : Proc Unit := modifyTls fun tls => { tls with ech := f tls.ech }

/-- A decoded ECH configuration; an unusable one lacks its KEM and its cipher. -/
structure DecodedEchConfig where
  id : UInt8 := 0
  kem : Option HpkeKem := none
  publicKey : Bytes := []
  cipher : Option HpkeCipherSuite := none
  maxNameLength : ℕ := 0
  publicName : Bytes := []
  bytes : Bytes := []

/-- The symmetric suites of a configuration: the first one the client supports. -/
def decodeEchCiphers (ciphers : List HpkeCipherSuite) :
    ℕ → Option HpkeCipherSuite → Src → Except Fault (Option HpkeCipherSuite)
  | 0, found, _ => .ok found
  | fuel + 1, found, src => do
    let (kdf, src) ← src.decodeUInt 2
    let (aead, src) ← src.decodeUInt 2
    let found := found <|> ciphers.find? fun c => c.kdf = kdf ∧ c.aeadId = aead
    if src.data = [] then return found
    decodeEchCiphers ciphers fuel found src

/-- The extensions of a configuration: whether one of them is mandatory. -/
def decodeEchExtensions : ℕ → Bool → Src → Except Fault Bool
  | 0, critical, _ => .ok critical
  | fuel + 1, critical, src =>
    if src.data = [] then .ok critical
    else do
      let (type, src) ← src.decodeUInt 2
      let (_, rest) ← src.decodeOpenBlock 2
      decodeEchExtensions fuel (critical || decide (0x8000 ≤ type)) rest

/-- Decode the contents of one configuration. -/
def decodeOneEchConfig (kems : List HpkeKem) (ciphers : List HpkeCipherSuite) (src : Src) :
    Proc DecodedEchConfig := do
  let (id, src) ← src.decode8
  let (kemId, src) ← src.decodeUInt 2
  let kem := kems.find? (·.id = kemId)
  let (publicKey, src) ← src.decodeOpenBlock 2
  throwIf (publicKey.data = []) Alert.decodeError
  let (suites, src) ← src.decodeOpenBlock 2
  let cipher ← decodeEchCiphers ciphers (suites.data.length + 1) none suites
  let (maxNameLength, src) ← src.decode8
  let (name, src) ← src.decodeOpenBlock 1
  throwIf (name.data = []) Alert.decodeError
  allocate
  let isIpaddr := serverNameIsIpaddr (cString name.data)
  let extensions ← src.decodeBlock 2
  let critical ← decodeEchExtensions extensions.data.length false extensions
  let usable := !isIpaddr && !critical
  return {
    id := id
    kem := if usable then kem else none
    publicKey := publicKey.data
    cipher := if usable then cipher else none
    maxNameLength := maxNameLength.toNat
    publicName := if isIpaddr then [] else name.data }

/-- Decode the configurations of a list, keeping the first usable one. -/
def decodeEchConfigs (kems : List HpkeKem) (ciphers : List HpkeCipherSuite) :
    ℕ → Option DecodedEchConfig → Src → Proc (Option DecodedEchConfig)
  | 0, found, _ => pure found
  | fuel + 1, found, src => do
    let (version, body) ← src.decodeUInt 2
    let (block, rest) ← body.decodeOpenBlock 2
    let found ← (if version = ExtensionType.encryptedClientHello then do
        let conf ← decodeOneEchConfig kems ciphers block
        return if found.isNone && conf.kem.isSome && conf.cipher.isSome then
            some { conf with bytes := src.data.take (4 + block.data.length) }
          else found
      else return found)
    if rest.data = [] then return found else decodeEchConfigs kems ciphers fuel found rest

/-- Decode an ECHConfigList: its first configuration the client can use. -/
def clientDecodeEchConfigList (ctx : Context) (configList : Bytes) :
    Proc (Option DecodedEchConfig) := do
  let (block, rest) ← Src.decodeOpenBlock 2 ⟨0, configList⟩
  let found ← decodeEchConfigs ctx.echClientKems (ctx.echClientCiphers.getD [])
    (block.data.length + 1) none block
  rest.assertBlockClose
  return found

/-- Write a configuration, as a server publishes it. -/
def ptlsEchEncodeConfig (configId : UInt8) (kem : HpkeKem) (publicKey : Bytes)
    (ciphers : List HpkeCipherSuite) (maxNameLength : UInt8) (publicName : Bytes) : Proc Unit := do
  bufferPushUInt 2 ExtensionType.encryptedClientHello
  bufferPushBlock 2 do
    bufferPushv [configId]
    bufferPushUInt 2 kem.id
    bufferPushBlock 2 (bufferPushv publicKey)
    bufferPushBlock 2 (Procedure.forEach (fun cipher : HpkeCipherSuite => do
      bufferPushUInt 2 cipher.kdf
      bufferPushUInt 2 cipher.aeadId) ciphers)
    bufferPushv [maxNameLength]
    bufferPushBlock 1 (bufferPushv (cString publicName))
    bufferPushBlock 2 (pure ())

/-- The fixed start of the HPKE info string, including its terminating null octet. -/
def echInfoPrefix : Bytes := ascii "tls ech" ++ [0]

/-- Set up the HPKE sender for a configuration. -/
def clientSetupEchBody (decoded : DecodedEchConfig) (kem : HpkeKem) (cipher : HpkeCipherSuite) :
    Proc Unit := do
  allocate
  let answer ← ask fun env tick =>
    env.hpkeSetupBaseS tick kem cipher decoded.publicKey (echInfoPrefix ++ decoded.bytes)
  let (enc, aead) ← ofAnswer answer
  modifyEch fun ech => { ech with
    enc := enc, aead := aead, configId := decoded.id, kem := some kem, cipher := some cipher }
  let random ← randomBytes helloRandomSize
  modifyEch fun ech => { ech with
    innerClientRandom := random, maxNameLength := decoded.maxNameLength }
  allocate
  modifyEch fun ech => { ech with publicName := some (cString decoded.publicName) }

/-- Set up the HPKE sender, clearing the ECH state if that fails. -/
def clientSetupEch (decoded : DecodedEchConfig) (kem : HpkeKem) (cipher : HpkeCipherSuite) :
    Proc Unit := do
  let result ← Procedure.attempt (clientSetupEchBody decoded kem cipher)
  match result with
  | .ok _ => pure ()
  | .error fault => do
    modifyEch (clearEch · false)
    Procedure.fail fault

/-- An AEAD context from a key and an IV given as octets. -/
def AeadContext.newDirect (algo : AeadAlgorithm) (key iv : Bytes) : AeadContext where
  algo := algo
  key := key.take algo.keySize
  iv := (iv ++ zeros algo.ivSize).take algo.ivSize
  iv_length := by simp

/-- The steps of a GREASE offer that may fail. -/
def clientSetupEchGreaseBody (kems : List HpkeKem) (ciphers : List HpkeCipherSuite)
    (sniName : Bytes) : Proc Unit := do
  let kem := kems.find? (·.id = 32)
  let cipher := ciphers.find? fun c => c.kdf = 1 ∧ c.aeadId = 1
  modifyEch fun ech => { ech with kem := kem <|> ech.kem, cipher := cipher <|> ech.cipher }
  match kem, cipher with
  | some _, some cipher => do
    let secret ← randomBytes 32
    let allocated ← ask Environment.alloc
    modifyEch fun ech => { ech with
      aead := if allocated then some (.newDirect cipher.aead secret (secret.drop 16)) else none }
    allocate
    let enc ← randomBytes 32
    modifyEch fun ech => { ech with enc := enc }
    let configId ← randomBytes 1
    modifyEch fun ech => { ech with configId := configId.headD 0, maxNameLength := 64 }
    allocate
    modifyEch fun ech => { ech with publicName := some sniName }
  | _, _ => throwCode Error.library

/-- Set up a GREASE offer; a failure leaves a cleared ECH state. -/
def clientSetupEchGrease (kems : List HpkeKem) (ciphers : List HpkeCipherSuite)
    (sniName : Bytes) : Proc Unit := do
  let result ← Procedure.attempt (clientSetupEchGreaseBody kems ciphers sniName)
  match result with
  | .ok _ => pure ()
  | .error _ => modifyEch (clearEch · false)

/-- The confirmation of a hello: eight octets derived from the inner random and the transcript up
to the hello. -/
def echCalcConfirmation (innerRandom : Bytes) (label : Label) (message : Bytes) : Proc Bytes := do
  let slot ← firstHash
  allocate
  let transcriptHash := Crypto.hash slot.algo (slot.ctx ++ message)
  let secret ← hkdfExtract slot.algo [] innerRandom
  hkdfExpandLabel slot.algo 8 secret label transcriptHash none

end Picotls
