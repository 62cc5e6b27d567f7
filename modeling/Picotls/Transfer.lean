import Picotls.Api

/-!
# Import of connections

The traffic secrets and sequence numbers of a connection that were written out are read into a new
connection object, possibly in another process.
-/

namespace Picotls

open Foundation

variable [Crypto]

/-- Read the next explicit nonce of TLS 1.2, if the suite has explicit nonces. -/
def importRecordIv (aead : AeadAlgorithm) (isEnc : Bool) (src : Src) : Proc Src :=
  if isEnc && aead.recordIvSize ≠ 0 then do
    let (recordIv, src) ← src.decodeUInt 8
    modifyProtection isEnc fun tp => { tp with tls12EncRecordIv := recordIv }
    return src
  else return src

/-- Read the TLS 1.2 parameters of one direction. -/
def importTls12TrafficProtection (suite : CipherSuite) (isEnc : Bool) (src : Src) : Proc Src := do
  let aead := suite.aead
  throwIf (src.data.length < aead.keySize + aead.fixedIvSize + 8) Alert.decodeError
  let (key, src) ← src.decodeBytes aead.keySize
  let (iv, src) ← src.decodeBytes aead.fixedIvSize
  let (seq, src) ← src.decodeUInt 8
  modifyProtection isEnc fun tp => { tp with secret := key, tls12Iv := iv, seq := seq }
  let src ← importRecordIv aead isEnc src
  modifyProtection isEnc fun tp => { tp with tls12 := true }
  allocate
  modifyProtection isEnc fun tp => { tp with aead := some (.newDirect aead key iv) }
  return src

/-- Read the TLS 1.3 parameters of one direction. The length of the secret is not checked: a secret
cut short is read from the octets behind its block, and past the end of the parameters if these do
not suffice. -/
def importTls13TrafficProtection (suite : CipherSuite) (paramsLength : ℕ) (isEnc : Bool)
    (src : Src) : Proc Src := do
  let size := suite.hash.digestSize
  runIf (paramsLength < src.off + size) (Procedure.fail .undefined)
  let (secret, src) ← src.decodeBytes size
  let (seq, src) ← src.decodeUInt 8
  modifyProtection isEnc fun tp => { tp with secret := secret, seq := seq }
  emitEvent (.derive (.imported secret) secret)
  let result ← attemptCode (setupTrafficProtection isEnc none 3 seq false)
  match result with
  | .ok () => return src
  | .error _ => throwCode Error.incompatibleKey

/-- Read the version-dependent block. -/
def importVersionBlock (ctx : Context) (protocolVersion csid paramsLength : ℕ) (src : Src) :
    Proc Src := do
  if protocolVersion = protocolVersionTls12 then
    let suite := findCipherSuite ctx.tls12CipherSuites csid
    modifyTls fun tls => { tls with cipherSuite := suite }
    match suite with
    | none => throwCode Alert.handshakeFailure
    | some suite =>
      let src ← importTls12TrafficProtection suite true src
      importTls12TrafficProtection suite false src
  else if protocolVersion = protocolVersionTls13 then
    let suite := findCipherSuite (some ctx.cipherSuites) csid
    modifyTls fun tls => { tls with cipherSuite := suite }
    match suite with
    | none => throwCode Alert.handshakeFailure
    | some suite =>
      let sched ← keyScheduleNew (some suite) none false
      setKeySchedule sched
      let src ← importTls13TrafficProtection suite paramsLength true src
      importTls13TrafficProtection suite paramsLength false src
  else throwCode Alert.illegalParameter

/-- Read the names of a connection, which are absent where the text is empty. -/
def importName (set : Option Bytes → Proc Unit) (src : Src) : Proc Src := do
  let (name, rest) ← src.decodeOpenBlock 2
  runIf (name.data ≠ []) (set (some name.data))
  return rest

/-- Turn the connection into an imported one. The flags are single bits. -/
def ptlsImport (ctx : Context) (params : Bytes) : Proc Unit := do
  let (block, after) ← Src.decodeOpenBlock 2 ⟨0, params⟩
  let (flags, src) ← block.decodeBytes 2
  allocate
  let isServer := (flags.headD 0).toNat % 2 = 1
  let state := if isServer then .serverPostHandshake else .clientPostHandshake
  modifyTls fun _ => { newInstance ctx isServer .clientHandshakeStart with
    isPskHandshake := (flags.getD 1 0).toNat % 2 = 1 }
  let (protocolVersion, src) ← src.decodeUInt 2
  let (csid, src) ← src.decodeUInt 2
  let (random, src) ← src.decodeBytes helloRandomSize
  modifyTls fun tls => { tls with clientRandom := random }
  let src ← importName setServerName src
  let src ← importName setNegotiatedProtocol src
  let (verBlock, src) ← src.decodeOpenBlock 2
  let verRest ← importVersionBlock ctx protocolVersion csid params.length verBlock
  verRest.assertBlockClose
  let (_, src) ← src.decodeOpenBlock 2
  src.assertBlockClose
  after.assertBlockClose
  modifyTls fun tls => { tls with state := state }

end Picotls
