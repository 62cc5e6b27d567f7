import Picotls.Extensions
import Picotls.Ech

/-!
# The server's view of a ClientHello

The decoder collects the fields and extensions of a ClientHello. Lists are cut to the sizes that
the library keeps.
-/

namespace Picotls

open Foundation

/-- A pre-shared key offered by the client. -/
structure PskIdentity where
  identity : Bytes
  obfuscatedTicketAge : ℕ
  binder : Src := ⟨0, []⟩

/-- The cookie that the client returns from a HelloRetryRequest. -/
structure ClientHelloCookie where
  all : Bytes
  tbs : Bytes
  ch1Hash : Bytes
  signature : Bytes
  sentKeyShare : Bool

/-- The ECH extension of a ClientHello. -/
inductive ClientHelloEch where
  | outer (kdf aead : ℕ) (configId : UInt8) (enc payload : Bytes) (payloadOff : ℕ)
  | inner

/-- A decoded ClientHello. -/
structure ClientHello where
  legacyVersion : ℕ
  randomBytes : Bytes
  legacySessionId : Bytes
  cipherSuites : Bytes
  compressionMethods : Bytes
  selectedVersion : ℕ := 0
  negotiatedGroups : Option Bytes := none
  keyShares : Option Bytes := none
  signatureAlgorithms : List ℕ := []
  serverName : Option Bytes := none
  alpn : List Bytes := []
  certCompressionAlgos : List ℕ := []
  cookie : Option ClientHelloCookie := none
  serverCertificateTypes : List UInt8 := []
  statusRequest : Bool := false
  ticketRequestNewSessionCount : UInt8 := 0
  ticketRequestResumptionCount : UInt8 := 0
  ech : Option ClientHelloEch := none
  /-- The offset in the message at which the hash for the binders ends. -/
  pskHashEnd : Option ℕ := none
  pskIdentities : List PskIdentity := []
  pskKeModes : List UInt8 := []
  earlyDataIndication : Bool := false
  pskIsLastExtension : Bool := false
  unknownExtensions : List RawExtension := []
  firstExtensionAt : ℕ := 0

abbrev pskKeModePsk : UInt8 := 0
abbrev pskKeModePskDhe : UInt8 := 1

/-! ## Extensions -/

/-- The host name in a list of server names; the last one counts. -/
def decodeServerNames : ℕ → Option Bytes → Src → Except Fault (Option Bytes)
  | 0, name, _ => .ok name
  | fuel + 1, name, src => do
    let (type, src) ← src.decode8
    let (block, src) ← src.decodeOpenBlock 2
    let name ← (if type ≠ 0 then .ok name
      else if block.data = [] then .error (.code Alert.decodeError)
      else if 0 ∈ block.data then .error (.code Alert.illegalParameter)
      else .ok (some block.data) : Except Fault (Option Bytes))
    if src.data = [] then return name else decodeServerNames fuel name src

/-- The server-name extension. -/
def clientHelloDecodeServerName (name : Option Bytes) (src : Src) :
    Except Fault (Option Bytes) := do
  let (list, rest) ← src.decodeOpenBlock 2
  let name ← decodeServerNames (list.data.length + 1) name list
  rest.assertBlockClose
  return name

/-- The names of a nonempty list of nonempty names. -/
def decodeProtocolNames : ℕ → Src → Except Fault (List Bytes)
  | 0, _ => .ok []
  | fuel + 1, src => do
    let (block, src) ← src.decodeOpenBlock 1
    if block.data = [] then .error (.code Alert.decodeError)
    else if src.data = [] then return [block.data]
    else
      let names ← decodeProtocolNames fuel src
      return block.data :: names

/-- The certificate types that the client accepts; the default type alone may not be listed. -/
def decodeCertificateTypes (src : Src) : Except Fault (List UInt8) := do
  let block ← src.decodeBlock 1
  if block.data = [] ∨ block.data = [0] then .error (.code Alert.decodeError)
  else return block.data.take 8

/-- A nonempty list of two-octet numbers behind a one-octet length. -/
def decodeNumberList (src : Src) : Except Fault (List ℕ) := do
  let block ← src.decodeBlock 1
  if block.data = [] then .error (.code Alert.decodeError)
  else Src.decodeUInt16s block.data.length block

/-- The cookie extension: the signed part, which holds the hash of the first hello and whether a
key share was requested, and the signature. -/
def decodeCookie (src : Src) : Except Fault ClientHelloCookie := do
  let block ← src.decodeBlock 2
  let (tbs, rest) ← block.decodeOpenBlock 2
  let (ch1Hash, flag) ← tbs.decodeOpenBlock 1
  let (sentKeyShare, tbsRest) ← flag.decode8
  if 1 < sentKeyShare then .error (.code Alert.decodeError)
  else
    tbsRest.assertBlockClose
    let signature ← rest.decodeBlock 1
    return {
      all := src.data, tbs := block.data.take (2 + tbs.data.length), ch1Hash := ch1Hash.data
      signature := signature.data, sentKeyShare := sentKeyShare = 1 }

/-- The identities of a pre-shared-key extension. -/
def decodePskIdentities : ℕ → Src → Except Fault (List PskIdentity)
  | 0, _ => .ok []
  | fuel + 1, src => do
    let (identity, src) ← src.decodeOpenBlock 2
    if identity.data = [] then .error (.code Alert.decodeError)
    else
      let (age, src) ← src.decodeUInt 4
      let psk : PskIdentity := { identity := identity.data, obfuscatedTicketAge := age }
      if src.data = [] then return [psk]
      else
        let psks ← decodePskIdentities fuel src
        return psk :: psks

/-- The binders of a pre-shared-key extension. -/
def decodePskBinders : ℕ → Src → Except Fault (List Src)
  | 0, _ => .ok []
  | fuel + 1, src => do
    let (binder, src) ← src.decodeOpenBlock 1
    if src.data = [] then return [binder]
    else
      let binders ← decodePskBinders fuel src
      return binder :: binders

/-- The most pre-shared keys of one ClientHello that are considered. -/
abbrev maxPskIdentities : ℕ := 4

/-- The pre-shared-key extension: the identities with their binders, and the offset at which the
hash for the binders ends. -/
def decodePreSharedKeys (src : Src) : Except Fault (List PskIdentity × ℕ) := do
  let (list, rest) ← src.decodeOpenBlock 2
  let identities ← decodePskIdentities (list.data.length + 1) list
  let (block, after) ← rest.decodeOpenBlock 2
  let binders ← decodePskBinders (block.data.length + 1) block
  if identities.length ≠ binders.length then .error (.code Alert.illegalParameter)
  else
    after.assertBlockClose
    let psks := List.zipWith (fun psk binder => { psk with binder := binder }) identities binders
    return (psks.take maxPskIdentities, rest.off)

/-- The pre-shared-key exchange modes; modes beyond the width of the bit set are dropped. -/
def decodePskKeModes (src : Src) : Except Fault (List UInt8) := do
  let block ← src.decodeBlock 1
  if block.data = [] then .error (.code Alert.decodeError)
  else return block.data.filter (· < 32)

/-- The ECH extension. -/
def decodeClientHelloEch (src : Src) : Except Fault ClientHelloEch := do
  let (type, src) ← src.decode8
  if type = 0 then
    let (kdf, src) ← src.decodeUInt 2
    let (aead, src) ← src.decodeUInt 2
    let (configId, src) ← src.decode8
    let (enc, src) ← src.decodeOpenBlock 2
    let (payload, _) ← src.decodeOpenBlock 2
    if payload.data = [] then .error (.code Alert.decodeError)
    else return .outer kdf aead configId enc.data payload.data payload.off
  else if type = 1 then
    src.assertBlockClose
    return .inner
  else .error (.code Alert.illegalParameter)

/-! ## The message -/

/-- An extension of a ClientHello that decodes without the connection. Extensions of other types
give no result. -/
def interpretClientHelloExtension (properties : Option HandshakeProperties) (ch : ClientHello)
    (exttype : ℕ) (block : Src) : Except Fault (Option ClientHello) :=
  if exttype = ExtensionType.serverName then do
    let name ← clientHelloDecodeServerName ch.serverName block
    return some { ch with serverName := name }
  else if exttype = ExtensionType.alpn then do
    let list ← block.decodeBlock 2
    let names ← decodeProtocolNames (list.data.length + 1) list
    return some { ch with alpn := names.take 16 }
  else if exttype = ExtensionType.serverCertificateType then do
    let types ← decodeCertificateTypes block
    return some { ch with serverCertificateTypes := types }
  else if exttype = ExtensionType.compressCertificate then do
    let algos ← decodeNumberList block
    return some { ch with certCompressionAlgos := algos.take 16 }
  else if exttype = ExtensionType.supportedGroups then
    return some { ch with negotiatedGroups := some block.data }
  else if exttype = ExtensionType.signatureAlgorithms then do
    let algos ← decodeSignatureAlgorithms block
    return some { ch with signatureAlgorithms := algos }
  else if exttype = ExtensionType.keyShare then
    return some { ch with keyShares := some block.data }
  else if exttype = ExtensionType.supportedVersions then do
    let versions ← decodeNumberList block
    return some (if protocolVersionTls13 ∈ versions then
      { ch with selectedVersion := protocolVersionTls13 } else ch)
  else if exttype = ExtensionType.cookie then
    if (properties.bind HandshakeProperties.cookieKey).isNone then
      .error (.code Alert.illegalParameter)
    else do
      let cookie ← decodeCookie block
      return some { ch with cookie := some cookie }
  else if exttype = ExtensionType.preSharedKey then do
    let (psks, hashEnd) ← decodePreSharedKeys block
    return some { ch with
      pskIdentities := psks, pskHashEnd := some hashEnd, pskIsLastExtension := true }
  else if exttype = ExtensionType.pskKeyExchangeModes then do
    let modes ← decodePskKeModes block
    return some { ch with pskKeModes := modes }
  else if exttype = ExtensionType.earlyData then return some { ch with earlyDataIndication := true }
  else if exttype = ExtensionType.statusRequest then return some { ch with statusRequest := true }
  else if exttype = ExtensionType.ticketRequest then
    match block.data with
    | [newSession, resumption] => return some { ch with
        ticketRequestNewSessionCount := newSession
        ticketRequestResumptionCount := resumption }
    | _ => .error (.code Alert.decodeError)
  else if exttype = ExtensionType.encryptedClientHello then do
    let ech ← decodeClientHelloEch block
    return some { ch with ech := some ech }
  else return none

/-- Collect an extension of a ClientHello that the library does not know. -/
def collectClientHelloExtension (properties : Option HandshakeProperties) (ch : ClientHello)
    (exttype : ℕ) (block : Src) : Proc ClientHello := do
  let wanted ← shouldCollectUnknownExtension properties exttype
  if wanted then
    let slots ← collectUnknownExtension ch.unknownExtensions exttype block.data
    return { ch with unknownExtensions := slots }
  else return ch

/-- One extension of a ClientHello; what a decoder of an extension leaves unread is skipped. -/
def decodeClientHelloExtension (properties : Option HandshakeProperties) (ch : ClientHello)
    (exttype : ℕ) (block : Src) : Proc (ClientHello × Src) := do
  let ch := { ch with pskIsLastExtension := false }
  notifyExtension HandshakeType.clientHello exttype block.data
  let known ← interpretClientHelloExtension properties ch exttype block
  match known with
  | some ch => return (ch, ⟨0, []⟩)
  | none =>
    let ch ← collectClientHelloExtension properties ch exttype block
    return (ch, ⟨0, []⟩)

/-- Decode a ClientHello. One without extensions is accepted here. -/
def decodeClientHello (message : Bytes) (properties : Option HandshakeProperties) :
    Proc ClientHello := do
  let (legacyVersion, src) ← Src.decodeUInt 2 (.ofMessage message handshakeHeaderSize)
  throwIf (legacyVersion < 0x0301) Alert.protocolVersion
  let (random, src) ← src.decodeBytes helloRandomSize
  let (sessionId, src) ← src.decodeOpenBlock 1
  throwIf (32 < sessionId.data.length) Alert.decodeError
  let (cipherSuites, src) ← src.decodeOpenBlock 2
  throwIf (cipherSuites.data.length % 2 ≠ 0) Alert.decodeError
  let (compressionMethods, src) ← src.decodeOpenBlock 1
  throwIf (compressionMethods.data = []) Alert.decodeError
  let ch : ClientHello := {
    legacyVersion := legacyVersion
    randomBytes := random
    legacySessionId := sessionId.data
    cipherSuites := cipherSuites.data
    compressionMethods := compressionMethods.data }
  if src.data = [] then return ch
  decodeExtensions .clientHello src
    { ch with firstExtensionAt := src.off - handshakeHeaderSize + 2 }
    (decodeClientHelloExtension properties)

end Picotls
