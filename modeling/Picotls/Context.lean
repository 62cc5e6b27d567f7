import Picotls.Crypto

/-!
# Configuration of a connection and its environment

The context is the configuration shared by connections; the handshake properties are the optional
arguments of one handshake. Everything a connection can observe of the world outside the library
is a field of the environment: whether an allocation succeeds, random octets, the clock, and the
answers of application and backend callbacks. Each answer may depend on how many questions were
asked before, so an environment is an arbitrary, possibly adversarial, behaviour.
-/

namespace Picotls

open Foundation

/-- A cipher suite: its registry number, its AEAD, and its hash. -/
structure CipherSuite where
  id : ℕ
  aead : AeadAlgorithm
  hash : HashAlgorithm
  deriving DecidableEq

/-- A key-exchange algorithm: its group number and backend-specific data. -/
structure KeyExchangeAlgorithm where
  id : ℕ
  data : ℕ
  deriving DecidableEq

/-- A key-exchange context holds the public key sent to the peer and the private key. -/
structure KeyExchangeContext where
  algo : KeyExchangeAlgorithm
  pubkey : Bytes
  privkey : Bytes

/-- An HPKE key-encapsulation mechanism. -/
structure HpkeKem where
  id : ℕ
  keyex : KeyExchangeAlgorithm
  hash : HashAlgorithm
  deriving DecidableEq

/-- An HPKE symmetric cipher suite. -/
structure HpkeCipherSuite where
  kdf : ℕ
  aeadId : ℕ
  hash : HashAlgorithm
  aead : AeadAlgorithm
  deriving DecidableEq

/-- An external pre-shared key; neither its identity nor its secret is empty. -/
structure PreSharedKey where
  identity : Bytes
  secret : Bytes
  hash : HashAlgorithm
  identity_ne : identity ≠ []
  secret_ne : secret ≠ []

/-- An extension given or reported as raw octets. -/
structure RawExtension where
  type : ℕ
  data : Bytes
  deriving DecidableEq

/-- The configuration shared by connections. An optional list is absent where the library holds a
null pointer; a callback that only needs to be present or absent is a flag. -/
structure Context where
  keyExchanges : Option (List KeyExchangeAlgorithm)
  cipherSuites : List CipherSuite
  tls12CipherSuites : Option (List CipherSuite) := none
  certificates : List Bytes := []
  preSharedKey : Option PreSharedKey := none
  /-- HPKE cipher suites of the client; absence disables ECH. -/
  echClientCiphers : Option (List HpkeCipherSuite) := none
  echClientKems : List HpkeKem := []
  echCreateOpener : Bool := false
  echRetryConfigs : Bytes := []
  onClientHello : Bool := false
  emitCertificate : Bool := false
  signCertificate : Bool := false
  /-- The verifier's signature algorithms, when a verifier is registered. -/
  verifyCertificate : Option (List ℕ) := none
  ticketLifetime : ℕ := 0
  maxEarlyDataSize : ℕ := 0
  maxBufferSize : ℕ := 0
  hkdfLabelPrefixObsolete : Option Bytes := none
  requireDheOnPsk : Bool := false
  useExporter : Bool := false
  sendChangeCipherSpec : Bool := false
  requireClientAuthentication : Bool := false
  omitEndOfEarlyData : Bool := false
  useRawPublicKeys : Bool := false
  serverCipherPreference : Bool := false
  serverCipherChachaPriority : Bool := false
  encryptTicket : Bool := false
  saveTicket : Bool := false
  updateTrafficKey : Bool := false
  /-- The supported decompression algorithms, when a decompressor is registered. -/
  decompressCertificate : Option (List ℕ) := none
  onExtension : Bool := false
  ticketContext : Option Bytes := none
  clientCaNames : List Bytes := []
  ticketRequestsNewSessionCount : UInt8 := 0
  ticketRequestsResumptionCount : UInt8 := 0
  ticketRequestsMaxCount : UInt8 := 0

/-- The optional arguments of one handshake. -/
structure HandshakeProperties where
  negotiatedProtocols : List Bytes := []
  sessionTicket : Option Bytes := none
  /-- The application asks for the size of early data it may send. -/
  wantsMaxEarlyDataSize : Bool := false
  negotiateBeforeKeyExchange : Bool := false
  /-- The ECHConfigList; a present but empty list asks for a GREASE offer. -/
  echConfigs : Option Bytes := none
  wantsRetryConfigs : Bool := false
  cookieKey : Option Bytes := none
  cookieAdditionalData : Bytes := []
  enforceRetry : Bool := false
  retryUsesCookie : Bool := false
  additionalExtensions : List RawExtension := []
  collectExtension : Bool := false
  collectedExtensions : Bool := false

/-- The early-data verdict reported to the application. -/
inductive EarlyDataAcceptance where
  | unknown
  | rejected
  | accepted
  deriving DecidableEq

/-- What a handshake reports back through its properties. -/
structure HandshakeReport where
  maxEarlyDataSize : Option ℕ := none
  earlyDataAcceptance : EarlyDataAcceptance := .unknown
  retryConfigs : Option Bytes := none
  selectedPskBinder : Bytes := []

/-- What the library tells the application about a ClientHello. -/
structure OnClientHelloParameters where
  serverName : Option Bytes
  rawMessage : Bytes
  cipherSuites : Bytes
  negotiatedProtocols : List Bytes
  signatureAlgorithms : List ℕ
  certificateCompressionAlgorithms : List ℕ
  serverCertificateTypes : List UInt8
  pskIdentities : List (Bytes × ℕ × Bytes)
  incompatibleVersion : Bool

/-- What the application may set while it is told about a ClientHello. -/
structure OnClientHelloAnswer where
  ret : Code
  context : Option Context := none
  serverName : Option Bytes := none
  negotiatedProtocol : Option Bytes := none

/-- The behaviour of everything outside the library. The first argument of each answer counts the
questions asked before it, so answers may change from call to call. -/
structure Environment where
  alloc : ℕ → Bool
  randomBytes : ℕ → ℕ → Bytes
  randomBytes_length : ∀ draw len, (randomBytes draw len).length = len
  getTime : ℕ → ℕ
  onExtension : ℕ → (hstype : UInt8) → (exttype : ℕ) → Bytes → Code
  collectExtension : ℕ → (exttype : ℕ) → Bool
  collectedExtensions : ℕ → List RawExtension → Code
  updateTrafficKey : ℕ → (isEnc : Bool) → (epoch : ℕ) → Bytes → Code
  /-- Create an ephemeral key: public and private key. -/
  keyExchangeCreate : ℕ → KeyExchangeAlgorithm → Except Code (Bytes × Bytes)
  /-- The shared secret of a private key and a peer's public key. -/
  keyExchangeOnExchange : ℕ → KeyExchangeAlgorithm → (privkey peerkey : Bytes) → Except Code Bytes
  /-- One-shot key exchange: public key and shared secret. -/
  keyExchangeExchange : ℕ → KeyExchangeAlgorithm → (peerkey : Bytes) →
    Except Code (Bytes × Bytes)
  /-- HPKE sender setup: encapsulated key and AEAD context, which may be missing. -/
  hpkeSetupBaseS : ℕ → HpkeKem → HpkeCipherSuite → (publicKey info : Bytes) →
    Except Code (Bytes × Option AeadContext)
  /-- Look up an ECH configuration by its number and set up the HPKE receiver. -/
  echCreateOpener : ℕ → (configId : UInt8) → (kdf aead : ℕ) → (enc infoPrefix : Bytes) →
    Option (HpkeKem × HpkeCipherSuite × AeadContext)
  onClientHello : ℕ → OnClientHelloParameters → OnClientHelloAnswer
  /-- Emit a certificate message: its handshake type and body. -/
  emitCertificate : ℕ → (context : Bytes) → (pushStatusRequest : Bool) →
    (compressAlgos : List ℕ) → Except Code (UInt8 × Bytes)
  /-- Sign: the selected algorithm and the signature. -/
  signCertificate : ℕ → Bytes → Option (List ℕ) → Except Code (ℕ × Bytes)
  /-- Verify a chain: the result, and whether a signature verifier was installed. -/
  verifyCertificate : ℕ → (serverName : Option Bytes) → (certs : List Bytes) → Code × Bool
  verifySign : ℕ → (algo : ℕ) → (data signature : Bytes) → Code
  decompressCertificate : ℕ → (algo size : ℕ) → Bytes → Except Code Bytes
  /-- Seal (`true`) or open (`false`) a ticket: the result and the output. -/
  encryptTicket : ℕ → (isEncrypt : Bool) → Bytes → Code × Bytes
  saveTicket : ℕ → Bytes → Code

end Picotls
