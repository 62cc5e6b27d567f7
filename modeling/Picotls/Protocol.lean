import Picotls.Foundation.Octets

/-!
# Protocol constants

The numbers of the TLS registries and the return codes of the library. A return code is zero for
success, an alert description for an alert the endpoint raises itself, an alert description in the
peer class for an alert it received, or a code of the internal class.
-/

namespace Picotls

/-- A return code of the library. -/
abbrev Code := ℕ

/-- How a call can end other than by returning zero: with another return code, at an assertion, in
undefined behaviour, with a size that does not fit its type, or not at all. -/
inductive Stop where
  | code (c : Code)
  | assertion
  | undefined
  | wraps
  | endless
  deriving DecidableEq

/-- The class of alerts received from the peer. -/
abbrev errorClassPeerAlert : Code := 0x100

/-- The class of errors that are not alerts. -/
abbrev errorClassInternal : Code := 0x200

/-- The return code for an alert that the peer sent. -/
def alertToPeerError (description : ℕ) : Code := description + errorClassPeerAlert

/-- The class of a return code: the code with its low octet cleared. -/
def errorGetClass (code : Code) : Code := code / 256 * 256

namespace Alert

abbrev levelFatal : UInt8 := 2

abbrev unexpectedMessage : Code := 10
abbrev badRecordMac : Code := 20
abbrev handshakeFailure : Code := 40
abbrev badCertificate : Code := 42
abbrev unsupportedCertificate : Code := 43
abbrev illegalParameter : Code := 47
abbrev decodeError : Code := 50
abbrev decryptError : Code := 51
abbrev protocolVersion : Code := 70
abbrev internalError : Code := 80
abbrev missingExtension : Code := 109
abbrev unsupportedExtension : Code := 110
abbrev unknownPskIdentity : Code := 115
abbrev echRequired : Code := 121

end Alert

namespace Error

abbrev noMemory : Code := errorClassInternal + 1
abbrev inProgress : Code := errorClassInternal + 2
abbrev library : Code := errorClassInternal + 3
abbrev incompatibleKey : Code := errorClassInternal + 4
abbrev statelessRetry : Code := errorClassInternal + 6
abbrev notAvailable : Code := errorClassInternal + 7
abbrev rejectEarlyData : Code := errorClassInternal + 9
abbrev delegate : Code := errorClassInternal + 10
abbrev asyncOperation : Code := errorClassInternal + 11
abbrev blockOverflow : Code := errorClassInternal + 12

end Error

namespace ContentType

abbrev changeCipherSpec : UInt8 := 20
abbrev alert : UInt8 := 21
abbrev handshake : UInt8 := 22
abbrev appdata : UInt8 := 23

end ContentType

namespace HandshakeType

abbrev clientHello : UInt8 := 1
abbrev serverHello : UInt8 := 2
abbrev newSessionTicket : UInt8 := 4
abbrev endOfEarlyData : UInt8 := 5
abbrev encryptedExtensions : UInt8 := 8
abbrev certificate : UInt8 := 11
abbrev certificateRequest : UInt8 := 13
abbrev certificateVerify : UInt8 := 15
abbrev finished : UInt8 := 20
abbrev keyUpdate : UInt8 := 24
abbrev compressedCertificate : UInt8 := 25
abbrev messageHash : UInt8 := 254

end HandshakeType

namespace ExtensionType

abbrev serverName : ℕ := 0
abbrev statusRequest : ℕ := 5
abbrev supportedGroups : ℕ := 10
abbrev signatureAlgorithms : ℕ := 13
abbrev alpn : ℕ := 16
abbrev serverCertificateType : ℕ := 20
abbrev compressCertificate : ℕ := 27
abbrev preSharedKey : ℕ := 41
abbrev earlyData : ℕ := 42
abbrev supportedVersions : ℕ := 43
abbrev cookie : ℕ := 44
abbrev pskKeyExchangeModes : ℕ := 45
abbrev certificateAuthorities : ℕ := 47
abbrev keyShare : ℕ := 51
abbrev ticketRequest : ℕ := 58
abbrev echOuterExtensions : ℕ := 0xfd00
abbrev encryptedClientHello : ℕ := 0xfe0d

end ExtensionType

abbrev protocolVersionTls12 : ℕ := 0x0303
abbrev protocolVersionTls13 : ℕ := 0x0304

abbrev recordVersionMajor : UInt8 := 3
abbrev recordVersionMinor : UInt8 := 3

abbrev maxPlaintextRecordSize : ℕ := 16384
abbrev maxEncryptedRecordSize : ℕ := 16384 + 256

abbrev helloRandomSize : ℕ := 32
abbrev maxSecretSize : ℕ := 32
abbrev maxDigestSize : ℕ := 64
abbrev handshakeHeaderSize : ℕ := 4
abbrev maxEarlyDataSkipSize : ℕ := 65536
abbrev earlyDataMaxDelay : ℕ := 10000

abbrev uint16Max : ℕ := 0xffff
abbrev uint32Max : ℕ := 0xffffffff

/-- The random value that marks a ServerHello as a HelloRetryRequest. -/
def helloRetryRandom : Foundation.Bytes :=
  [0xCF, 0x21, 0xAD, 0x74, 0xE5, 0x9A, 0x61, 0x11, 0xBE, 0x1D, 0x8C, 0x02, 0x1E, 0x65, 0xB8, 0x91,
    0xC2, 0xA2, 0x11, 0x16, 0x7A, 0xBB, 0x8C, 0x5E, 0x07, 0x9E, 0x09, 0xE2, 0xC8, 0xA8, 0x33, 0x9C]

/-- The octets of an ASCII text. -/
def ascii (text : String) : Foundation.Bytes := text.toList.map fun c => UInt8.ofNat c.toNat

/-- The labels under which the key schedule derives secrets. -/
inductive Label where
  | derived
  | extBinder
  | resBinder
  | clientEarlyTraffic
  | clientHandshakeTraffic
  | serverHandshakeTraffic
  | clientApplicationTraffic
  | serverApplicationTraffic
  | earlyExporterMaster
  | exporterMaster
  | resumptionMaster
  | resumption
  | finished
  | trafficUpdate
  | key
  | iv
  | echAcceptConfirmation
  | hrrEchAcceptConfirmation
  deriving DecidableEq, Repr

/-- The text of a label as it enters the derivation. -/
def Label.text : Label → Foundation.Bytes
  | .derived => ascii "derived"
  | .extBinder => ascii "ext binder"
  | .resBinder => ascii "res binder"
  | .clientEarlyTraffic => ascii "c e traffic"
  | .clientHandshakeTraffic => ascii "c hs traffic"
  | .serverHandshakeTraffic => ascii "s hs traffic"
  | .clientApplicationTraffic => ascii "c ap traffic"
  | .serverApplicationTraffic => ascii "s ap traffic"
  | .earlyExporterMaster => ascii "e exp master"
  | .exporterMaster => ascii "exp master"
  | .resumptionMaster => ascii "res master"
  | .resumption => ascii "resumption"
  | .finished => ascii "finished"
  | .trafficUpdate => ascii "traffic upd"
  | .key => ascii "key"
  | .iv => ascii "iv"
  | .echAcceptConfirmation => ascii "ech accept confirmation"
  | .hrrEchAcceptConfirmation => ascii "hrr ech accept confirmation"

/-- The states of a connection, in the order in which the library compares them. -/
inductive State where
  | clientHandshakeStart
  | clientExpectServerHello
  | clientExpectSecondServerHello
  | clientExpectEncryptedExtensions
  | clientExpectCertificateRequestOrCertificate
  | clientExpectCertificate
  | clientExpectCertificateVerify
  | clientExpectFinished
  | serverExpectClientHello
  | serverExpectSecondClientHello
  | serverGeneratingCertificateVerify
  | serverExpectCertificate
  | serverExpectCertificateVerify
  | serverExpectEndOfEarlyData
  | serverExpectFinished
  | clientPostHandshake
  | serverPostHandshake
  deriving DecidableEq, Repr

/-- The position of a state in the declared order. -/
def State.rank : State → ℕ
  | .clientHandshakeStart => 0
  | .clientExpectServerHello => 1
  | .clientExpectSecondServerHello => 2
  | .clientExpectEncryptedExtensions => 3
  | .clientExpectCertificateRequestOrCertificate => 4
  | .clientExpectCertificate => 5
  | .clientExpectCertificateVerify => 6
  | .clientExpectFinished => 7
  | .serverExpectClientHello => 8
  | .serverExpectSecondClientHello => 9
  | .serverGeneratingCertificateVerify => 10
  | .serverExpectCertificate => 11
  | .serverExpectCertificateVerify => 12
  | .serverExpectEndOfEarlyData => 13
  | .serverExpectFinished => 14
  | .clientPostHandshake => 15
  | .serverPostHandshake => 16

/-- The handshake of this endpoint is complete. -/
def State.IsPostHandshake (s : State) : Prop :=
  State.rank .clientPostHandshake ≤ s.rank

instance (s : State) : Decidable s.IsPostHandshake := inferInstanceAs (Decidable (_ ≤ _))

/-- The progress of Encrypted ClientHello on a connection. -/
inductive EchState where
  | none
  | offered
  | accepted
  | grease
  deriving DecidableEq, Repr

end Picotls
