import Picotls.Wire

/-!
# Pieces of messages shared by client and server

Names kept by the connection, extensions the library does not know, and the encodings of
signature algorithms, key shares, and cipher suites.
-/

namespace Picotls

open Foundation

/-- Set the server name to a copy of a name. -/
def setServerName (serverName : Option Bytes) : Proc Unit := do
  whenSome serverName fun _ => allocate
  modifyTls fun tls => { tls with serverName := serverName.map cString }

/-- Set the negotiated protocol to a copy of a name. -/
def setNegotiatedProtocol (protocol : Option Bytes) : Proc Unit := do
  whenSome protocol fun _ => allocate
  modifyTls fun tls => { tls with negotiatedProtocol := protocol.map cString }

/-- The most unknown extensions that are collected for the application. -/
abbrev maxUnknownExtensions : ℕ := 16

/-- Whether the application wants to see an unknown extension. -/
def shouldCollectUnknownExtension (properties : Option HandshakeProperties) (type : ℕ) :
    Proc Bool :=
  if (properties.map HandshakeProperties.collectExtension).getD false then
    ask fun env tick => env.collectExtension tick type
  else return false

/-- Keep an unknown extension, of which only one of each type may appear. The largest number marks
the end of the slots, so an extension of that type is not kept. -/
def collectUnknownExtension (slots : List RawExtension) (type : ℕ) (data : Bytes) :
    Except Fault (List RawExtension) :=
  if slots.any (·.type = type) then .error (.code Alert.illegalParameter)
  else if slots.length < maxUnknownExtensions ∧ type ≠ uint16Max then
    .ok (slots ++ [⟨type, data⟩])
  else .ok slots

/-- Hand the collected extensions to the application. -/
def reportUnknownExtensions (properties : Option HandshakeProperties) (slots : List RawExtension) :
    Proc Unit :=
  whenSome properties fun properties => runIf properties.collectExtension do
    assert properties.collectedExtensions
    let ret ← ask fun env tick => env.collectedExtensions tick slots
    checkCode ret

/-! ## Shared encodings -/

/-- The most signature algorithms that are kept. -/
abbrev maxSignatureAlgorithms : ℕ := 16

/-- Decode a list of signature algorithms, which may not be empty. -/
def decodeSignatureAlgorithms (src : Src) : Except Fault (List ℕ) := do
  let list ← src.decodeBlock 2
  if list.data = [] then .error (.code Alert.decodeError)
  else
    let algos ← Src.decodeUInt16s list.data.length list
    return algos.take maxSignatureAlgorithms

/-- Append the extensions given by the application. -/
def pushAdditionalExtensions (properties : Option HandshakeProperties) : Proc Unit :=
  whenSome properties fun properties => Procedure.forEach
    (fun (ext : RawExtension) => bufferPushExtension ext.type (bufferPushv ext.data))
    (properties.additionalExtensions.takeWhile (·.type ≠ uint16Max))

/-- The signature algorithms announced without a registered verifier. -/
def defaultSignatureAlgorithms : List ℕ := [0x0805, 0x0804, 0x0503, 0x0403, 0x0401, 0x0201]

/-- Append the list of signature algorithms. -/
def pushSignatureAlgorithms (algos : Option (List ℕ)) : Proc Unit :=
  bufferPushBlock 2 (Procedure.forEach (bufferPushUInt 2) (algos.getD defaultSignatureAlgorithms))

/-- Append a key share. -/
def pushKeyShareEntry (group : ℕ) (pubkey : Bytes) : Proc Unit := do
  bufferPushUInt 2 group
  bufferPushBlock 2 (bufferPushv pubkey)

/-- The cipher suite of a list with a given number. -/
def findCipherSuite (suites : Option (List CipherSuite)) (id : ℕ) : Option CipherSuite :=
  (suites.getD []).find? (·.id = id)

/-- Decode a key share. -/
def decodeKeyShareEntry (src : Src) : Except Fault (ℕ × Bytes × Src) := do
  let (group, src) ← src.decodeUInt 2
  let (key, src) ← src.decodeOpenBlock 2
  return (group, key.data, src)

end Picotls
