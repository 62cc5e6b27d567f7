import Picotls.Effects.Failures

/-!
# A sample backend

A backend with small sizes and a weak hash function, in which whole runs can be evaluated. It obeys
the laws of a backend; nothing about its strength is assumed anywhere. The messages built here are
well formed, and what is protected by the sample cipher can be written down directly.
-/

namespace Picotls.Sample

open Foundation

/-- A hash algorithm with digests of two octets. -/
def hash (name : ℕ) : HashAlgorithm where
  name := name
  digestSize := 2
  blockSize := 4
  digestSize_pos := by decide
  digestSize_le := by decide

/-- An AEAD algorithm with a tag of one octet. -/
def aead : AeadAlgorithm where
  name := 0
  keySize := 2
  ivSize := 8
  tagSize := 1
  fixedIvSize := 4
  recordIvSize := 0
  keySize_le := by decide
  eight_le_ivSize := by decide
  tagSize_le := by decide
  fixedIvSize_le := by decide

/-- The digest of the sample hash: a checksum, repeated. -/
def checksum (name : ℕ) (message : Bytes) : ℕ :=
  message.foldl (fun acc octet => (acc * 3 + octet.toNat + 1) % 256) name

/-- The backend: digests are checksums, and ciphertexts are plaintexts with a zero tag. -/
@[reducible] def crypto : Crypto where
  hash algo message := List.replicate algo.digestSize (UInt8.ofNat (checksum algo.name message))
  hash_length := by simp
  aeadSeal algo _ _ _ plaintext := plaintext ++ zeros algo.tagSize
  aeadOpen algo _ _ _ ciphertext :=
    if algo.tagSize ≤ ciphertext.length then
      some (ciphertext.take (ciphertext.length - algo.tagSize))
    else none
  aeadSealVectors algo _ _ _ vectors := vectors.flatten ++ zeros algo.tagSize
  aeadSeal_length := by simp [zeros]
  aeadOpen_length := by
    intro algo _ _ _ ciphertext plaintext h
    split_ifs at h with hle
    cases h
    rw [List.length_take]
    omega
  aeadOpen_aeadSeal := by simp [zeros]
  aeadSealVectors_eq _ _ _ _ _ := rfl

/-- An environment in which every question is answered favourably. -/
def environment : Environment where
  alloc _ := true
  randomBytes draw len := List.replicate len (UInt8.ofNat (draw + 1))
  randomBytes_length := by simp
  getTime _ := 0
  onExtension _ _ _ _ := 0
  collectExtension _ _ := true
  collectedExtensions _ _ := 0
  updateTrafficKey _ _ _ _ := 0
  keyExchangeCreate _ _ := .ok ([7], [8])
  keyExchangeOnExchange _ _ _ _ := .ok [9]
  keyExchangeExchange _ _ _ := .ok ([7], [9])
  hpkeSetupBaseS _ _ _ _ _ := .ok ([5], some ⟨aead, [1, 2], zeros 8, by decide⟩)
  echCreateOpener _ _ _ _ _ _ := none
  onClientHello _ _ := { ret := 0 }
  emitCertificate _ _ _ _ := .ok (HandshakeType.certificate, [0, 0, 0, 6, 0, 0, 1, 5, 0, 0])
  signCertificate _ _ _ := .ok (0, [])
  verifyCertificate _ _ _ := (0, true)
  verifySign _ _ _ _ := 0
  decompressCertificate _ _ _ _ := .ok []
  encryptTicket _ _ octets := (0, octets)
  saveTicket _ _ := 0

theorem environment_conforms : environment.Conforms where
  collectedExtensions _ _ := .inl rfl
  updateTrafficKey _ _ _ _ := .inl rfl
  keyExchangeOnExchange _ _ _ _ _ h := by cases h
  emitCertificate _ _ _ _ _ h := by cases h
  signCertificate _ _ _ _ h := by cases h
  encryptTicket _ _ := .inl rfl

/-- An environment in which one allocation fails. -/
def failingAt (tick : ℕ) : Environment := { environment with alloc := fun n => n ≠ tick }

/-- A cipher suite with one of the sample hashes. -/
def suite (id name : ℕ) : CipherSuite := ⟨id, aead, hash name⟩

/-- A context that offers two suites with different hashes. -/
def context : Context where
  keyExchanges := some [⟨29, 0⟩]
  cipherSuites := [suite 0x1301 0, suite 0x1302 1]

/-- A context with a pre-shared key for the first of the sample hashes. -/
def pskContext : Context := { context with
  preSharedKey := some ⟨[1], [2, 3], hash 0, by decide, by decide⟩ }

/-- An octet string preceded by its length. -/
def block (width : ℕ) (octets : Bytes) : Bytes := toBE width octets.length ++ octets

/-- A handshake message. -/
def message (type : UInt8) (body : Bytes) : Bytes := type :: block 3 body

/-- A hello of a server. -/
def hello (random : Bytes) (suite : ℕ) (extensions : Bytes) : Bytes :=
  message HandshakeType.serverHello
    ([3, 3] ++ random ++ [0] ++ toBE 2 suite ++ [0] ++ block 2 extensions)

/-- The extensions of a ServerHello: the version and a key share. -/
def helloExtensions : Bytes := [0, 43] ++ block 2 [3, 4] ++ [0, 51] ++ block 2 [0, 29, 0, 1, 9]

/-- A HelloRetryRequest, which asks for a cookie. -/
def retryRequest (suite : ℕ) : Bytes :=
  hello helloRetryRandom suite
    ([0, 43] ++ block 2 [3, 4] ++ [0, 44] ++ block 2 (block 2 [1]))

/-- A handshake record in cleartext. -/
def record (octets : Bytes) : Bytes := [ContentType.handshake, 3, 3] ++ block 2 octets

/-- A handshake record under the sample cipher. -/
def sealed (octets : Bytes) : Bytes :=
  [ContentType.appdata, 3, 3] ++ block 2 (octets ++ [ContentType.handshake, 0])

/-- The parameters of an exported server. -/
def exportedServer : Bytes :=
  block 2 ([1, 0] ++ toBE 2 protocolVersionTls13 ++ toBE 2 0x1301 ++ zeros helloRandomSize ++
    block 2 [] ++ block 2 [] ++ block 2 ([1, 2] ++ zeros 8 ++ [3, 4] ++ zeros 8) ++ block 2 [])

/-- A server that has a receiving key and nothing to pass over. -/
def keyedServer : Session where
  tls := { newInstance context true .serverPostHandshake with
    earlyDataSkippedBytes := uint32Max
    dec := { aead := some (@AeadContext.ofSecret crypto aead (hash 0) [1, 2] none) } }

/-- A server whose detached sender has a key update pending. -/
def detachedSession : Session where
  tls := newInstance context true .serverPostHandshake
  tx := some { newInstance context true .serverPostHandshake with
    cipherSuite := some (suite 0x1301 0)
    keySchedule := some { hashes := [{ algo := hash 0 }] }
    needsKeyUpdate := true
    enc := {
      secret := [1, 2]
      aead := some (@AeadContext.ofSecret crypto aead (hash 0) [1, 2] none) } }

/-- A context with a pre-shared key that requires a key exchange. -/
def dheContext : Context := { pskContext with requireDheOnPsk := true }

/-- A handshake with the pre-shared key, given the extensions of the ServerHello before the one that
selects the key, and the tag of the server. -/
def pskHandshake (extensions : Bytes) (tag : Bytes) : List Operation :=
  [.handshake none [],
    .handshake none (record (hello (zeros 32) 0x1301 (extensions ++ [0, 41] ++ block 2 [0, 0]))),
    .handshake none (sealed (message HandshakeType.encryptedExtensions (block 2 []))),
    .handshake none (sealed (message HandshakeType.finished tag))]

/-- What a client sends, and the tag of the client, as received by a server. -/
def pskClient (tag : Bytes) : List Operation :=
  [.handshake none (@clientRun crypto environment dheContext none [.handshake none []]).sendbuf,
    .handshake none (sealed (message HandshakeType.finished tag))]

/-- A hello of a client that offers one suite. -/
def clientHello (extensions : Bytes) : Bytes :=
  message HandshakeType.clientHello ([3, 3] ++ zeros helloRandomSize ++ [0] ++
    block 2 (toBE 2 0x1301) ++ [1, 0] ++ block 2 extensions)

/-- The extensions of a hello of a client: the version, groups, and key shares. -/
def clientExtensions (groups keyShares : Bytes) : Bytes :=
  [0, 43] ++ block 2 (block 1 [3, 4]) ++ [0, 10] ++ block 2 (block 2 groups) ++
    [0, 51] ++ block 2 (block 2 keyShares)

/-- A hello with a cookie. -/
def cookieHello (groups keyShares tbs signature : Bytes) : Bytes :=
  clientHello (clientExtensions groups keyShares ++
    [0, 44] ++ block 2 (block 2 (tbs ++ block 1 signature)))

end Picotls.Sample
