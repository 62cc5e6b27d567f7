import Picotls.Foundation.Octets

/-!
# Parsing private keys for mbedTLS

The parsers of `mbedtls_sign.c` move a position through the octets of a private key by lengths that
they read from it. Positions and lengths are added as numbers of 64 bits. Every octet is read from
the whole string, so a result is missing if an octet outside of it is read; some of the parsers are
given a part of it. A parser that returns does so with zero and the ranges it has found, or without
them.
-/

namespace Picotls.MbedTls

open Foundation

/-- The number of values of a size. -/
abbrev sizeRange : ℕ := 2 ^ 64

/-- Read an octet. -/
def octetAt (bytes : Bytes) (p : ℕ) : Option UInt8 := bytes[p]?

/-- Compare octets one after the other, up to the first that differs. -/
def expectOctets (bytes : Bytes) : ℕ → Bytes → Option Bool
  | _, [] => some true
  | p, expected :: rest => do
    let octet ← octetAt bytes p
    if octet = expected then expectOctets bytes (p + 1) rest else return false

/-- The loop over the octets of a length. -/
def derLengthLoop (bytes : Bytes) (base pemLen : ℕ) : ℕ → ℕ → ℕ → Option (ℕ × ℕ)
  | 0, x, l => some (x, l)
  | ll + 1, x, l =>
    if (x + l) % sizeRange < pemLen then do
      let octet ← octetAt bytes (base + x)
      derLengthLoop bytes base pemLen ll (x + 1) ((l * 256 + octet.toNat) % sizeRange)
    else some (x, l)

/-- Parse a length; the position behind it, and the length. -/
def ptlsMbedtlsParseDerLength (bytes : Bytes) (base pemLen x : ℕ) : Option (ℕ × ℕ) := do
  let l ← octetAt bytes (base + x)
  if 128 < l then derLengthLoop bytes base pemLen (l.toNat % 128) (x + 1) 0
  else return (x + 1, l.toNat)

/-- Open the sequence that is all there is; the position in it. -/
def openSequence (bytes : Bytes) (base pemLen : ℕ) : Option (Option ℕ) :=
  if pemLen < 16 then some none
  else do
    let type ← octetAt bytes base
    if type ≠ 0x30 then return none
    else do
      let (x, l) ← ptlsMbedtlsParseDerLength bytes base pemLen 1
      if (x + l) % sizeRange ≠ pemLen then return none else return some x

/-! ## ECDSA keys -/

/-- Skip the parameters of the curve; the position behind them. -/
def skipParameters (bytes : Bytes) (base pemLen x : ℕ) : Option (Option ℕ) :=
  if x < pemLen then do
    let type ← octetAt bytes (base + x)
    if type = 0xa0 then do
      let l ← octetAt bytes (base + (x + 1))
      if pemLen ≤ (x + 1 + l.toNat) % sizeRange then return none
      else return some (x + 1 + (l.toNat + 1))
    else return some x
  else some (some x)

/-- Skip the public key; the position behind it. -/
def skipPublicKey (bytes : Bytes) (base pemLen x : ℕ) : Option (Option ℕ) :=
  if x < pemLen then do
    let type ← octetAt bytes (base + x)
    if type ≠ 0xa1 ∨ pemLen ≤ x + 1 then return none
    else do
      let (x, l) ← ptlsMbedtlsParseDerLength bytes base pemLen (x + 1)
      return some ((x + l) % sizeRange)
  else some (some x)

/-- What follows the key must end with the sequence. -/
def skipRest (bytes : Bytes) (base pemLen x : ℕ) : Option Bool := do
  match ← skipParameters bytes base pemLen x with
  | none => return false
  | some x =>
    match ← skipPublicKey bytes base pemLen x with
    | none => return false
    | some x => return x = pemLen

/-- The key, behind the version and the type of an octet string. -/
def parseEcdsaContent (bytes : Bytes) (base pemLen x : ℕ) : Option (Option (ℕ × ℕ)) := do
  let expected ← expectOctets bytes (base + x) [0x02, 0x01, 0x01, 0x04]
  if expected = false then return none
  else do
    let l ← octetAt bytes (base + (x + 4))
    if pemLen ≤ (l.toNat + (x + 4)) % sizeRange then return none
    else do
      let complete ← skipRest bytes base pemLen (x + 4 + (1 + l.toNat))
      if complete then return some (x + 5, l.toNat) else return none

/-- Parse the field of an ECDSA key; where the key is. -/
def ptlsMbedtlsParseEcdsaField (bytes : Bytes) (base pemLen : ℕ) : Option (Option (ℕ × ℕ)) := do
  match ← openSequence bytes base pemLen with
  | none => return none
  | some x => parseEcdsaContent bytes base pemLen x

/-- Parse an ECDSA key in a part of the string. -/
def ptlsMbedtlsParseEcPrivateKey (bytes : Bytes) (keyIndex keyLength : ℕ) :
    Option (Option (ℕ × ℕ)) := do
  match ← ptlsMbedtlsParseEcdsaField bytes keyIndex keyLength with
  | none => return none
  | some (offset, l) => return some (keyIndex + offset, l)

/-! ## EdDSA keys -/

/-- Parse an EdDSA key in a part of the string. -/
def ptlsMbedtlsParseEddsaKey (bytes : Bytes) (keyIndex keyLength : ℕ) :
    Option (Option (ℕ × ℕ)) :=
  if keyLength < 2 then some none
  else do
    let type ← octetAt bytes keyIndex
    if type ≠ 0x04 then return none
    else do
      let (x, l) ← ptlsMbedtlsParseDerLength bytes 0 bytes.length (keyIndex + 1)
      if (x + l) % sizeRange ≠ keyIndex + keyLength then return none else return some (x, l)

/-! ## Private keys -/

/-- Where the parts of a private key are. -/
structure KeyRanges where
  oidIndex : ℕ
  oidLength : ℕ
  keyIndex : ℕ
  keyLength : ℕ

/-- The object identifier at the beginning of the embedded sequence; where it is, and the position
behind the sequence. -/
def readOid (bytes : Bytes) (xSeq lSeq : ℕ) : Option (Option (ℕ × ℕ × ℕ)) :=
  if bytes.length ≤ (xSeq + lSeq) % sizeRange then some none
  else do
    let type ← octetAt bytes xSeq
    if type ≠ 0x06 then return none
    else do
      let lOid ← octetAt bytes (xSeq + 1)
      if (xSeq + lSeq) % sizeRange < (xSeq + 2 + lOid.toNat) % sizeRange then return none
      else return some (xSeq + 2, lOid.toNat, (xSeq + lSeq) % sizeRange)

/-- The object identifier in the embedded sequence, of which the length comes first. -/
def parseOid (bytes : Bytes) (x : ℕ) : Option (Option (ℕ × ℕ × ℕ)) := do
  let (xSeq, lSeq) ← ptlsMbedtlsParseDerLength bytes 0 bytes.length x
  readOid bytes xSeq lSeq

/-- The octet string with the key. -/
def parseKey (bytes : Bytes) (x : ℕ) : Option (Option (ℕ × ℕ)) :=
  if bytes.length < (x + 2) % sizeRange then some none
  else do
    let type ← octetAt bytes x
    if type ≠ 0x04 then return none
    else do
      let (xKey, lKey) ← ptlsMbedtlsParseDerLength bytes 0 bytes.length (x + 1)
      if bytes.length < (xKey + lKey) % sizeRange then return none else return some (xKey, lKey)

/-- The contents of a private key: its version, the algorithm, and the key. -/
def parsePrivateKeyContent (bytes : Bytes) (x : ℕ) : Option (Option KeyRanges) := do
  let expected ← expectOctets bytes x [0x02, 0x01, 0x00, 0x30]
  if expected = false then return none
  else do
    match ← parseOid bytes (x + 4) with
    | none => return none
    | some (xOid, lOid, x) =>
      match ← parseKey bytes x with
      | none => return none
      | some (xKey, lKey) => return some ⟨xOid, lOid, xKey, lKey⟩

/-- Parse a private key. -/
def testParsePrivateKeyField (bytes : Bytes) : Option (Option KeyRanges) := do
  match ← openSequence bytes 0 bytes.length with
  | none => return none
  | some x => parsePrivateKeyContent bytes x

end Picotls.MbedTls
