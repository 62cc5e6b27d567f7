import Picotls.KeySchedule

/-!
# The record layer

Records are built in the output buffer. Handshake messages are written into it in cleartext and
committed; committing encrypts them in place once a sending key is installed. Input is cut into
records, a partial record being kept until the rest of it arrives.
-/

namespace Picotls

open Foundation

variable [Crypto]

/-! ## Record protection -/

/-- The additional data of a TLS 1.3 record: its header. -/
def buildAad (reclen : ℕ) : Bytes :=
  [ContentType.appdata, recordVersionMajor, recordVersionMinor] ++ toBE 2 reclen

/-- The additional data of a TLS 1.2 record. -/
def buildTls12Aad (type : UInt8) (seq length : ℕ) : Bytes :=
  toBE 8 seq ++ [type, recordVersionMajor, recordVersionMinor] ++ toBE 2 length

/-- Encrypt a TLS 1.3 fragment and its content type; the sequence number advances. -/
def aeadEncrypt (input : Bytes) (contentType : UInt8) : Proc Bytes := do
  let tls ← getTls
  let aead ← deref tls.enc.aead
  let seq := tls.enc.seq
  modifyProtection true fun tp => { tp with seq := (seq + 1) % 2 ^ 64 }
  emitEvent (.encrypt aead seq (input ++ [contentType]))
  return aead.encrypt (input ++ [contentType]) seq
    (buildAad (input.length + 1 + aead.algo.tagSize))

/-- Decrypt a TLS 1.3 fragment; the sequence number advances on success. -/
def aeadDecrypt (input : Bytes) : Proc Bytes := do
  let tls ← getTls
  let aead ← deref tls.dec.aead
  match aead.decrypt input tls.dec.seq (buildAad input.length) with
  | none => throwCode Alert.badRecordMac
  | some output =>
    modifyProtection false fun tp => { tp with seq := (tp.seq + 1) % 2 ^ 64 }
    return output

/-- Append a record around a block. -/
def bufferPushRecord (type : UInt8) (block : Proc Unit) : Proc Unit := do
  bufferPushv [type, recordVersionMajor, recordVersionMinor]
  bufferPushBlock 2 block

/-- The nonce of the next TLS 1.2 record, which is written out if the suite has explicit nonces. -/
def takeTls12Nonce (aead : AeadContext) (tp : TrafficProtection) : Proc ℕ :=
  if aead.algo.recordIvSize ≠ 0 then do
    assert (aead.algo.recordIvSize = 8)
    modifyProtection true fun tp => { tp with
      tls12EncRecordIv := (tp.tls12EncRecordIv + 1) % 2 ^ 64 }
    appendReserved (toBE 8 tp.tls12EncRecordIv)
    return tp.tls12EncRecordIv
  else return tp.seq

/-- The body of an encrypted TLS 1.2 record. -/
def pushTls12Fragment (type : UInt8) (src : Bytes) : Proc Unit := do
  let tls ← getTls
  let aead ← deref tls.enc.aead
  allocate
  let nonce ← takeTls12Nonce aead tls.enc
  emitEvent (.encrypt aead nonce src)
  appendReserved (aead.encrypt src nonce (buildTls12Aad type tls.enc.seq src.length))
  modifyProtection true fun tp => { tp with seq := (tls.enc.seq + 1) % 2 ^ 64 }

/-- The body of an encrypted TLS 1.3 record. -/
def pushTls13Fragment (type : UInt8) (src : Bytes) : Proc Unit := do
  let tls ← getTls
  let _ ← deref tls.enc.aead
  allocate
  let output ← aeadEncrypt src type
  appendReserved output

/-- One encrypted record. -/
def pushEncryptedRecord (type : UInt8) (src : Bytes) : Proc Unit := do
  let tls ← getTls
  if tls.enc.tls12 then bufferPushRecord type (pushTls12Fragment type src)
  else bufferPushRecord ContentType.appdata (pushTls13Fragment type src)

/-- The loop that cuts octets into records of the maximum size. -/
def pushEncryptedRecordsLoop (type : UInt8) : ℕ → Bytes → Proc Unit
  | 0, _ => pure ()
  | fuel + 1, src =>
    if src = [] then pure ()
    else do
      pushEncryptedRecord type (src.take maxPlaintextRecordSize)
      pushEncryptedRecordsLoop type fuel (src.drop maxPlaintextRecordSize)

/-- Append octets as encrypted records. -/
def bufferPushEncryptedRecords (type : UInt8) (src : Bytes) : Proc Unit :=
  pushEncryptedRecordsLoop type src.length src

/-- Encrypt the cleartext record that starts at an offset and ends the buffer. A single TLS 1.3
record is encrypted in place. -/
def bufferEncryptRecord (recStart : ℕ) : Proc Unit := do
  let buf ← getSendbuf
  let body := buf.drop (recStart + 5)
  let type ← deref buf[recStart]?
  let tls ← getTls
  if !tls.enc.tls12 && decide (body.length ≤ maxPlaintextRecordSize) then
    let _ ← deref tls.enc.aead
    allocate
    let output ← aeadEncrypt body type
    modifySendbuf fun buf =>
      overwrite (overwrite (buf.take (recStart + 5) ++ output) recStart [ContentType.appdata])
        (recStart + 3) (toBE 2 output.length)
  else
    allocate
    modifySendbuf (·.take recStart)
    bufferPushEncryptedRecords type body

/-! ## Handshake messages -/

/-- How handshake messages leave the library: as records, or as raw messages for an application
that has a record layer of its own. -/
inductive Emitter where
  | record
  | raw
  deriving DecidableEq

/-- Begin a message: the offset at which its record or the message itself starts. -/
def beginMessage : Emitter → Proc ℕ
  | .record => do
    let recStart ← sendbufOff
    bufferPushv [ContentType.handshake, recordVersionMajor, recordVersionMinor, 0, 0]
    return recStart
  | .raw => sendbufOff

/-- Advance the message offsets of all epochs after the one a message belongs to. -/
def advanceEpochOffsets (epoch start stop : ℕ) : ℕ → List ℕ → Option (List ℕ)
  | _, [] => some []
  | i, off :: offs =>
    if epoch < i then
      if off = start then (advanceEpochOffsets epoch start stop (i + 1) offs).map (stop :: ·)
      else none
    else (advanceEpochOffsets epoch start stop (i + 1) offs).map (off :: ·)

/-- Commit a message to the record layer. -/
def commitMessage (emitter : Emitter) (start : ℕ) : Proc Unit := do
  let tls ← getTls
  let buf ← getSendbuf
  match emitter with
  | .record =>
    if tls.enc.aead.isSome then bufferEncryptRecord start
    else
      let size := buf.length - start - 5
      assert (size ≤ maxPlaintextRecordSize)
      modifySendbuf fun buf => overwrite buf (start + 3) (toBE 2 size)
  | .raw =>
    -- the second ClientHello is sent in epoch 0 although the early-data key is installed
    let epoch := if tls.enc.epoch = 1 ∧ buf[start]? = some HandshakeType.clientHello then 0
      else tls.enc.epoch
    let offs ← Procedure.observe fun _ s => s.epochOffsets
    match advanceEpochOffsets epoch start buf.length 0 offs with
    | none => Procedure.fail .assertion
    | some offs => Procedure.update fun _ s => { s with epochOffsets := offs }

/-- Write a handshake message and return its octets, absorbing them into the transcript on
demand. -/
def bufferPushMessageBody {α : Type} (keySched : Bool) (type : UInt8) (block : Proc α) :
    Proc (α × Bytes) := do
  let messStart ← sendbufOff
  let result ← bufferPushMessage type block
  let buf ← getSendbuf
  let message := buf.drop messStart
  runIf keySched (keyScheduleUpdateHash message false)
  return (result, message)

/-- Write and commit a handshake message. -/
def writeMessage {α : Type} (emitter : Emitter) (keySched : Bool) (type : UInt8)
    (block : Proc α) : Proc (α × Bytes) := do
  let start ← beginMessage emitter
  let result ← bufferPushMessageBody keySched type block
  commitMessage emitter start
  return result

/-- Send a handshake message. -/
def pushMessage (emitter : Emitter) (keySched : Bool) (type : UInt8) (block : Proc Unit) :
    Proc Unit := do
  let ((), message) ← writeMessage emitter keySched type block
  emitEvent (.sent message)

/-- Send a ChangeCipherSpec record, if one is still to be sent. -/
def pushChangeCipherSpec (emitter : Emitter) : Proc Unit := do
  let tls ← getTls
  runIf tls.sendChangeCipherSpec do
    throwIf (emitter ≠ .record) Alert.unexpectedMessage
    bufferPushRecord ContentType.changeCipherSpec (bufferPushv [1])
    modifyTls fun tls => { tls with sendChangeCipherSpec := false }

/-! ## Parsing of records -/

/-- A record as received. -/
structure Record where
  type : UInt8
  fragment : Bytes
  deriving DecidableEq

/-- The content type and the length in a record header. -/
def parseRecordHeader (header : Bytes) : Except Fault (UInt8 × ℕ) :=
  let type := header.headD 0
  let length := ofBE ((header.drop 3).take 2)
  if (if type = ContentType.appdata then maxEncryptedRecordSize else maxPlaintextRecordSize)
      < length then .error (.code Alert.decodeError)
  else .ok (type, length)

/-- Set how much of the input was taken. -/
def setConsumed (consumed : ℕ) : Proc Unit :=
  Procedure.update fun _ s => { s with consumed := consumed }

/-- Continue the partial record in the receive buffer; no result if it is still partial. -/
def parseRecordSlow (src : Bytes) : Proc (Option Record) := do
  let tls ← getTls
  let buf ← deref tls.recvbufRec
  let missing := 5 - buf.length
  let buf := buf ++ src.take missing
  let rest := src.drop missing
  modifyTls fun tls => { tls with recvbufRec := some buf }
  if buf.length < 5 then return none
  else
    let (type, length) ← parseRecordHeader buf
    let addlen := length + 5 - buf.length
    runIf (addlen ≠ 0) allocate
    let buf := buf ++ rest.take addlen
    modifyTls fun tls => { tls with recvbufRec := some buf }
    setConsumed (src.length - (rest.length - addlen))
    return if buf.length = length + 5 then some ⟨type, buf.drop 5⟩ else none

/-- The content type and the length of the record at the start of the input, if all of it is
there. -/
def completeRecord (src : Bytes) : Except Fault (Option (UInt8 × ℕ)) :=
  if src.length < 5 then .ok none
  else do
    let (type, length) ← parseRecordHeader src
    return if 5 + length ≤ src.length then some (type, length) else none

/-- Extract the next record from the input. -/
def parseRecord (src : Bytes) : Proc (Option Record) := do
  assert (src ≠ [])
  setConsumed src.length
  let tls ← getTls
  match tls.recvbufRec with
  | some _ => parseRecordSlow src
  | none =>
    throwIf (src.head? ∉ [some ContentType.changeCipherSpec, some ContentType.alert,
      some ContentType.handshake, some ContentType.appdata]) Alert.decodeError
    let complete ← completeRecord src
    match complete with
    | some (type, length) =>
      setConsumed (length + 5)
      return some ⟨type, (src.drop 5).take length⟩
    | none =>
      modifyTls fun tls => { tls with recvbufRec := some [] }
      allocate
      parseRecordSlow src

end Picotls
