import Picotls.Server.ClientHello

/-!
# The server's negotiation of parameters and pre-shared keys

The server picks a cipher suite and a key share from what the client offers, and looks for a
pre-shared key it can use: the configured external key, or a session ticket it issued itself.
-/

namespace Picotls

open Foundation

variable [Crypto]

/-! ## Cipher suites and key shares -/

/-- The cipher suite that is given priority when it stands first in the client's list. -/
abbrev cipherSuiteChacha20Poly1305 : ℕ := 0x1303

/-- A candidate passes the restriction to a hash, if there is one. -/
def CipherSuite.HasHash (hash : Option HashAlgorithm) (cs : CipherSuite) : Prop :=
  hash = none ∨ hash = some cs.hash

instance (hash : Option HashAlgorithm) (cs : CipherSuite) : Decidable (cs.HasHash hash) :=
  inferInstanceAs (Decidable (hash = none ∨ hash = some cs.hash))

/-- What the walk through the candidates leads to: the next number of the client is tried with the
index found so far, or a candidate is returned. -/
inductive CandidateScan where
  | proceed (found : Option ℕ)
  | selected (cs : CipherSuite)

/-- The walk through the candidates for one number of the client. With `preferred` set the smallest
index is kept and the walk left as soon as there is a smaller one, otherwise the first match is
returned. No index is the `SIZE_MAX` of the source. -/
def scanCandidates (preferred : Bool) (hash : Option HashAlgorithm) (id : ℕ) :
    ℕ → Option ℕ → List CipherSuite → CandidateScan
  | _, found, [] => .proceed found
  | i, found, cs :: rest =>
    if cs.id = id ∧ cs.HasHash hash then
      if preferred then
        if found.all (i < ·) then .proceed (some i)
        else scanCandidates preferred hash id (i + 1) found rest
      else .selected cs
    else scanCandidates preferred hash id (i + 1) found rest

/-- The end of the selection: the candidate at the index that was found. -/
def foundCandidate (candidates : List CipherSuite) (found : Option ℕ) : Except Fault CipherSuite :=
  match found.bind (candidates[·]?) with
  | some cs => .ok cs
  | none => .error (.code Alert.handshakeFailure)

/-- The walk through the client's list. The priority only applies to its first entry. -/
def selectCipherFrom (candidates : List CipherSuite) (serverPreference : Bool)
    (hash : Option HashAlgorithm) : Bool → Option ℕ → Bytes → Except Fault CipherSuite
  | _, found, [] => foundCandidate candidates found
  | _, _, [_] => .error (.code Alert.decodeError)
  | chachaPriority, found, high :: low :: rest =>
    let id := ofBE [high, low]
    let preferred : Bool :=
      serverPreference ∧ ¬ (chachaPriority ∧ id = cipherSuiteChacha20Poly1305)
    match scanCandidates preferred hash id 0 found candidates with
    | .selected cs => .ok cs
    | .proceed found =>
      if found = some 0 then foundCandidate candidates found
      else selectCipherFrom candidates serverPreference hash false found rest

/-- Select a cipher suite from the client's list. -/
def selectCipher (ctx : Context) (offered : Bytes) : Except Fault CipherSuite :=
  selectCipherFrom ctx.cipherSuites ctx.serverCipherPreference
    (ctx.preSharedKey.map PreSharedKey.hash) ctx.serverCipherChachaPriority none offered

/-- The first of the client's key shares that the server supports. -/
def selectKeyShareLoop (candidates : List KeyExchangeAlgorithm) :
    ℕ → Option (KeyExchangeAlgorithm × Bytes) → Src →
      Except Fault (Option (KeyExchangeAlgorithm × Bytes))
  | 0, selected, _ => .ok selected
  | fuel + 1, selected, src =>
    if src.data = [] then .ok selected
    else do
      let (group, key, src) ← decodeKeyShareEntry src
      let selected := selected <|> (candidates.find? (·.id = group)).map (·, key)
      selectKeyShareLoop candidates fuel selected src

/-- Select a key share from the client's key-share extension. -/
def selectKeyShare (candidates : List KeyExchangeAlgorithm) (keyShares : Bytes) :
    Except Fault (Option (KeyExchangeAlgorithm × Bytes)) := do
  let (block, rest) ← Src.decodeOpenBlock 2 ⟨0, keyShares⟩
  let selected ← selectKeyShareLoop candidates block.data.length none block
  rest.assertBlockClose
  return selected

/-- The first group of the client's list that the server supports. -/
def selectNegotiatedGroupLoop (candidates : List KeyExchangeAlgorithm) :
    ℕ → Src → Except Fault (Option KeyExchangeAlgorithm)
  | 0, _ => .ok none
  | fuel + 1, src =>
    if src.data = [] then .ok none
    else do
      let (group, src) ← src.decodeUInt 2
      match candidates.find? (·.id = group) with
      | some algo => return some algo
      | none => selectNegotiatedGroupLoop candidates fuel src

/-- Select the group to ask for in a HelloRetryRequest. -/
def selectNegotiatedGroup (candidates : List KeyExchangeAlgorithm) (groups : Bytes) :
    Except Fault KeyExchangeAlgorithm := do
  let (block, rest) ← Src.decodeOpenBlock 2 ⟨0, groups⟩
  let found ← selectNegotiatedGroupLoop candidates block.data.length block
  match found with
  | some algo => return algo
  | none =>
    rest.assertBlockClose
    .error (.code Alert.handshakeFailure)

/-! ## Session identifiers -/

/-- The mark at the start of every session identifier. -/
def sessionIdentifierMagic : Bytes := ascii "ptls0001"

/-- Write the session identifier that is sealed into a ticket; the pre-shared key in it. -/
def encodeSessionIdentifier (ctx : Context) (ticketAgeAdd : Bytes) (ticketNonce : Bytes)
    (serverName : Option Bytes) (keyExchangeId csid : ℕ) (negotiatedProtocol : Option Bytes) :
    Proc Bytes :=
  bufferPushBlock 2 do
    bufferPushv sessionIdentifierMagic
    let now ← ask Environment.getTime
    bufferPushUInt 8 now
    let psk ← bufferPushBlock 2 do
      allocate
      let psk ← deriveResumptionSecret ticketNonce
      appendReserved psk
      return psk
    bufferPushUInt 2 keyExchangeId
    bufferPushUInt 2 csid
    bufferPushv ticketAgeAdd
    bufferPushBlock 2 (match ctx.ticketContext with
      | some octets => bufferPushv octets
      | none => whenSome serverName bufferPushv)
    bufferPushBlock 1 (whenSome negotiatedProtocol bufferPushv)
    return psk

/-- The contents of a session identifier. -/
structure SessionIdentifier where
  issuedAt : ℕ
  psk : Bytes
  keyExchangeId : ℕ
  csid : ℕ
  ticketAgeAdd : ℕ
  ticketCtx : Bytes
  negotiatedProtocol : Bytes

/-- Decode a session identifier. -/
def decodeSessionIdentifier (octets : Bytes) : Except Fault SessionIdentifier := do
  let block ← Src.decodeBlock 2 ⟨0, octets⟩
  let (magic, src) ← block.decodeBytes sessionIdentifierMagic.length
  if magic ≠ sessionIdentifierMagic then .error (.code Alert.decodeError)
  else
    let (issuedAt, src) ← src.decodeUInt 8
    let (psk, src) ← src.decodeOpenBlock 2
    let (keyExchangeId, src) ← src.decodeUInt 2
    let (csid, src) ← src.decodeUInt 2
    let (ticketAgeAdd, src) ← src.decodeUInt 4
    let (ticketCtx, src) ← src.decodeOpenBlock 2
    let (negotiatedProtocol, src) ← src.decodeOpenBlock 1
    src.assertBlockClose
    return ⟨issuedAt, psk.data, keyExchangeId, csid, ticketAgeAdd, ticketCtx.data,
      negotiatedProtocol.data⟩

/-! ## Pre-shared keys -/

/-- Compare octets with a C string. Octets with an embedded null that agree up to it make the
comparison read past the string. -/
def vecIsString (x y : Bytes) : Proc Bool :=
  if 0 ∈ x ∧ cString x = y then Procedure.fail .undefined else pure (decide (x = y))

/-- The context of a ticket is that of this connection. -/
def ticketContextMatches (ticketCtx : Bytes) : Proc Bool := do
  let tls ← getTls
  match tls.ctx.ticketContext with
  | some octets => return ticketCtx = octets
  | none =>
    match tls.serverName with
    | none => return ticketCtx = []
    | some name => if ticketCtx = [] then return false else vecIsString ticketCtx name

/-- The protocol of a ticket, if it has one, is that of this connection. -/
def ticketProtocolMatches (negotiatedProtocol : Bytes) : Proc Bool := do
  let tls ← getTls
  if negotiatedProtocol = [] then return true
  match tls.negotiatedProtocol with
  | none => return false
  | some protocol => vecIsString negotiatedProtocol protocol

/-- The client's view of the ticket's age agrees with the server's. -/
def earlyDataIsTimely (now issuedAt obfuscatedTicketAge ageAdd : ℕ) : Bool :=
  (((now - issuedAt : ℕ) : ℤ) - ((obfuscatedTicketAge + 2 ^ 32 - ageAdd) % 2 ^ 32 : ℕ)).natAbs ≤
    earlyDataMaxDelay

/-- A pre-shared key that the server can use. -/
structure SelectedPsk where
  index : ℕ
  secret : Bytes
  acceptEarlyData : Bool
  binder : Src

/-- Try the ticket of one identity. -/
def tryTicket (now : ℕ) (ch : ClientHello) (index : ℕ) (identity : PskIdentity) :
    Proc (Option SelectedPsk) := do
  let tls ← getTls
  if !tls.ctx.encryptTicket || tls.ctx.keyExchanges.isNone then return none
  let (ret, octets) ← ask fun env tick => env.encryptTicket tick false identity.identity
  if ret ≠ 0 ∧ ret ≠ Error.rejectEarlyData then return none
  match decodeSessionIdentifier octets with
  | .error _ => return none
  | .ok id =>
    if now < id.issuedAt ∨ tls.ctx.ticketLifetime * 1000 < now - id.issuedAt then return none
    let acceptEarlyData := ch.earlyDataIndication && decide (index = 0 ∧ ret = 0 ∧
      tls.ctx.maxEarlyDataSize ≠ 0) &&
      earlyDataIsTimely now id.issuedAt identity.obfuscatedTicketAge id.ticketAgeAdd
    let contextOk ← ticketContextMatches id.ticketCtx
    if !contextOk then return none
    match (tls.ctx.keyExchanges.getD []).find? (·.id = id.keyExchangeId) with
    | none => return none
    | some algo =>
      modifyTls fun tls => { tls with keyShare := some algo }
      let suite ← deref tls.cipherSuite
      if id.csid ≠ suite.id then return none
      let protocolOk ← ticketProtocolMatches id.negotiatedProtocol
      if !protocolOk then return none
      let slot ← firstHash
      let size := slot.algo.digestSize
      if id.psk.length ≠ size ∨ identity.binder.data.length ≠ size then return none
      return some ⟨index, id.psk, acceptEarlyData, identity.binder⟩

/-- Try one identity: the external key if one is configured, a ticket otherwise. -/
def tryPskIdentity (now : ℕ) (ch : ClientHello) (index : ℕ) (identity : PskIdentity) :
    Proc (Option SelectedPsk) := do
  let tls ← getTls
  match tls.ctx.preSharedKey with
  | some psk =>
    if identity.identity = psk.identity then
      modifyTls fun tls => { tls with keyShare := none }
      return some ⟨index, psk.secret, ch.earlyDataIndication && decide (index = 0),
        identity.binder⟩
    else return none
  | none => tryTicket now ch index identity

/-- Try the identities from an index on. -/
def findPsk (now : ℕ) (ch : ClientHello) : ℕ → List PskIdentity → Proc (Option SelectedPsk)
  | _, [] => pure none
  | index, identity :: rest => do
    let selected ← tryPskIdentity now ch index identity
    match selected with
    | some psk => return some psk
    | none => findPsk now ch (index + 1) rest

/-- What is done with the pre-shared keys of a hello before a binder is compared: the key that is
selected, and the tag of the truncated hello to compare its binder with. -/
def pskBeforeComparison (ch : ClientHello) (message : Bytes) (hashEnd : ℕ)
    (isSecondFlight : Bool) : Proc (Option (SelectedPsk × Bytes)) := do
  let now ← ask Environment.getTime
  let selected ← findPsk now ch 0 ch.pskIdentities
  match selected with
  | none =>
    modifyTls fun tls => { tls with keyShare := none }
    return none
  | some psk =>
    runIf (!isSecondFlight) (keyScheduleExtract (some psk.secret))
    let tls ← getTls
    let binderKey ← deriveSecretWithEmptyDigest
      (if tls.ctx.preSharedKey.isSome then .extBinder else .resBinder)
    keyScheduleUpdateHash (message.take hashEnd) false
    let tag ← calcVerifyData binderKey
    return some (psk, tag)

/-- The octets that are compared with the tag: those of the message from the binder on. The length
of the binder is only checked for tickets. -/
def comparedOctets (message : Bytes) (psk : SelectedPsk) (tag : Bytes) : Bytes :=
  (message.drop psk.binder.off).take tag.length

/-- Compare the binder of a selected key with the tag. -/
def comparePskBinder (message : Bytes) (psk : SelectedPsk) (tag : Bytes) : Proc Unit :=
  if (comparedOctets message psk tag).length < tag.length then Procedure.fail .undefined
  else do
    throwIf (comparedOctets message psk tag ≠ tag) Alert.decryptError
    emitEvent .acceptBinder

/-- Look for a usable pre-shared key and check its binder. -/
def tryPskHandshake (ch : ClientHello) (message : Bytes) (hashEnd : ℕ) (isSecondFlight : Bool) :
    Proc (Option SelectedPsk) := do
  let found ← pskBeforeComparison ch message hashEnd isSecondFlight
  whenSome found fun (psk, tag) => comparePskBinder message psk tag
  return found.map Prod.fst

end Picotls
