import Picotls.Connection

/-!
# Signing with OpenSSL

The functions of OpenSSL are questions that get arbitrary answers; no call below asks one of them
twice. A signature is made at once, or by a job that may be suspended and resumed by later calls.
What the functions that make a signature report is kept as a history: whether they succeeded, and
the octets that their buffer holds up to the length they set, which is defined after a failure too.
-/

namespace Picotls.OpenSsl

open Foundation

/-! ## Answers -/

/-- The kinds of keys that are told apart. -/
inductive KeyType where
  | ed25519
  | rsa
  | other
  deriving DecidableEq

/-- What the start or the resumption of a job returns. -/
inductive JobStatus where
  | pause
  | error
  | noJobs
  | finish
  | other
  deriving DecidableEq

/-- The report of a function that makes a signature. -/
structure Report where
  succeeds : Bool
  octets : Bytes
  deriving DecidableEq

/-- The answers that one call gets. -/
structure Answers where
  mdCtxCreate : Bool := true
  digestSignInit : Bool := true
  setRsaPadding : Bool := true
  setRsaPssSaltlen : Bool := true
  setRsaMgf1Md : Bool := true
  digestSignUpdate : Bool := true
  /-- The size of a signature, or a failure to tell it. -/
  siglen : Option ℕ := some 0
  /-- There is memory for what is to be appended to the output. -/
  reserve : Bool := true
  asyncSignCtxNew : Bool := true
  startJob : JobStatus := .finish
  /-- The report of the function that makes the signature, in the call or in its job. -/
  final : Report
  /-- The report of a suspended job that ends while its context is freed. -/
  drained : Option Report := none

/-! ## State -/

/-- The context of an asynchronous signature. -/
structure AsyncSignCtx where
  schemeId : ℕ
  sig : Bytes
  /-- A job has been suspended. -/
  inFlight : Bool := false

/-- The output buffer, the slot for asynchronous operations, and the reports so far. -/
structure State where
  outbuf : Bytes := []
  async : Option AsyncSignCtx := none
  reports : List Report := []

/-- A procedure of the signer. -/
abbrev Signer (α : Type) := Procedure Answers State Fault α

/-- Fail with a return code. -/
def throwCode {α : Type} (code : Code) : Signer α := Procedure.fail (.code code)

/-- Go on if an answer is favourable. -/
def require (answer : Answers → Bool) (code : Code) : Signer Unit := do
  let favourable ← Procedure.observe fun answers _ => answer answers
  if favourable then pure () else throwCode code

theorem require_bind {α : Type} (answer : Answers → Bool) (code : Code) (f : Unit → Signer α)
    (answers : Answers) (s : State) : (require answer code >>= f) answers s =
      if answer answers then f () answers s else (.error (.code code), s) := by
  cases hanswer : answer answers <;> simp [require, throwCode, Procedure.bind_run, hanswer]

/-- The output buffer is extended to hold a signature of the size that OpenSSL tells. -/
def reserveOutput : Signer Unit := require Answers.reserve Error.noMemory

/-- Keep a report. -/
def note (report : Report) : Signer Unit :=
  Procedure.update fun _ s => { s with reports := s.reports ++ [report] }

/-- The function that makes a signature is called. -/
def makeSignature : Signer Report := do
  let report ← Procedure.observe fun answers _ => answers.final
  note report
  return report

/-! ## Asynchronous signatures -/

/-- Fill the slot with a new context, or empty it. -/
def asyncSignCtxNew (schemeId siglen : ℕ) : Signer Unit := do
  let ctx : AsyncSignCtx := { schemeId := schemeId, sig := zeros siglen }
  Procedure.update fun answers s =>
    { s with async := if answers.asyncSignCtxNew then some ctx else none }
  require Answers.asyncSignCtxNew Error.noMemory

/-- Free the context; a suspended job is resumed until it ends, and its result is dropped. -/
def asyncSignCtxFree : Signer Unit := do
  let drained ← Procedure.observe fun answers s =>
    if s.async.any AsyncSignCtx.inFlight then answers.drained else none
  match drained with
  | some report => note report
  | none => pure ()
  Procedure.update fun _ s => { s with async := none }

/-- The body of the job. Its return value goes to the caller of the job by way of OpenSSL. -/
def doSignAsyncJob : Signer Bool := do
  let report ← makeSignature
  Procedure.update fun _ s =>
    { s with async := s.async.map fun ctx => { ctx with sig := report.octets } }
  return report.succeeds

/-- Append octets to the output. -/
def bufferPushv (octets : Bytes) : Signer Unit :=
  if octets = [] then pure ()
  else do
    reserveOutput
    Procedure.update fun _ s => { s with outbuf := s.outbuf ++ octets }

/-- Start or resume the job. -/
def doSignAsync : Signer Unit := do
  let async ← Procedure.observe fun _ s => s.async
  match async with
  | none => Procedure.fail .undefined
  | some _ =>
    let status ← Procedure.observe fun answers _ => answers.startJob
    match status with
    | .pause => do
      Procedure.update fun _ s =>
        { s with async := s.async.map fun ctx => { ctx with inFlight := true } }
      throwCode Error.asyncOperation
    | .error | .noJobs | .other => do
      asyncSignCtxFree
      throwCode Error.library
    | .finish => do
      let _ret ← doSignAsyncJob
      Procedure.update fun _ s =>
        { s with async := s.async.map fun ctx => { ctx with inFlight := false } }
      let sig ← Procedure.observe fun _ s => (s.async.map AsyncSignCtx.sig).getD []
      let pushed ← Procedure.attempt (bufferPushv sig)
      asyncSignCtxFree
      match pushed with
      | .ok () => pure ()
      | .error fault => Procedure.fail fault

/-! ## Signatures -/

/-- Make a signature in the output buffer. -/
def signIntoOutput : Signer Unit := do
  reserveOutput
  let report ← makeSignature
  if report.succeeds then
    Procedure.update fun _ s => { s with outbuf := s.outbuf ++ report.octets }
  else throwCode Error.library

/-- The size of a signature. -/
def querySize : Signer ℕ := do
  let siglen ← Procedure.observe fun answers _ => answers.siglen
  match siglen with
  | some size => pure size
  | none => throwCode Error.library

theorem querySize_bind {α : Type} (f : ℕ → Signer α) (answers : Answers) (s : State) :
    (querySize >>= f) answers s = match answers.siglen with
      | some size => f size answers s
      | none => (.error (.code Error.library), s) := by
  cases hsize : answers.siglen <;> simp [querySize, throwCode, Procedure.bind_run, hsize]

/-- Sign, by a job if there is a slot for one. -/
def doSign (key : KeyType) (schemeId : ℕ) (async : Bool) : Signer Unit := do
  require Answers.mdCtxCreate Error.noMemory
  require Answers.digestSignInit Error.library
  if key = .ed25519 then do
    let _ ← querySize
    signIntoOutput
  else do
    if key = .rsa then do
      require Answers.setRsaPadding Error.library
      require Answers.setRsaPssSaltlen Error.library
      require Answers.setRsaMgf1Md Error.library
    require Answers.digestSignUpdate Error.library
    let siglen ← querySize
    if async then do
      asyncSignCtxNew schemeId siglen
      doSignAsync
    else signIntoOutput

/-- The signing callback of a server: its key, the scheme that suits the client, and whether it may
sign asynchronously. -/
structure SignCertificate where
  key : KeyType
  scheme : Option ℕ
  async : Bool

/-- Sign, or resume the job in the slot; the scheme of the signature. -/
def signCertificate (self : SignCertificate) (slot : Bool) : Signer ℕ := do
  let async ← Procedure.observe fun _ s => if slot then s.async else none
  match async with
  | some ctx => do
    doSignAsync
    return ctx.schemeId
  | none =>
    match self.scheme with
    | none => throwCode Alert.handshakeFailure
    | some schemeId => do
      doSign self.key schemeId (slot && self.async)
      return schemeId

/-- Call the callback again and again while the signature is not made, as a server does. -/
def signRun (self : SignCertificate) (slot : Bool) :
    List Answers → State → Except Fault ℕ × State
  | [], s => (.error (.code Error.asyncOperation), s)
  | answers :: rest, s =>
    match signCertificate self slot answers s with
    | (.error (.code code), t) =>
      if code = Error.asyncOperation then signRun self slot rest t else (.error (.code code), t)
    | outcome => outcome

end Picotls.OpenSsl
