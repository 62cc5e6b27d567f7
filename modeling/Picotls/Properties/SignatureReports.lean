import Picotls.OpenSsl.Signing

/-!
# Signatures that were not made

A call that signs is honest if it fails, and leaves the output alone, when the function that makes
the signature reports a failure, and if it appends exactly what that function reports when it
succeeds. A synchronous call is always honest. A job that ends is taken to have succeeded, whatever
its return value is, so that a call whose job fails appends the contents of the buffer and succeeds.
-/

namespace Picotls.OpenSsl

open Foundation Procedure

variable {α : Type} {answers : Answers} {s t : State} {ctx : AsyncSignCtx} {async : Bool}
  {code : Code} {a : α} {schemeId : ℕ}

/-- A failure to make a signature is returned and leaves the output alone; success appends what was
reported; a call that is to be resumed does neither. -/
structure Honest (s : State) (outcome : Except Fault α × State) : Prop where
  failure : (∃ report ∈ outcome.2.reports.drop s.reports.length, report.succeeds = false) →
    (∃ code, code ≠ 0 ∧ outcome.1 = .error (.code code)) ∧ outcome.2.outbuf = s.outbuf
  success : ∀ a, outcome.1 = .ok a → ∃ report, outcome.2.reports = s.reports ++ [report] ∧
    report.succeeds = true ∧ outcome.2.outbuf = s.outbuf ++ report.octets
  suspended : outcome.1 = .error (.code Error.asyncOperation) →
    outcome.2.reports = s.reports ∧ outcome.2.outbuf = s.outbuf

/-- A call that neither returns nor makes a signature. -/
theorem Honest.of_error (hreports : t.reports = s.reports) (houtbuf : t.outbuf = s.outbuf) :
    Honest s ((.error (.code code), t) : Except Fault α × State) where
  failure := by
    rintro ⟨report, hreport, -⟩
    rw [hreports, List.drop_length] at hreport
    exact absurd hreport List.not_mem_nil
  success _ h := by cases h
  suspended _ := ⟨hreports, houtbuf⟩

/-! ## Asynchronous calls -/

/-- How a call ends that starts or resumes a job. -/
theorem doSignAsync_run (hs : s.async = some ctx) :
    doSignAsync answers s = match answers.startJob with
      | .pause => (.error (.code Error.asyncOperation),
          { s with async := some { ctx with inFlight := true } })
      | .finish =>
        if answers.final.octets ≠ [] ∧ answers.reserve = false then
          (.error (.code Error.noMemory),
            { s with async := none, reports := s.reports ++ [answers.final] })
        else (.ok (), { s with
          outbuf := s.outbuf ++ answers.final.octets, async := none
          reports := s.reports ++ [answers.final] })
      | _ => (.error (.code Error.library), { s with
          async := none
          reports := s.reports ++ (if ctx.inFlight then answers.drained.toList else []) }) := by
  unfold doSignAsync
  rw [observe_bind, hs]
  dsimp only
  rw [observe_bind]
  have hfree : (do asyncSignCtxFree; throwCode Error.library : Signer Unit) answers s =
      (.error (.code Error.library), { s with
        async := none
        reports := s.reports ++ (if ctx.inFlight then answers.drained.toList else []) }) := by
    rw [asyncSignCtxFree]
    cases hflight : ctx.inFlight <;> cases hdrained : answers.drained <;>
      simp [bind_run, observe_run, hs, hflight, hdrained, note, throwCode]
  cases hstatus : answers.startJob with
  | pause => simp [bind_run, update_run, throwCode, hs]
  | error => exact hfree
  | noJobs => exact hfree
  | other => exact hfree
  | finish =>
    dsimp only
    by_cases hempty : answers.final.octets = []
    · simp [doSignAsyncJob, makeSignature, note, bufferPushv, asyncSignCtxFree, bind_run,
        hs, hempty]
    · cases hreserve : answers.reserve <;>
        simp [doSignAsyncJob, makeSignature, note, bufferPushv, reserveOutput, require,
          asyncSignCtxFree, throwCode, bind_run, hs, hempty, hreserve]

/-- A job that ends has made a signature, or there is no room in the output for what it leaves. -/
def Answers.JobSucceeds (answers : Answers) : Prop :=
  answers.startJob = .finish →
    answers.final.succeeds = true ∨ answers.final.octets ≠ [] ∧ answers.reserve = false

/-- A call that fails for good is honest if it leaves the output alone. -/
theorem Honest.of_failure (hcode : code ≠ 0 ∧ code ≠ Error.asyncOperation)
    (houtbuf : t.outbuf = s.outbuf) :
    Honest s ((.error (.code code), t) : Except Fault α × State) where
  failure _ := ⟨⟨code, hcode.1, rfl⟩, houtbuf⟩
  success _ h := by cases h
  suspended h := by
    cases h
    exact absurd rfl hcode.2

/-- A call that returns is honest just if the only report is the one of a signature that was made
and appended. -/
theorem honest_ok_iff {report : Report} (hreports : t.reports = s.reports ++ [report])
    (houtbuf : t.outbuf = s.outbuf ++ report.octets) :
    Honest s ((.ok a, t) : Except Fault α × State) ↔ report.succeeds = true := by
  constructor
  · intro h
    obtain ⟨report', hreports', hsucceeds, -⟩ := h.success a rfl
    rw [hreports] at hreports'
    have hsame := List.append_cancel_left hreports'
    cases hsame
    exact hsucceeds
  · intro hsucceeds
    constructor
    · rintro ⟨report', hmember, hfails⟩
      rw [hreports, List.drop_left, List.mem_singleton] at hmember
      rw [hmember, hsucceeds] at hfails
      cases hfails
    · exact fun _ _ => ⟨report, hreports, hsucceeds, houtbuf⟩
    · exact nofun

/-- A call that starts or resumes a job is honest just if a job that ends has succeeded. -/
theorem doSignAsync_honest_iff (hs : s.async = some ctx) :
    Honest s (doSignAsync answers s) ↔ answers.JobSucceeds := by
  rw [doSignAsync_run hs, Answers.JobSucceeds]
  cases hstatus : answers.startJob with
  | pause =>
    dsimp only
    exact iff_of_true (Honest.of_error rfl rfl) nofun
  | error | noJobs | other =>
    dsimp only
    exact iff_of_true (Honest.of_failure (by decide) rfl) nofun
  | finish =>
    dsimp only
    split_ifs with hfull
    · exact iff_of_true (Honest.of_failure (by decide) rfl) fun _ => .inr hfull
    · rw [honest_ok_iff rfl rfl]
      exact ⟨fun h _ => .inl h, fun h => (h rfl).resolve_right hfull⟩

/-! ## Signatures -/

theorem honest_require {answer : Answers → Bool} {f : Unit → Signer α} :
    Honest s ((require answer code >>= f) answers s) ↔
      (answer answers = true → Honest s (f () answers s)) := by
  rw [require_bind]
  split_ifs with hanswer
  · exact ⟨fun h _ => h, fun h => h hanswer⟩
  · exact iff_of_true (Honest.of_error rfl rfl) fun h => absurd h hanswer

theorem honest_querySize {f : ℕ → Signer α} :
    Honest s ((querySize >>= f) answers s) ↔
      ∀ size, answers.siglen = some size → Honest s (f size answers s) := by
  rw [querySize_bind]
  cases hsize : answers.siglen with
  | none => exact iff_of_true (Honest.of_error rfl rfl) nofun
  | some size =>
    constructor
    · rintro h size' ⟨⟩
      exact h
    · exact fun h => h size rfl

/-- A signature that is made in the output buffer is made honestly. -/
theorem signIntoOutput_honest : Honest s (signIntoOutput answers s) := by
  rw [signIntoOutput, reserveOutput, honest_require]
  intro _
  cases hfinal : answers.final.succeeds with
  | false =>
    have hrun : (do
        let report ← makeSignature
        if report.succeeds then
          update fun _ s => { s with outbuf := s.outbuf ++ report.octets }
        else throwCode Error.library : Signer Unit) answers s = (.error (.code Error.library),
          { s with reports := s.reports ++ [answers.final] }) := by
      simp [makeSignature, note, throwCode, bind_run, hfinal]
    rw [hrun]
    exact .of_failure (by decide) rfl
  | true =>
    have hrun : (do
        let report ← makeSignature
        if report.succeeds then
          update fun _ s => { s with outbuf := s.outbuf ++ report.octets }
        else throwCode Error.library : Signer Unit) answers s = (.ok (), { s with
          outbuf := s.outbuf ++ answers.final.octets
          reports := s.reports ++ [answers.final] }) := by
      simp [makeSignature, note, bind_run, hfinal]
    rw [hrun]
    exact (honest_ok_iff rfl rfl).mpr hfinal

/-- The call gets as far as starting a job. -/
structure Answers.ReachesJob (answers : Answers) (key : KeyType) (async : Bool) : Prop where
  slot : async = true
  separate : key ≠ .ed25519
  create : answers.mdCtxCreate = true
  init : answers.digestSignInit = true
  rsa : key = .rsa → answers.setRsaPadding = true ∧ answers.setRsaPssSaltlen = true ∧
    answers.setRsaMgf1Md = true
  update : answers.digestSignUpdate = true
  size : answers.siglen.isSome = true
  context : answers.asyncSignCtxNew = true

/-- The slot does not matter. -/
theorem honest_congr {outcome : Except Fault α × State} (hreports : t.reports = s.reports)
    (houtbuf : t.outbuf = s.outbuf) : Honest t outcome ↔ Honest s outcome := by
  constructor
  · rintro ⟨hfailure, hsuccess, hsuspended⟩
    rw [hreports, houtbuf] at *
    exact ⟨hfailure, hsuccess, hsuspended⟩
  · rintro ⟨hfailure, hsuccess, hsuspended⟩
    rw [← hreports, ← houtbuf] at *
    exact ⟨hfailure, hsuccess, hsuspended⟩

/-- The end of a signature that may be made by a job. -/
theorem signOrStart_honest_iff {siglen : ℕ} :
    Honest s ((if async then do
      asyncSignCtxNew schemeId siglen
      doSignAsync
    else signIntoOutput : Signer Unit) answers s) ↔
      (async = true → answers.asyncSignCtxNew = true → answers.JobSucceeds) := by
  cases async with
  | false => exact iff_of_true signIntoOutput_honest nofun
  | true =>
    have hrun : (do
        asyncSignCtxNew schemeId siglen
        doSignAsync : Signer Unit) answers s = (do
          require Answers.asyncSignCtxNew Error.noMemory
          doSignAsync : Signer Unit) answers { s with async :=
            (if answers.asyncSignCtxNew then some ⟨schemeId, zeros siglen, false⟩ else none) } := by
      rw [asyncSignCtxNew, Procedure.bind_assoc]
      rfl
    have hslot (ctx : Option AsyncSignCtx) {outcome : Except Fault Unit × State} :
        Honest { s with async := ctx } outcome ↔ Honest s outcome := honest_congr rfl rfl
    rw [if_pos rfl, hrun, ← hslot, honest_require]
    refine ⟨fun h _ hcontext => ?_, fun h hcontext => ?_⟩
    · have hjob := h hcontext
      rw [if_pos hcontext] at hjob
      exact (doSignAsync_honest_iff rfl).mp hjob
    · rw [if_pos hcontext]
      exact (doSignAsync_honest_iff rfl).mpr (h rfl hcontext)

theorem doSign_honest_iff {key : KeyType} :
    Honest s (doSign key schemeId async answers s) ↔
      (answers.ReachesJob key async → answers.JobSucceeds) := by
  rw [doSign, honest_require]
  simp only [honest_require]
  cases key with
  | ed25519 =>
    simp only [if_true, honest_querySize]
    exact iff_of_true (fun _ _ _ _ => signIntoOutput_honest) fun h => absurd rfl h.separate
  | rsa =>
    simp only [reduceCtorEq, if_false, if_true, honest_require, honest_querySize,
      signOrStart_honest_iff]
    constructor
    · rintro h ⟨hslot, -, hcreate, hinit, hrsa, hupdate, hsize, hcontext⟩
      obtain ⟨size, hsize⟩ := Option.isSome_iff_exists.mp hsize
      obtain ⟨hpadding, hsaltlen, hmgf1⟩ := hrsa rfl
      exact h hcreate hinit hpadding hsaltlen hmgf1 hupdate size hsize hslot hcontext
    · intro h hcreate hinit hpadding hsaltlen hmgf1 hupdate size hsize hslot hcontext
      exact h ⟨hslot, nofun, hcreate, hinit, fun _ => ⟨hpadding, hsaltlen, hmgf1⟩, hupdate,
        by rw [hsize]; rfl, hcontext⟩
  | other =>
    simp only [reduceCtorEq, if_false, honest_require, honest_querySize, signOrStart_honest_iff]
    constructor
    · rintro h ⟨hslot, -, hcreate, hinit, -, hupdate, hsize, hcontext⟩
      obtain ⟨size, hsize⟩ := Option.isSome_iff_exists.mp hsize
      exact h hcreate hinit hupdate size hsize hslot hcontext
    · intro h hcreate hinit hupdate size hsize hslot hcontext
      exact h ⟨hslot, nofun, hcreate, hinit, nofun, hupdate, by rw [hsize]; rfl, hcontext⟩

/-! ## Runs -/

/-- What a call returns on success does not matter. -/
theorem honest_return_iff {m : Signer Unit} :
    Honest s ((do m; return a : Signer α) answers s) ↔ Honest s (m answers s) := by
  rw [bind_run]
  rcases m answers s with ⟨fault | u, t⟩
  · exact ⟨fun h => ⟨fun hfail => by simpa using h.failure hfail, nofun,
        fun hpause => h.suspended (by simpa using hpause)⟩,
      fun h => ⟨fun hfail => by simpa using h.failure hfail, nofun,
        fun hpause => h.suspended (by simpa using hpause)⟩⟩
  · exact ⟨fun h => ⟨fun hfail => by simpa using h.failure hfail,
      fun _ _ => h.success a rfl, nofun⟩,
      fun h => ⟨fun hfail => by simpa using h.failure hfail, fun _ _ => h.success () rfl, nofun⟩⟩

/-- The callback is honest if a job that ends has succeeded. -/
theorem signCertificate_honest (self : SignCertificate) (slot : Bool) (h : answers.JobSucceeds) :
    Honest s (signCertificate self slot answers s) := by
  rw [signCertificate, observe_bind]
  rcases hslot : (if slot then s.async else none) with _ | ctx
  · dsimp only
    cases self.scheme with
    | none => exact .of_error rfl rfl
    | some schemeId => exact honest_return_iff.mpr (doSign_honest_iff.mpr fun _ => h)
  · have hasync : s.async = some ctx := by
      split_ifs at hslot
      exact hslot
    exact honest_return_iff.mpr ((doSignAsync_honest_iff hasync).mpr h)

/-- A run that is resumed any number of times is honest if every job that ends in it has
succeeded. -/
theorem signRun_honest (self : SignCertificate) (slot : Bool) {calls : List Answers}
    (h : ∀ answers ∈ calls, answers.JobSucceeds) : Honest s (signRun self slot calls s) := by
  induction calls generalizing s with
  | nil => exact .of_error rfl rfl
  | cons answers calls ih =>
    have hcall : Honest s (signCertificate self slot answers s) :=
      signCertificate_honest self slot (h answers List.mem_cons_self)
    rw [signRun]
    rcases hrun : signCertificate self slot answers s with ⟨(code | _ | _) | a, t⟩ <;>
      rw [hrun] at hcall
    · dsimp only
      split_ifs with hpause
      · obtain ⟨hreports, houtbuf⟩ := hcall.suspended (by rw [hpause])
        exact (honest_congr hreports houtbuf).mp
          (ih fun answers' h' => h answers' (List.mem_cons_of_mem _ h'))
      · exact hcall
    · exact hcall
    · exact hcall
    · exact hcall

/-! ## Every call -/

/-- A call that signs is honest just if it does not get as far as a job or the job has succeeded
when it ends; a call that resumes a job is honest just if the job has succeeded when it ends; runs
in which all jobs succeed are honest, however often they are resumed. -/
theorem signing_honest_iff (answers : Answers) (key : KeyType) (schemeId : ℕ) (async slot : Bool)
    (self : SignCertificate) (calls : List Answers) (s : State) :
    (Honest s (doSign key schemeId async answers s) ↔
      (answers.ReachesJob key async → answers.JobSucceeds)) ∧
    (s.async.isSome → (Honest s (doSignAsync answers s) ↔ answers.JobSucceeds)) ∧
    ((∀ answers ∈ calls, answers.JobSucceeds) → Honest s (signRun self slot calls s)) := by
  refine ⟨doSign_honest_iff, fun hs => ?_, fun h => signRun_honest self slot h⟩
  obtain ⟨ctx, hctx⟩ := Option.isSome_iff_exists.mp hs
  exact doSignAsync_honest_iff hctx

/-- A signer whose job ends with a failure and leaves zeros in its buffer. -/
def failingJob : Answers := { siglen := some 2, final := ⟨false, [0, 0]⟩ }

/-- A job that is suspended and one that makes a signature. -/
def suspendedJob : List Answers :=
  [{ siglen := some 2, startJob := .pause, final := ⟨false, []⟩ }, { final := ⟨true, [7, 8]⟩ }]

/-- The call returns although the function that makes the signature has failed, and appends what is
in the buffer. -/
theorem failed_job_signs :
    ¬ Honest {} (doSign .rsa 0x0804 true failingJob {}) ∧
      (doSign .rsa 0x0804 true failingJob {}).1 = .ok () ∧
      (doSign .rsa 0x0804 true failingJob {}).2.outbuf = [0, 0] := by
  refine ⟨fun h => ?_, by decide, by decide⟩
  obtain ⟨⟨code, -, hcode⟩, -⟩ := h.failure ⟨⟨false, [0, 0]⟩, by decide, rfl⟩
  exact absurd hcode nofun

/-- A job that is suspended once and makes a signature then. -/
theorem suspended_job_honest :
    Honest {} (signRun ⟨.rsa, some 0x0804, true⟩ true suspendedJob {}) ∧
      (Honest { async := some ⟨0x0804, [0, 0], true⟩ } (doSignAsync failingJob
        { async := some ⟨0x0804, [0, 0], true⟩ }) ↔ failingJob.JobSucceeds) := by
  refine ⟨(signing_honest_iff failingJob .rsa 0x0804 true true _ _ _).2.2 ?_,
    (signing_honest_iff failingJob .rsa 0x0804 true true ⟨.rsa, some 0x0804, true⟩ [] _).2.1 rfl⟩
  intro answers hanswers
  rcases List.mem_cons.mp hanswers with rfl | hanswers
  · exact nofun
  · rw [List.mem_singleton.mp hanswers]
    exact fun _ => .inl rfl

end Picotls.OpenSsl
