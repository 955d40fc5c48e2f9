import Fts3.QosDaemon.Polling

/-!
# Reading the errors of gfal2

The runs of the polling tasks with every read of `errors[i]->code` and `errors[i]->message` written out. The result is
`none` once a missing error is read.
-/

namespace Fts3.QosDaemon

/-! ## Reading -/

namespace GError

/-- `error->code` -/
def readCode (error : Option GError) : Option Int :=
  error.map (·.code)

/-- `error->message` -/
def readMessage (error : Option GError) : Option String :=
  error.map (·.message)

/-- `JobError(operation, error)` -/
def readJobError (operation : String) (error : Option GError) : Option JobError := do
  let code ← readCode error
  let message ← readMessage error
  pure ⟨operation, code, message⟩

end GError

open GError

/-- `errors[i]->code == ECOMM && ctx.incrementErrorCountForSurl(urls[i]) < maxPollRetries` -/
def readSoft (maxPollRetries : Int) (tries : Nat) (error : Option GError) : Option Bool := do
  let code ← readCode error
  pure (code = ECOMM && (tries + 1 : Int) < maxPollRetries)

/-- The text of the log, with the message. -/
def logMessage (error : Option GError) : Option Unit := do
  let _ ← readMessage error
  pure ()

/-- The text of the log, with the code and the message. -/
def logError (error : Option GError) : Option Unit := do
  let _ ← readCode error
  let _ ← readMessage error
  pure ()

/-- The loop over the errors of an abort: only those that are set are read. -/
def readAbort (failed : Bool) (urls : List String) (errors : String → Option GError) : Option Unit :=
  if failed then urls.forM fun url => if (errors url).isSome then logError (errors url) else pure ()
  else pure ()

/-! ## What a task reads for a URL -/

def PollTask.body (maxPollRetries status : Int) (tries : Nat) (error : Option GError) : Option Outcome :=
  if status < 0 then do
    let soft ← if error.isSome then readSoft maxPollRetries tries error else pure false
    if soft then do
      logMessage error
      pure .soft
    else if error.isSome then do
      logError error
      let jobError ← readJobError "STAGING" error
      pure (.failed jobError false)
    else pure (.failed (unsetError "STAGING") false)
  else if error = none then pure (.finished true)
  else do
    let code ← readCode error
    if code = EAGAIN then do
      logMessage error
      pure .pending
    else do
      let soft ← if error.isSome then readSoft maxPollRetries tries error else pure false
      if soft then do
        logMessage error
        pure .soft
      else do
        logError error
        let jobError ← readJobError "STAGING" error
        pure (.failed jobError true)

def HttpPollTask.body (maxPollRetries status : Int) (tries : Nat) (error : Option GError) : Option Outcome :=
  if status < 0 then do
    let soft ← if error.isSome then readSoft maxPollRetries tries error else pure false
    if soft then do
      logMessage error
      pure .soft
    else do
      let unsupported ← if error.isSome then (readCode error).map fun code => decide (code = EOPNOTSUPP) else pure false
      if error.isSome && !unsupported then do
        logError error
        let jobError ← readJobError "STAGING" error
        pure (.failed jobError false)
      else if error.isSome && unsupported then do
        logMessage error
        pure (.finished false)
      else pure (.failed (unsetError "STAGING") false)
  else if error = none then pure (.finished true)
  else do
    let code ← readCode error
    if code = EAGAIN then do
      logMessage error
      pure .pending
    else do
      let soft ← if error.isSome then readSoft maxPollRetries tries error else pure false
      if soft then do
        logMessage error
        pure .soft
      else do
        let code ← readCode error
        if code = EOPNOTSUPP then do
          logMessage error
          pure (.finished true)
        else do
          logError error
          let jobError ← readJobError "STAGING" error
          pure (.failed jobError true)

def ArchivingPollTask.body (maxPollRetries status : Int) (tries : Nat) (error : Option GError) : Option Outcome :=
  if error.isSome then do
    let soft ← readSoft maxPollRetries tries error
    if soft then do
      logMessage error
      pure .soft
    else do
      let code ← readCode error
      if code = EAGAIN then
        if status = 0 then pure .pending
        else do
          logMessage error
          let jobError ← readJobError "ARCHIVING" error
          pure (.failed jobError false)
      else do
        logError error
        let jobError ← readJobError "ARCHIVING" error
        pure (.failed jobError false)
  else if 0 ≤ status then pure (.finished true)
  else do
    -- the log of this branch reads the error that is not there
    logError error
    pure (.failed ⟨"ARCHIVING", -1, "Error not set by Gfal2"⟩ false)

section body

variable (maxPollRetries status : Int) (tries : Nat) (e : GError)

@[simp] theorem readCode_some : readCode (some e) = some e.code := rfl

@[simp] theorem readJobError_some (operation : String) :
    readJobError operation (some e) = some (.ofGError operation e) := rfl

@[simp] theorem readSoft_some :
    readSoft maxPollRetries tries (some e) = some (isSoft maxPollRetries tries (some e)) := rfl

@[simp] theorem logMessage_some : logMessage (some e) = some () := rfl

@[simp] theorem logError_some : logError (some e) = some () := rfl

@[simp] theorem logError_none : logError none = none := rfl

theorem PollTask.body_eq (error : Option GError) :
    body maxPollRetries status tries error = some (outcome maxPollRetries status tries error) := by
  cases error with
  | none =>
      unfold body outcome
      split
      · rfl
      · rfl
  | some e =>
      simp only [body, outcome, Option.isSome_some, if_true, readSoft_some, readCode_some, logMessage_some,
        logError_some, readJobError_some, Option.bind_eq_bind, Option.bind_some, reduceCtorEq, if_false,
        Option.elim_some, Option.pure_def]
      split
      · split <;> rfl
      · split
        · rfl
        · split <;> rfl

theorem HttpPollTask.body_eq (error : Option GError) :
    body maxPollRetries status tries error = some (outcome maxPollRetries status tries error) := by
  cases error with
  | none =>
      unfold body outcome
      split
      · rfl
      · rfl
  | some e =>
      simp only [body, outcome, Option.isSome_some, if_true, readSoft_some, readCode_some, logMessage_some,
        logError_some, readJobError_some, Option.bind_eq_bind, Option.bind_some, Option.map_some, reduceCtorEq,
        if_false, Option.pure_def, Bool.true_and]
      split
      · split
        · rfl
        · by_cases hcode : e.code = EOPNOTSUPP
          · simp [hcode]
          · simp [hcode]
      · split
        · rfl
        · split
          · rfl
          · split <;> rfl

/-- Only here a missing error is read. -/
theorem ArchivingPollTask.body_eq (error : Option GError) : body maxPollRetries status tries error =
    if status < 0 ∧ error = none then none else some (outcome maxPollRetries status tries error) := by
  cases error with
  | none =>
      by_cases hstatus : status < 0
      · have hneg : ¬0 ≤ status := by omega
        simp [body, hstatus, hneg]
      · have hpos : 0 ≤ status := by omega
        simp [body, outcome, hstatus, hpos]
  | some e =>
      simp only [body, outcome, Option.isSome_some, if_true, readSoft_some, readCode_some, logMessage_some,
        logError_some, readJobError_some, Option.bind_eq_bind, Option.bind_some, reduceCtorEq, and_false, if_false,
        Option.pure_def]
      split
      · rfl
      · by_cases hcode : e.code = EAGAIN
        · by_cases hstatus : status = 0
          · simp [hcode, hstatus]
          · simp [hcode, hstatus]
        · simp [hcode]

end body

/-! ## The runs -/

/-- One turn of the loop. -/
def readUrl (body : Nat → Option GError → Option Outcome) (errors : String → Option GError) (p : Polling)
    (url : String) : Option Polling := do
  let o ← body (p.ctx.errorCount url) (errors url)
  pure
    { ctx := p.ctx.afterPoll url (errors url) o.removes
      reports := p.reports ++ o.reports (p.ctx.getIDs url)
      removed := if o.removes then p.removed ++ [url] else p.removed
      failedUrls := if o.isFailed then p.failedUrls ++ [url] else p.failedUrls
      forcePoll := p.forcePoll || o = .soft }

def readUrls (body : Nat → Option GError → Option Outcome) (errors : String → Option GError) (ctx : JobContext) :
    Option Polling :=
  ctx.getUrls.foldlM (readUrl body errors) { ctx }

/-- `PollTask::run` and `HttpPollTask::run`; `preventive` is the answer to the abort of the files that have failed. -/
def readStaging (abortFails : Int → Bool) (body : Int → Int → Nat → Option GError → Option Outcome) (i : PollInput)
    (preventive : Answer) (ctx : StagingContext) : Option (Turn StagingContext) :=
  if ctx.hasTimeoutExpired i.now then do
    readAbort (abortFails i.abort.status) ctx.getUrls i.abort.errors
    pure
      { ctx
        aborted := ctx.getUrls
        reports := ctx.jobs.map fun e =>
          { id := e.id, state := .failed
            error := some ⟨"STAGING", ETIMEDOUT, "bring-online timeout has been exceeded"⟩ } }
  else do
    let (kept, urls) := ctx.getSurlsToAbort (ctx.getSurls.filter (· ∉ i.activeUrls))
    readAbort (abortFails i.abort.status) urls i.abort.errors
    let reports := if abortFails i.abort.status then abortReports kept urls i.abort.errors else []
    if kept.getUrls = [] then pure { ctx := { ctx with toJobContext := kept }, aborted := urls, reports }
    else do
      let p ← readUrls (body i.maxPollRetries i.poll.status) i.poll.errors kept
      readAbort (preventive.status < 0) p.failedUrls preventive.errors
      pure
        { ctx := { ctx with toJobContext := p.ctx }
          aborted := urls ++ p.failedUrls
          reports := reports ++ p.reports
          successor := i.poll.status = 0 || p.forcePoll }

def PollTask.read (i : PollInput) (preventive : Answer) (ctx : StagingContext) : Option (Turn StagingContext) :=
  readStaging (fun status => status < 0) body i preventive ctx

def HttpPollTask.read (i : PollInput) (preventive : Answer) (ctx : StagingContext) : Option (Turn StagingContext) :=
  readStaging (fun status => status ≠ 0) body i preventive ctx

def ArchivingPollTask.read (i : Input) (ctx : ArchivingContext) : Option (Turn ArchivingContext) :=
  let (ctx, reports) := handleTimeouts i.now ctx
  if ctx.getUrls = [] then some { ctx, reports }
  else do
    let p ← readUrls (body i.maxPollRetries i.poll.status) i.poll.errors ctx.toJobContext
    let removed := p.removed.flatMap ctx.getIDs
    pure
      { ctx :=
          { ctx with
            toJobContext := p.ctx
            expiryMap := fun fileId => if fileId ∈ removed.map (·.2) then none else ctx.expiryMap fileId }
        reports := reports ++ p.reports
        successor := i.poll.status = 0 || p.forcePoll }

section runs

variable {body : Nat → Option GError → Option Outcome} {outcome : Nat → Option GError → Outcome}
  {errors : String → Option GError}

theorem readAbort_eq (failed : Bool) (urls : List String) (errors : String → Option GError) :
    readAbort failed urls errors = some () := by
  unfold readAbort
  split
  · induction urls with
    | nil => rfl
    | cons url urls ih =>
        have hurl : (if (errors url).isSome = true then logError (errors url) else pure ()) = some () := by
          cases errors url with
          | none => rfl
          | some e => rfl
        change ((if (errors url).isSome = true then logError (errors url) else pure ()).bind fun _ => _) = _
        rw [hurl]
        exact ih
  · rfl

/-- A turn that reads nothing missing is one of the model. -/
theorem readUrl_eq {p : Polling} {url : String} (hp : p.crashed = false)
    (hbody : ∀ tries, body tries (errors url) = some (outcome tries (errors url)))
    (hcrash : ∀ tries, outcome tries (errors url) ≠ .crash) :
    readUrl body errors p url = some (pollUrl outcome errors p url) ∧
      (pollUrl outcome errors p url).crashed = false := by
  simp [readUrl, pollUrl, hp, hbody, hcrash]

theorem readUrls_eq {ctx : JobContext}
    (hbody : ∀ url ∈ ctx.getUrls, ∀ tries, body tries (errors url) = some (outcome tries (errors url)))
    (hcrash : ∀ url ∈ ctx.getUrls, ∀ tries, outcome tries (errors url) ≠ .crash) :
    readUrls body errors ctx = some (pollUrls outcome errors ctx) ∧ (pollUrls outcome errors ctx).crashed = false := by
  unfold readUrls pollUrls
  have hstart : ({ ctx } : Polling).crashed = false := rfl
  generalize ctx.getUrls = urls at hbody hcrash
  generalize ({ ctx } : Polling) = p at hstart
  induction urls generalizing p with
  | nil => exact ⟨rfl, hstart⟩
  | cons url urls ih =>
      obtain ⟨hturn, hp⟩ := readUrl_eq hstart (hbody url (by simp)) (hcrash url (by simp))
      rw [List.foldlM_cons, hturn, List.foldl_cons]
      exact ih (fun other hother => hbody other (by simp [hother]))
        (fun other hother => hcrash other (by simp [hother])) _ hp

/-- A loop ends where a missing error is read. -/
theorem readUrls_none {ctx : JobContext} {url : String} (hurl : url ∈ ctx.getUrls)
    (hbody : ∀ tries, body tries (errors url) = none) : readUrls body errors ctx = none := by
  unfold readUrls
  generalize ctx.getUrls = urls at hurl
  generalize ({ ctx } : Polling) = p
  induction urls generalizing p with
  | nil => cases hurl
  | cons url' urls ih =>
      rw [List.foldlM_cons]
      rcases List.mem_cons.mp hurl with rfl | hurl
      · simp [readUrl, hbody]
      · cases readUrl body errors p url' with
        | none => rfl
        | some p' => exact ih hurl p'

/-- A staging task reads only errors that are present, and its run is that of the model. -/
theorem readStaging_eq {abortFails : Int → Bool} {body : Int → Int → Nat → Option GError → Option Outcome}
    {outcome : Int → Int → Nat → Option GError → Outcome} (i : PollInput) (preventive : Answer) (ctx : StagingContext)
    (hbody : ∀ retries status tries error,
      body retries status tries error = some (outcome retries status tries error))
    (hcrash : ∀ retries status tries error, outcome retries status tries error ≠ .crash) :
    readStaging abortFails body i preventive ctx = some (runStaging abortFails outcome i ctx) := by
  unfold readStaging runStaging
  split
  · simp [readAbort_eq]
  · simp only [readAbort_eq, Option.bind_eq_bind, Option.bind_some, Option.pure_def]
    split
    · rfl
    · rw [(readUrls_eq (fun url _ tries => hbody _ _ tries _) fun url _ tries => hcrash _ _ tries _).1]
      rfl

theorem PollTask.read_eq (i : PollInput) (preventive : Answer) (ctx : StagingContext) :
    read i preventive ctx = some (run i ctx) :=
  readStaging_eq i preventive ctx body_eq fun retries status tries error =>
    (outcome_fits retries status tries error).crash

theorem HttpPollTask.read_eq (i : PollInput) (preventive : Answer) (ctx : StagingContext) :
    read i preventive ctx = some (run i ctx) :=
  readStaging_eq i preventive ctx body_eq fun retries status tries error =>
    (outcome_fits retries status tries error).crash

end runs

namespace ArchivingPollTask

/-- gfal2 has given the status of an error and no error for one of the URLs that it was asked about. -/
def ErrorMissing (i : Input) (ctx : ArchivingContext) : Prop :=
  i.poll.status < 0 ∧ ∃ url ∈ (handleTimeouts i.now ctx).1.getUrls, i.poll.errors url = none

theorem read_of_missing {i : Input} {ctx : ArchivingContext} (h : ErrorMissing i ctx) : read i ctx = none := by
  obtain ⟨hstatus, url, hurl, hnone⟩ := h
  have hurls : (handleTimeouts i.now ctx).1.getUrls ≠ [] := List.ne_nil_of_mem hurl
  have hbody : ∀ tries, body i.maxPollRetries i.poll.status tries (i.poll.errors url) = none := by
    intro tries
    rw [body_eq, if_pos ⟨hstatus, hnone⟩]
  simp [read, hurls, readUrls_none hurl hbody]

theorem read_of_present {i : Input} {ctx : ArchivingContext} (h : ¬ErrorMissing i ctx) :
    read i ctx = some (run i ctx) := by
  have hpresent : ∀ url ∈ (handleTimeouts i.now ctx).1.getUrls,
      ¬(i.poll.status < 0 ∧ i.poll.errors url = none) := fun url hurl hmissing =>
    h ⟨hmissing.1, url, hurl, hmissing.2⟩
  simp only [read, run]
  split
  · rfl
  · have hbody : ∀ url ∈ (handleTimeouts i.now ctx).1.getUrls, ∀ tries,
        body i.maxPollRetries i.poll.status tries (i.poll.errors url) =
          some (outcome i.maxPollRetries i.poll.status tries (i.poll.errors url)) := by
      intro url hurl tries
      rw [body_eq, if_neg (hpresent url hurl)]
    obtain ⟨hread, hcrashed⟩ := readUrls_eq hbody fun url hurl tries => outcome_ne_crash fun hlt =>
      Option.isSome_iff_ne_none.mpr fun hnone => hpresent url hurl ⟨hlt, hnone⟩
    rw [hread, hcrashed]
    rfl

end ArchivingPollTask

/-- The staging tasks read only errors that are present. An archiving task does so exactly if no error is missing under
the status of an error. -/
theorem errors_read_present_iff (i : PollInput) (preventive : Answer) (ctx : StagingContext)
    (archiving : ArchivingPollTask.Input) (archivingCtx : ArchivingContext) :
    PollTask.read i preventive ctx ≠ none ∧ HttpPollTask.read i preventive ctx ≠ none ∧
    (ArchivingPollTask.read archiving archivingCtx ≠ none ↔ ¬ArchivingPollTask.ErrorMissing archiving archivingCtx) := by
  refine ⟨?_, ?_, fun h hmissing => ?_, fun h => ?_⟩
  · simp [PollTask.read_eq]
  · simp [HttpPollTask.read_eq]
  · exact h (ArchivingPollTask.read_of_missing hmissing)
  · simp [ArchivingPollTask.read_of_present h]

/-- A URL without an error under the status -1. -/
theorem errors_read_missing :
    ArchivingPollTask.read { now := 0, maxPollRetries := 3, poll := { status := -1, errors := fun _ => none } }
      { jobs := [⟨"j", "root://h/f", 1⟩], urlToIDs := [⟨"j", "root://h/f", 1⟩], expiryMap := fun _ => none } = none :=
  ArchivingPollTask.read_of_missing ⟨by decide, "root://h/f", by decide, rfl⟩

end Fts3.QosDaemon
