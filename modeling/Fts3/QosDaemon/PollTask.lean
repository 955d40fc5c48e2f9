import Fts3.MySql.Schema
import Fts3.QosDaemon.Context

/-!
# Polling tasks

The tasks that ask a storage how far it has come with the files of a context, and that schedule another task of their kind
while the answer is not final; and the tasks that a staging request starts with. What gfal2 answers is an input.
-/

namespace Fts3.QosDaemon

open Fts3.MySql (FileState)

def EAGAIN : Int := 11

def ECOMM : Int := 70

def EOPNOTSUPP : Int := 95

def ETIMEDOUT : Int := 110

structure GError where
  code : Int
  message : String
  deriving Repr, DecidableEq

structure JobError where
  operation : String
  code : Int
  message : String
  deriving Repr, DecidableEq

def JobError.ofGError (operation : String) (error : GError) : JobError :=
  ⟨operation, error.code, error.message⟩

/-- What gfal2 returns for a list of URLs. -/
structure Answer where
  status : Int
  errors : String → Option GError

/-- A state given to a file. -/
structure Report where
  id : String × Nat
  state : FileState
  error : Option JobError := none
  deriving Repr, DecidableEq

/-- What a task decides about a URL. A state is given to all files of the URL, which then leaves the context or stays. -/
inductive Outcome
  | finished (removes : Bool)
  | failed (error : JobError) (removes : Bool)
  | pending
  /-- a communication error that is tried again -/
  | soft
  /-- the error is read although there is none -/
  | crash
  deriving Repr, DecidableEq

namespace Outcome

def reports (ids : List (String × Nat)) : Outcome → List Report
  | finished _ => ids.map fun id => { id, state := .finished }
  | failed error _ => ids.map fun id => { id, state := .failed, error }
  | pending | soft | crash => []

def removes : Outcome → Bool
  | finished removes | failed _ removes => removes
  | pending | soft | crash => false

def isFailed : Outcome → Bool
  | failed _ _ => true
  | _ => false

end Outcome

/-- A communication error within the budget; `tries` are those before this one. -/
def isSoft (maxPollRetries : Int) (tries : Nat) (error : Option GError) : Bool :=
  error.any fun e => e.code = ECOMM && (tries + 1 : Int) < maxPollRetries

/-! ## The loop over the URLs -/

structure Polling where
  ctx : JobContext
  reports : List Report := []
  removed : List String := []
  failedUrls : List String := []
  forcePoll : Bool := false
  crashed : Bool := false

/-- The context after a turn of the loop: a communication error is counted, and the URL may leave. -/
def JobContext.afterPoll (ctx : JobContext) (url : String) (error : Option GError) (removes : Bool) : JobContext :=
  let ctx := if error.any (·.code = ECOMM) then ctx.incrementErrorCountForSurl url else ctx
  if removes then ctx.removeUrl url else ctx

/-- One turn of the loop. -/
def pollUrl (outcome : Nat → Option GError → Outcome) (errors : String → Option GError) (p : Polling) (url : String) :
    Polling :=
  if p.crashed then p
  else
    let o := outcome (p.ctx.errorCount url) (errors url)
    { ctx := p.ctx.afterPoll url (errors url) o.removes
      reports := p.reports ++ o.reports (p.ctx.getIDs url)
      removed := if o.removes then p.removed ++ [url] else p.removed
      failedUrls := if o.isFailed then p.failedUrls ++ [url] else p.failedUrls
      forcePoll := p.forcePoll || o = .soft
      crashed := o = .crash }

def pollUrls (outcome : Nat → Option GError → Outcome) (errors : String → Option GError) (ctx : JobContext) : Polling :=
  ctx.getUrls.foldl (pollUrl outcome errors) { ctx }

/-- What one run of a task does: the states it gives, the URLs that it aborts, and whether it schedules another task with
the context that it leaves. -/
structure Turn (γ : Type) where
  ctx : γ
  reports : List Report := []
  aborted : List String := []
  successor : Bool := false

/-! ## Staging -/

/-- What a run of a staging task reads. -/
structure PollInput where
  now : Int
  maxPollRetries : Int
  /-- the pairs that are not canceled -/
  activeUrls : List (String × String)
  /-- the answer to the abort of those that are -/
  abort : Answer
  poll : Answer

def unsetError (operation : String) : JobError :=
  ⟨operation, -1, "Error not set by gfal2"⟩

/-- The states given when the files cannot be aborted. -/
def abortReports (ctx : JobContext) (urls : List String) (errors : String → Option GError) : List Report :=
  urls.flatMap fun url => (ctx.getIDs url).map fun id =>
    { id, state := .failed, error := some ((errors url).elim (unsetError "STAGING") (.ofGError "STAGING")) }

/-- `PollTask` and `HttpPollTask` differ in when an abort has failed and in what they decide about a URL. -/
def runStaging (abortFails : Int → Bool) (outcome : Int → Int → Nat → Option GError → Outcome) (i : PollInput)
    (ctx : StagingContext) : Turn StagingContext :=
  if ctx.hasTimeoutExpired i.now then
    { ctx
      aborted := ctx.getUrls
      reports := ctx.jobs.map fun e =>
        { id := e.id, state := .failed, error := some ⟨"STAGING", ETIMEDOUT, "bring-online timeout has been exceeded"⟩ } }
  else
    let (kept, urls) := ctx.getSurlsToAbort (ctx.getSurls.filter (· ∉ i.activeUrls))
    let reports := if abortFails i.abort.status then abortReports kept urls i.abort.errors else []
    if kept.getUrls = [] then { ctx := { ctx with toJobContext := kept }, aborted := urls, reports }
    else
      let p := pollUrls (outcome i.maxPollRetries i.poll.status) i.poll.errors kept
      { ctx := { ctx with toJobContext := p.ctx }
        aborted := urls ++ p.failedUrls
        reports := reports ++ p.reports
        successor := i.poll.status = 0 || p.forcePoll }

/-- A request to bring the files of the context online; it is polled where the answer is 0. -/
def runBringOnline (outcome : Int → Option GError → Outcome) (answer : Answer) (ctx : StagingContext) :
    Turn StagingContext :=
  if ctx.getUrls = [] then { ctx }
  else if answer.status = 0 then { ctx, successor := true }
  else
    let decide := fun url => outcome answer.status (answer.errors url)
    { ctx := { ctx with toJobContext := (ctx.getUrls.filter fun url => (decide url).removes).foldl .removeUrl ctx.toJobContext }
      reports := ctx.getUrls.flatMap fun url => (decide url).reports (ctx.getIDs url) }

namespace BringOnlineTask

def outcome (status : Int) (error : Option GError) : Outcome :=
  match error with
  | some e => .failed (.ofGError "STAGING" e) false
  | none => if status < 0 then .failed (unsetError "STAGING") false else .finished false

def run (answer : Answer) (ctx : StagingContext) : Turn StagingContext :=
  runBringOnline outcome answer ctx

end BringOnlineTask

namespace HttpBringOnlineTask

def outcome (status : Int) (error : Option GError) : Outcome :=
  match error with
  | some e =>
      if e.code ≠ EOPNOTSUPP then .failed (.ofGError "STAGING" e) false
      -- only a request that needs no poll lets the URL leave the context
      else .finished (0 < status)
  | none => if status < 0 then .failed (unsetError "STAGING") false else .finished false

def run (answer : Answer) (ctx : StagingContext) : Turn StagingContext :=
  runBringOnline outcome answer ctx

end HttpBringOnlineTask

namespace PollTask

def outcome (maxPollRetries status : Int) (tries : Nat) (error : Option GError) : Outcome :=
  if status < 0 then
    if isSoft maxPollRetries tries error then .soft
    else .failed (error.elim (unsetError "STAGING") (.ofGError "STAGING")) false
  else
    match error with
    | none => .finished true
    | some e =>
        if e.code = EAGAIN then .pending
        else if isSoft maxPollRetries tries error then .soft
        else .failed (.ofGError "STAGING" e) true

def run (i : PollInput) (ctx : StagingContext) : Turn StagingContext :=
  runStaging (fun status => status < 0) outcome i ctx

end PollTask

namespace HttpPollTask

def outcome (maxPollRetries status : Int) (tries : Nat) (error : Option GError) : Outcome :=
  if status < 0 then
    if isSoft maxPollRetries tries error then .soft
    else
      match error with
      | some e => if e.code ≠ EOPNOTSUPP then .failed (.ofGError "STAGING" e) false else .finished false
      | none => .failed (unsetError "STAGING") false
  else
    match error with
    | none => .finished true
    | some e =>
        if e.code = EAGAIN then .pending
        else if isSoft maxPollRetries tries error then .soft
        else if e.code = EOPNOTSUPP then .finished true
        else .failed (.ofGError "STAGING" e) true

def run (i : PollInput) (ctx : StagingContext) : Turn StagingContext :=
  runStaging (fun status => status ≠ 0) outcome i ctx

end HttpPollTask

/-! ## Archiving -/

namespace ArchivingPollTask

def outcome (maxPollRetries status : Int) (tries : Nat) (error : Option GError) : Outcome :=
  match error with
  | some e =>
      if isSoft maxPollRetries tries error then .soft
      else if e.code = EAGAIN ∧ status = 0 then .pending
      else .failed (.ofGError "ARCHIVING" e) false
  | none => if 0 ≤ status then .finished true else .crash

/-- What a run of the task reads. -/
structure Input where
  now : Int
  maxPollRetries : Int
  poll : Answer

def handleTimeouts (now : Int) (ctx : ArchivingContext) : ArchivingContext × List Report :=
  let timeouts := ctx.urlToIDs.filter fun e => ctx.hasTransferTimedOut now e.fileId
  (timeouts.foldl .removeTransfer ctx, timeouts.map fun e =>
    { id := e.id, state := .failed, error := some ⟨"ARCHIVING", ETIMEDOUT, "archive timeout has been exceeded"⟩ })

def run (i : Input) (ctx : ArchivingContext) : Turn ArchivingContext :=
  let (ctx, reports) := handleTimeouts i.now ctx
  if ctx.getUrls = [] then { ctx, reports }
  else
    let p := pollUrls (outcome i.maxPollRetries i.poll.status) i.poll.errors ctx.toJobContext
    let removed := p.removed.flatMap ctx.getIDs
    { ctx :=
        { ctx with
          toJobContext := p.ctx
          expiryMap := fun fileId => if fileId ∈ removed.map (·.2) then none else ctx.expiryMap fileId }
      reports := reports ++ p.reports
      successor := !p.crashed && (i.poll.status = 0 || p.forcePoll) }

end ArchivingPollTask

end Fts3.QosDaemon
