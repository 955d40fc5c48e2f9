import Fts3.MySql.Staging

/-!
# Sanity checks

`SanityChecks.cpp` and `MultihopSanityCheck.cpp`.
-/

namespace Fts3.MySql

open Fts3.Sql

/-! ## Non terminal jobs with all transfers terminal -/

def fixEmptyJob (jobId : String) : Op Unit := do
  let _ ← updateJob (.fixEmptyJob jobId)
  pure ()

def fixNonTerminalJob (jobId : String) (filesInJob cancelCount finishedCount failedCount : Nat) : Op Unit := do
  let failed := "One or more files failed. Please have a look at the details for more information"
  let canceledMessage := "Transfer canceled by the user"
  if 0 < cancelCount then do
    let _ ← updateJob (.fixNonTerminalJob jobId .canceled (some canceledMessage))
    pure ()
  else if filesInJob = finishedCount then do
    let _ ← updateJob (.fixNonTerminalJob jobId .finished none)
    pure ()
  else if filesInJob = failedCount then do
    let _ ← updateJob (.fixNonTerminalJob jobId .failed (some failed))
    pure ()
  else do
    let _ ← updateJob (.fixNonTerminalJob jobId .finishedDirty (some failed))
    pure ()

/-- `stateCount[name]`: the number of rows of the job whose state has the given name. -/
def stateCount (rows : List FileRow) (name : String) : Nat :=
  rows.countP fun r => r.fileState.name = name

/-- The body of the loop over the jobs, after the `SELECT` of the states of its files. The states are
looked up by name, and no state is called `CANCEL`. -/
def fixJob (jobId : String) (jobType : JobType) (jobState : JobState) (rows : List FileRow) : Op Unit :=
  let filesInJob := rows.length
  let stateCount := stateCount rows
  -- Fix empty jobs
  if filesInJob = 0 then fixEmptyJob jobId
  -- For non-multiple replica, a job is terminal if *all* files are terminal
  else if jobType ≠ .multipleReplica then
    if filesInJob = stateCount "FINISHED" + stateCount "FAILED" + stateCount "CANCEL" then
      fixNonTerminalJob jobId filesInJob (stateCount "CANCEL") (stateCount "FINISHED") (stateCount "FAILED")
    else pure ()
  -- For multiple replica jobs, a job is terminal if there is one FINISHED, or if all are FAILED/CANCEL
  else if 1 ≤ stateCount "FINISHED" then do
    let _ ← updateFile (.fixMultireplicaFinished jobId)
    let _ ← updateJob (.fixMultireplicaFinished jobId)
    pure ()
  else if filesInJob ≤ stateCount "FAILED" + stateCount "CANCEL" then do
    let _ ← updateJob (.fixMultireplicaFailed jobId)
    pure ()
  else if (jobState = .active ∨ jobState = .ready) ∧ stateCount "ACTIVE" + stateCount "SUBMITTED" = 0 then do
    let _ ← updateJob (.fixMultireplicaFailed jobId)
    pure ()
  else pure ()

def fixJobOfRow (job : JobRow) : Op Unit := do
  let rows ← select .rows fun db => db.filesOf job.jobId
  fixJob job.jobId job.type job.jobState rows

/-- Search for jobs in non terminal state for which all transfers are in terminal. -/
def fixJobNonTerminallAllFilesTerminal : Op Unit := do
  beginTx
  let notFinishedJobIds ← select .rows fun db => db.jobs.select fun j => j.jobFinished.isNone
  notFinishedJobIds.forM fixJobOfRow
  commit

/-! ## Terminal jobs with work left -/

/-- The rows of an inner join of `t_job` with a table of its files: one job id for each pair. -/
def joinJobs {ρ : Type} (db : Db) (jobs : JobRow → Bool) (jobOf : ρ → String) (rows : List ρ) : List String :=
  (db.jobs.select jobs).flatMap fun j => (rows.filter fun r => jobOf r = j.jobId).map fun _ => j.jobId

/-- Search for jobs in terminal state with files still in non terminal. -/
def fixJobTerminalFileNonTerminal : Op Unit := do
  let jobIds ← select .rows fun db => joinJobs db (fun j => j.jobFinished.isSome) FileRow.jobId
    (db.files.select fun r => r.fileState ∈ [.submitted, .active, .staging, .started])
  beginTx
  jobIds.forM fun jobId => do
    let _ ← updateFile (.fixJobTerminalFileNonTerminal jobId)
    pure ()
  commit

def fixDeleteInconsistencies : Op Unit := do
  let jobIds ← select .rows fun db =>
    joinJobs db (fun j => j.jobFinished.any fun t => db.now ≤ t + 24 * 3600) DmRow.jobId
      (db.dms.select fun r => r.fileState ∈ [.started, .delete])
  beginTx
  jobIds.forM fun jobId => do
    let _ ← updateDm (.fixDeleteInconsistencies jobId)
    pure ()
  commit

/-! ## Dead hosts and stalled operations -/

def recoverFile (node : Node) (state : FileState) (errorMessage : String) (r : FileRow) : Op Unit := do
  let _ ← updateFileTransferStatusInternal node
    { jobId := r.jobId, fileId := r.fileId, newFileState := state, errorReason := errorMessage }
  let _ ← updateJobTransferStatusInternal node r.jobId state
  pure ()

/-- Search for hosts that haven't updated their status for more than two hours. For those matches, mark
assigned transfers as CANCELED. -/
def recoverFromDeadHosts (node : Node) : Op Unit := do
  let deadHosts ← select .rows fun db => (db.hosts.filter fun h =>
    (h.beat.any fun t => t + 120 * 60 < db.now) && h.serviceName = "fts_server").map (·.hostname)
  deadHosts.forM fun deadHost => do
    let active ← select .rows fun db =>
      db.files.select fun r => r.fileState = .active && r.transferHost = some deadHost
    active.forM (recoverFile node .canceled
      ("Transfer has been forced-canceled because host " ++ deadHost ++
        " is offline and the transfer is still assigned to it"))

def recoverStalledStaging (node : Node) : Op Unit := do
  let (rows, now) ← select .rows fun db =>
    (db.files.rows.filterMap fun r =>
      if r.fileState = .started then (db.jobs.find? r.jobId).map fun j => (r, j.bringOnline) else none, db.now)
  beginTx
  rows.forM fun (r, bringOnline) =>
    if bringOnline + 800 < (now : Int) - r.stagingStart.getD 0 then do
      recoverFile node .failed ("Transfer has been forced-canceled because it has been in staging started " ++
        "state beyond its bringonline timeout") r
      let _ ← updateFile (.recoverStalledStaging r.fileId)
      pure ()
    else pure ()
  commit

def recoverStalledArchiving (node : Node) : Op Unit := do
  let (rows, now) ← select .rows fun db =>
    (db.files.rows.filterMap fun r =>
      if r.fileState = .archiving ∧ r.archiveStartTime.isSome then
        (db.jobs.find? r.jobId).map fun j => (r, j.archiveTimeout.getD 0)
      else none, db.now)
  beginTx
  rows.forM fun (r, archiveTimeout) =>
    if archiveTimeout + 800 < (now : Int) - r.archiveStartTime.getD 0 then do
      recoverFile node .failed ("Transfer has been forced-canceled because it has been in ARCHIVING " ++
        "state beyond its archive timeout") r
      let _ ← updateFile (.recoverStalledArchiving r.fileId)
      pure ()
    else pure ()
  commit

def checkSanityState (node : Node) : Op Unit := do
  if node.hashStart ≠ 0 then pure ()
  else do
    fixJobNonTerminallAllFilesTerminal
    fixJobTerminalFileNonTerminal
    fixDeleteInconsistencies
    recoverFromDeadHosts node
    recoverStalledStaging node
    recoverStalledArchiving node

/-! ## Multihop jobs with a stuck hop -/

def fixStuckHop (jobId : String) : Op Unit := do
  let lastFinishedIndex ← select .rows fun db =>
    (((db.filesOf jobId).filter fun r => r.fileState = .finished).filterMap (·.fileIndex)).max?
  match lastFinishedIndex with
  | none => pure ()
  | some lastFinishedIndex => do
      let fileState ← select .rows fun db =>
        ((db.filesOf jobId).find? fun r => r.fileIndex = some (lastFinishedIndex + 1)).map (·.fileState)
      if fileState = some .notUsed then do
        let _ ← updateFile (.fixFilesInNotUsedState jobId (lastFinishedIndex + 1))
        pure ()
      else pure ()

/-- Search for files in multihop jobs whose state is NOT_USED but previous hop is already FINISHED. -/
def fixFilesInNotUsedState : Op Unit := do
  beginTx
  let multihopJobIds ← select .rows fun db => (db.jobs.select fun j =>
    j.jobState ∈ [.submitted, .active] && j.jobType = some .multiHop).map (·.jobId)
  multihopJobIds.forM fixStuckHop
  commit

def multihopSanitySate (node : Node) : Op Unit := do
  if node.hashStart ≠ 0 then pure () else fixFilesInNotUsedState

end Fts3.MySql
