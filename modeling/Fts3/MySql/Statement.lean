import Fts3.MySql.Schema

/-!
# The write statements

One constructor for each `UPDATE`, `INSERT` and `DELETE` of `MySqlAPI.cpp`, `OptimizerDataSource.cpp`,
`SanityChecks.cpp` and `MultihopSanityCheck.cpp`, named after the function that issues it. An `UPDATE` is its `WHERE`
clause (`selects`) and its `SET` clause (`sets`, which may read the clock). Parameters bound with `soci::use` are arguments.
-/

namespace Fts3.MySql

open Fts3.Sql

/-- The values bound to the `UPDATE` of `updateFileTransferStatusInternal`. `requested` is `newFileState`
while the `SET` clauses are put together, `newState` is what it holds when the statement is executed:
`ARCHIVING` when a finished transfer is still to be archived. -/
structure StatusUpdate where
  fileId : Nat
  oldState : Option FileState
  requested : FileState
  newState : FileState
  errorReason : String := ""
  time : Nat := 0
  hostname : String := ""
  filesize : Int := 0
  duration : Rat := 0
  throughput : Rat := 0
  retry : Bool := false
  fileMetadata : String := ""
  processId : Int := 0

def StatusUpdate.sets (a : StatusUpdate) (r : FileRow) : FileRow :=
  { r with
    fileState := a.newState
    reason := some a.errorReason
    finishTime := if a.requested.terminal then some a.time else r.finishTime
    destSurlUuid := if a.requested.terminal then none else r.destSurlUuid
    startTime := if a.requested = .active ∨ a.requested = .ready then some a.time else r.startTime
    transferHost := some a.hostname
    transferred :=
      if a.requested = .finished then some a.filesize
      else if a.requested = .failed ∨ a.requested = .canceled then some 0
      else r.transferred
    stagingFinished :=
      if a.requested = .staging ∧ a.oldState = some .staging then some a.time else r.stagingFinished
    stagingStart :=
      if a.requested = .staging ∧ a.oldState ≠ some .staging then some a.time else r.stagingStart
    fileMetadata := if a.fileMetadata ≠ "" then some a.fileMetadata else r.fileMetadata
    pid := some a.processId
    filesize := some a.filesize
    txDuration := some a.duration
    throughput := some a.throughput
    currentFailures := some (if a.retry then 1 else 0) }

inductive FileUpdate where
  | useFileReplica (jobId : String) (fileId : Nat) (destSurlUuid : Option String)
  | useNextHop (fileId : Nat)
  | setNullDestSURLMultiHop (jobId : String)
  | updateFileStatusReuse (jobId : String) (status : FileState) (hostname : String)
  | updateFileTransferStatus (a : StatusUpdate)
  | cancelUnusedMultihopFiles (jobId : String)
  | updateFileTransferProgress (fileId : Nat) (throughput : Rat) (transferred : Int)
  | getCancelJob (fileId : Nat)
  | terminateReuseProcess (fileId : Nat) (message : String)
  | setPidForJob (jobId : String) (pid : Int)
  | forkFailed (jobId : String) (hostname : String)
  | cancelExpiredJobs (jobId : String) (reason : String) (multihop : Bool)
  | updateProtocol (fileId : Nat) (params : String) (filesize : Int)
  | transferLogFile (fileId : Nat) (filePath : String) (debugFile : Nat)
  | setRetryTransferStaging (fileId : Nat) (jobId : String) (retryNo : Int)
  | setRetryTransfer (fileId : Nat) (jobId : String) (retryNo : Int) (time : Nat)
  | setArchivingStartTime (jobId : String) (fileIds : List Nat)
  | updateArchivingState (fileId : Nat) (state : FileState) (reason : String)
  | updateBringOnlineToken (jobId : String) (fileIds : List Nat) (token : String)
  | updateFileStateToQosRequestSubmitted (jobId : String) (fileId : Nat) (hostname : String)
  | updateFileStateToQosTerminal (fileId : Nat) (state : FileState) (startTime finishTime : Nat)
      (duration : Rat) (transferHost : String)
  | qosTerminalReason (fileId : Nat) (reason : String)
  | getAlreadyStartedStaging (hStart hEnd : Nat)
  | stagingStarted (fileId : Nat) (hostname : String)
  | stagingSubmitted (fileId : Nat) (hashedId : Nat)
  | stagingTerminal (fileId : Nat) (state : FileState) (reason : String)
  | getArchivingFilesForCanceling (fileId : Nat)
  | getStagingFilesForCanceling (fileId : Nat)
  | updateTokenPrepFiles (fileId : Nat) (state : FileState)
  | resetForRetryStaging (fileId : Nat) (jobId : String) (retry : Int) (time : Nat)
  | fixMultireplicaFinished (jobId : String)
  | fixJobTerminalFileNonTerminal (jobId : String)
  | recoverStalledStaging (fileId : Nat)
  | recoverStalledArchiving (fileId : Nat)
  | fixFilesInNotUsedState (jobId : String) (fileIndex : Int)

namespace FileUpdate

/-- The file states that `cancelExpiredJobsForVo` cancels; the hops of a multihop job that are not yet
used stay. -/
def cancelFileStates (multihop : Bool) : List FileState :=
  if multihop then [.submitted, .staging, .onHold, .onHoldStaging]
  else [.submitted, .notUsed, .staging, .onHold, .onHoldStaging]

def selects : FileUpdate → FileRow → Bool
  | useFileReplica j f _, r => r.jobId = j && r.fileId = f && r.fileState = .notUsed
  | useNextHop f, r => r.fileId = f && r.fileState = .notUsed
  | setNullDestSURLMultiHop j, r => r.jobId = j && r.fileState = .notUsed
  | updateFileStatusReuse j _ _, r => r.jobId = j && r.fileState = .submitted
  | updateFileTransferStatus a, r => r.fileId = a.fileId && some r.fileState = a.oldState
  | cancelUnusedMultihopFiles j, r => r.jobId = j && r.fileState = .notUsed
  | updateFileTransferProgress f _ _, r => r.fileId = f
  | getCancelJob f, r => r.fileId = f
  | terminateReuseProcess f _, r => r.fileId = f
  | setPidForJob j _, r => r.jobId = j
  | forkFailed j _, r => r.jobId = j && r.fileState ∉ [.finished, .failed, .canceled]
  | cancelExpiredJobs j _ multihop, r => r.jobId = j && r.fileState ∈ cancelFileStates multihop
  | updateProtocol f _ _, r => r.fileId = f
  | transferLogFile f _ _, r => r.fileId = f
  | setRetryTransferStaging f j _, r =>
      r.fileId = f && r.jobId = j && r.fileState ∉ [.finished, .staging, .submitted, .failed, .canceled]
  | setRetryTransfer f j _ _, r =>
      r.fileId = f && r.jobId = j && r.fileState ∉ [.finished, .submitted, .failed, .canceled]
  | setArchivingStartTime j fs, r => r.jobId = j && r.fileId ∈ fs
  | updateArchivingState f _ _, r => r.fileId = f
  | updateBringOnlineToken j fs _, r => r.jobId = j && r.fileId ∈ fs
  | updateFileStateToQosRequestSubmitted j f _, r => r.jobId = j && r.fileId = f
  | updateFileStateToQosTerminal f _ _ _ _ _, r => r.fileId = f
  | qosTerminalReason f _, r => r.fileId = f
  | getAlreadyStartedStaging hStart hEnd, r =>
      r.fileState = .started && (r.bringonlineToken = some "" || r.bringonlineToken.isNone) &&
        r.startTime.isSome && r.stagingStart.isSome && hStart ≤ r.hashedId && r.hashedId ≤ hEnd
  | stagingStarted f _, r => r.fileId = f && r.fileState = .staging
  | stagingSubmitted f _, r => r.fileId = f && r.fileState ∈ [.staging, .started]
  | stagingTerminal f _ _, r => r.fileId = f && r.fileState ∈ [.staging, .started]
  | getArchivingFilesForCanceling f, r => r.fileId = f
  | getStagingFilesForCanceling f, r => r.fileId = f
  | updateTokenPrepFiles f _, r => r.fileId = f && r.fileState = .tokenPrep
  | resetForRetryStaging f j _ _, r =>
      r.fileId = f && r.jobId = j && r.fileState ∉ [.finished, .staging, .failed, .canceled]
  | fixMultireplicaFinished j, r => r.fileState ∈ [.active, .submitted] && r.jobId = j
  | fixJobTerminalFileNonTerminal j, r =>
      r.fileState ∈ [.active, .submitted, .staging, .started] && r.jobId = j
  | recoverStalledStaging f, r => r.fileId = f
  | recoverStalledArchiving f, r => r.fileId = f
  | fixFilesInNotUsedState j i, r => r.fileIndex = some i && r.jobId = j

def sets (now : Nat) : FileUpdate → FileRow → FileRow
  | useFileReplica _ _ uuid, r =>
      { r with fileState := .submitted, finishTime := none, destSurlUuid := uuid }
  | useNextHop _, r => { r with fileState := .submitted, finishTime := none }
  | setNullDestSURLMultiHop _, r => { r with destSurlUuid := none }
  | updateFileStatusReuse _ status host, r =>
      { r with fileState := status, startTime := some now, transferHost := some host }
  | updateFileTransferStatus a, r => a.sets r
  | cancelUnusedMultihopFiles _, r => { r with fileState := .canceled }
  | updateFileTransferProgress _ throughput transferred, r =>
      { r with throughput := some throughput, transferred := some transferred }
  | getCancelJob _, r => { r with finishTime := some now }
  | terminateReuseProcess _ message, r =>
      { r with fileState := .failed, finishTime := some now, destSurlUuid := none, reason := some message }
  | setPidForJob _ pid, r => { r with pid := some pid }
  | forkFailed _ host, r =>
      { r with
        fileState := .failed, transferHost := some host, destSurlUuid := none, finishTime := some now,
        reason := some "Transfer failed to fork, check fts3server.log for more details" }
  | cancelExpiredJobs _ reason _, r =>
      { r with finishTime := some now, destSurlUuid := none, fileState := .canceled, reason := some reason }
  | updateProtocol _ params filesize, r =>
      { r with internalFileParams := some params, filesize := some filesize }
  | transferLogFile _ filePath debugFile, r =>
      { r with logFile := some filePath, logFileDebug := some debugFile }
  | setRetryTransferStaging _ _ retryNo, r =>
      { r with
        retry := some retryNo, currentFailures := some 0, fileState := .staging, filesize := some 0,
        internalFileParams := none, transferHost := none, pid := none, startTime := none,
        stagingStart := none, stagingFinished := none }
  | setRetryTransfer _ _ retryNo time, r =>
      { r with
        retry := some retryNo, retryTimestamp := some time, fileState := .submitted, throughput := some 0,
        currentFailures := some 1, startTime := none, transferHost := none, logFile := none,
        logFileDebug := none }
  | setArchivingStartTime _ _, r => { r with archiveStartTime := some now }
  | updateArchivingState _ state reason, r =>
      { r with archiveFinishTime := some now, fileState := state, reason := some reason }
  | updateBringOnlineToken _ _ token, r => { r with bringonlineToken := some token }
  | updateFileStateToQosRequestSubmitted _ _ host, r =>
      { r with fileState := .qosRequestSubmitted, startTime := some now, transferHost := some host }
  | updateFileStateToQosTerminal _ state startTime finishTime duration host, r =>
      { r with
        fileState := state, startTime := some startTime, finishTime := some finishTime,
        txDuration := some duration, transferHost := some host }
  | qosTerminalReason _ reason, r => { r with reason := some reason }
  | getAlreadyStartedStaging _ _, r =>
      { r with startTime := none, stagingStart := none, transferHost := none, fileState := .staging }
  | stagingStarted _ host, r =>
      { r with
        startTime := some now, stagingStart := some now, stagingHost := some host,
        transferHost := some host, fileState := .started }
  | stagingSubmitted _ hashedId, r =>
      { r with
        hashedId := hashedId, stagingFinished := some now, finishTime := none, startTime := none,
        transferHost := none, reason := some "", fileState := .submitted }
  | stagingTerminal _ state reason, r =>
      { r with
        finishTime := some now, stagingFinished := some now, reason := some reason, fileState := state,
        destSurlUuid := none }
  | getArchivingFilesForCanceling _, r => { r with archiveFinishTime := some now }
  | getStagingFilesForCanceling _, r => { r with finishTime := some now, stagingFinished := some now }
  | updateTokenPrepFiles _ state, r => { r with fileState := state }
  | resetForRetryStaging _ _ retry time, r =>
      { r with
        retryTimestamp := some time, retry := some retry, fileState := .staging, startTime := none,
        stagingStart := none, transferHost := none, logFile := none, logFileDebug := none,
        throughput := some 0, currentFailures := some 1 }
  | fixMultireplicaFinished _, r =>
      { r with fileState := .notUsed, finishTime := none, destSurlUuid := none, reason := some "" }
  | fixJobTerminalFileNonTerminal _, r =>
      { r with
        fileState := .failed, finishTime := some now, destSurlUuid := none,
        reason := some "Force failure due to file state inconsistency" }
  | recoverStalledStaging _, r => { r with stagingFinished := some now, destSurlUuid := none }
  | recoverStalledArchiving _, r => { r with archiveFinishTime := some now, destSurlUuid := none }
  | fixFilesInNotUsedState _ _, r => { r with fileState := .submitted }

end FileUpdate

inductive JobUpdate where
  | updateFileStatusReuse (jobId : String) (status : JobState)
  | terminate (jobId : String) (state : JobState) (reason : String) (sourceSe : Option String)
  | activate (jobId : String) (state : JobState)
  | setState (jobId : String) (state : JobState)
  | setArchiving (jobId : String)
  | forkFailed (jobId : String)
  | setRetryTransfer (jobId : String)
  | deletionsTerminal (jobId : String) (state : JobState) (reason : Option String)
  | deletionsActive (jobId : String)
  | updateFileStateToQosTerminal (jobId : String) (state : JobState) (finishTime : Nat)
  | fixEmptyJob (jobId : String)
  | fixNonTerminalJob (jobId : String) (state : JobState) (reason : Option String)
  | fixMultireplicaFinished (jobId : String)
  | fixMultireplicaFailed (jobId : String)

namespace JobUpdate

def selects : JobUpdate → JobRow → Bool
  | updateFileStatusReuse j _, r => r.jobId = j && r.jobState = .submitted
  | terminate j _ _ _, r => r.jobId = j && r.jobState ∉ [.failed, .finishedDirty, .canceled, .finished]
  | activate j _, r => r.jobId = j && r.jobState ∉ [.active, .finishedDirty, .canceled, .finished, .failed]
  | setState j _, r => r.jobId = j && r.jobState ∉ [.finishedDirty, .canceled, .finished, .failed]
  | setArchiving j, r => r.jobId = j && r.jobState ∉ [.failed, .finishedDirty, .canceled, .finished]
  | forkFailed j, r => r.jobId = j
  | setRetryTransfer j, r =>
      r.jobId = j && r.jobType = some .sessionReuse &&
        r.jobState ∉ [.finishedDirty, .failed, .canceled, .finished]
  | deletionsTerminal j _ _, r => r.jobId = j
  | deletionsActive j, r => r.jobId = j
  | updateFileStateToQosTerminal j _ _, r => r.jobId = j
  | fixEmptyJob j, r => r.jobId = j
  | fixNonTerminalJob j state _, r => r.jobId = j && r.jobState ≠ state
  | fixMultireplicaFinished j, r => r.jobId = j
  | fixMultireplicaFailed j, r => r.jobId = j

def sets (now : Nat) : JobUpdate → JobRow → JobRow
  | updateFileStatusReuse _ status, r => { r with jobState := status }
  | terminate _ state reason sourceSe, r =>
      { r with
        jobState := state, jobFinished := some now, reason := some reason,
        sourceSe := sourceSe.getD r.sourceSe }
  | activate _ state, r => { r with jobState := state }
  | setState _ state, r => { r with jobState := state }
  | setArchiving _, r => { r with jobState := .archiving }
  | forkFailed _, r =>
      { r with
        jobState := .failed, jobFinished := some now,
        reason := some "Transfer failed to fork, check fts3server.log for more details" }
  | setRetryTransfer _, r => { r with jobState := .active }
  | deletionsTerminal _ state reason, r =>
      { r with jobState := state, jobFinished := some now, reason := reason.or r.reason }
  | deletionsActive _, r => { r with jobState := .active }
  | updateFileStateToQosTerminal _ state finishTime, r =>
      { r with jobState := state, jobFinished := some finishTime }
  | fixEmptyJob _, r =>
      { r with jobFinished := some now, jobState := .canceled, reason := some "The job was empty" }
  | fixNonTerminalJob _ state reason, r =>
      { r with jobState := state, jobFinished := some now, reason := reason.or r.reason }
  | fixMultireplicaFinished _, r => { r with jobState := .finished, jobFinished := some now }
  | fixMultireplicaFailed _, r =>
      { r with jobState := .failed, jobFinished := some now, reason := some "Inconsistent state found" }

end JobUpdate

/-- The `UPDATE` statements on `t_dm`. `resetForRetryDelete` is written twice in the source, with two
lists of excluded states. -/
inductive DmUpdate where
  | deletionStarted (fileId : Nat) (hostname : String)
  | deletionTerminal (fileId : Nat) (state : DmState) (reason : String)
  | resetForRetryDelete (fileId : Nat) (jobId : String) (retry : Int) (time : Nat) (excluded : List String)
  | requeueStartedDeletes (hStart hEnd : Nat)
  | fixDeleteInconsistencies (jobId : String)

namespace DmUpdate

def selects : DmUpdate → DmRow → Bool
  | deletionStarted f _, r => r.fileId = f
  | deletionTerminal f _ _, r => r.fileId = f
  | resetForRetryDelete f j _ _ excluded, r =>
      r.fileId = f && r.jobId = j && r.fileState.name ∉ excluded
  | requeueStartedDeletes hStart hEnd, r =>
      r.fileState = .started && hStart ≤ r.hashedId && r.hashedId ≤ hEnd
  | fixDeleteInconsistencies j, r => r.fileState ∈ [.delete, .started] && r.jobId = j

def sets (now : Nat) : DmUpdate → DmRow → DmRow
  | deletionStarted _ host, r =>
      { r with startTime := some now, dmHost := some host, fileState := .started }
  | deletionTerminal _ state reason, r =>
      { r with
        jobFinished := some now, finishTime := some now, reason := some reason, fileState := state }
  | resetForRetryDelete _ _ retry time _, r =>
      { r with
        retryTimestamp := some time, retry := some retry, fileState := .delete, startTime := none,
        dmHost := none }
  | requeueStartedDeletes _ _, r => { r with fileState := .delete, startTime := none }
  | fixDeleteInconsistencies _, r =>
      { r with
        fileState := .failed, jobFinished := some now, finishTime := some now,
        reason := some "Force failure due to file state inconsistency" }

end DmUpdate

inductive TokenUpdate where
  | storeExchangedToken (tokenId accessToken refreshToken : String)
  | markFailedTokenExchange (tokenId : String) (retryTimestamp : Nat) (retryDelay attempts : Int)
      (exchangeError : String)

namespace TokenUpdate

def selects : TokenUpdate → TokenRow → Bool
  | storeExchangedToken t _ _, r => r.tokenId = t
  | markFailedTokenExchange t _ _ _ _, r => r.tokenId = t

def sets : TokenUpdate → TokenRow → TokenRow
  | storeExchangedToken _ accessToken refreshToken, r =>
      { r with accessToken := accessToken, refreshToken := some refreshToken, exchangeMessage := none }
  | markFailedTokenExchange _ retryTimestamp retryDelay attempts exchangeError, r =>
      { r with
        retryTimestamp := some retryTimestamp, retryDelayM := retryDelay, attempts := attempts
        exchangeMessage := some exchangeError }

end TokenUpdate

inductive OptimizerUpdate where
  | setNewOptimizerValue (source dest : String) (active : Int) (ema : Rat)
  | updateOptimizerEvolution (row : EvolutionRow)
  | storeOptimizerStreams (source dest : String) (nostreams : Int)
  | deleteOldEvolution (days : Int)

theorem FileUpdate.sets_fileId (u : FileUpdate) (now : Nat) (r : FileRow) :
    (u.sets now r).fileId = r.fileId := by
  cases u <;> rfl

theorem JobUpdate.sets_jobId (u : JobUpdate) (now : Nat) (r : JobRow) :
    (u.sets now r).jobId = r.jobId := by
  cases u <;> rfl

theorem DmUpdate.sets_fileId (u : DmUpdate) (now : Nat) (r : DmRow) :
    (u.sets now r).fileId = r.fileId := by
  cases u <;> rfl

theorem TokenUpdate.sets_tokenId (u : TokenUpdate) (r : TokenRow) : (u.sets r).tokenId = r.tokenId := by
  cases u <;> rfl

inductive Stmt where
  | file (u : FileUpdate)
  | job (u : JobUpdate)
  | dm (u : DmUpdate)
  | insertRetryError (row : RetryErrorRow)
  | insertJobBackup (jobIds : List String)
  | insertFileBackup (jobIds : List String)
  | deleteFiles (jobIds : List String)
  | deleteDms (jobIds : List String)
  | deleteJobs (jobIds : List String)
  | updateBeat (hostname serviceName : String)
  | deleteOldHosts
  | token (u : TokenUpdate)
  | optimizer (u : OptimizerUpdate)
  | deleteOldRetryErrors (days : Int)
  | tick (seconds : Nat)

/-- `INSERT IGNORE`: a row whose key is already there is not inserted. -/
def insertIgnore (t : Table RetryErrorRow.key) (row : RetryErrorRow) : Table RetryErrorRow.key :=
  if h : row.key ∈ t.rows.map RetryErrorRow.key then t
  else
    { rows := row :: t.rows
      nodup := by
        rw [List.map_cons, List.nodup_cons]
        exact ⟨h, t.nodup⟩ }

/-- `INSERT INTO t_hosts ... ON DUPLICATE KEY UPDATE beat = UTC_TIMESTAMP()`. -/
def upsertBeat (hostname serviceName : String) (now : Nat) (hosts : List HostRow) : List HostRow :=
  if hosts.any fun h => h.hostname = hostname && h.serviceName = serviceName then
    hosts.map fun h => if h.hostname = hostname ∧ h.serviceName = serviceName then { h with beat := some now } else h
  else { hostname, serviceName, beat := some now } :: hosts

/-- The rows that the lead node deletes: silent for two hours, or for 15 days while draining. -/
def HostRow.isOld (now : Nat) (h : HostRow) : Bool :=
  h.beat.any fun t => (t + 120 * 60 ≤ now && h.drain = some 0) || t + 15 * 24 * 3600 ≤ now

/-- `datetime < UTC_TIMESTAMP() - INTERVAL :days DAY`. -/
def olderThan (days : Int) (now time : Nat) : Bool :=
  time + days * 86400 < now

/-- `INSERT INTO t_optimizer ... ON DUPLICATE KEY UPDATE`. -/
def upsertOptimizer (source dest : String) (active : Int) (ema : Rat) (now : Nat) (rows : List OptimizerRow) :
    List OptimizerRow :=
  if rows.any fun r => r.sourceSe = source && r.destSe = dest then
    rows.map fun r =>
      if r.sourceSe = source ∧ r.destSe = dest then { r with active := some active, ema := some ema, datetime := now }
      else r
  else { sourceSe := source, destSe := dest, active := some active, ema := some ema, datetime := now } :: rows

namespace OptimizerUpdate

/-- What becomes of `t_optimizer`. -/
def optimizer (now : Nat) : OptimizerUpdate → List OptimizerRow → List OptimizerRow
  | setNewOptimizerValue source dest active ema, rows => upsertOptimizer source dest active ema now rows
  | storeOptimizerStreams source dest nostreams, rows =>
      rows.map fun r =>
        if r.sourceSe = source ∧ r.destSe = dest then { r with nostreams := some nostreams, datetime := now } else r
  | _, rows => rows

/-- What becomes of `t_optimizer_evolution`. -/
def evolution (now : Nat) : OptimizerUpdate → List EvolutionRow → List EvolutionRow
  | updateOptimizerEvolution row, rows => { row with datetime := now } :: rows
  | deleteOldEvolution days, rows => rows.filter fun r => !olderThan days now r.datetime
  | _, rows => rows

def affected (db : Db) : OptimizerUpdate → Nat
  | storeOptimizerStreams source dest _ => db.optimizer.countP fun r => r.sourceSe = source && r.destSe = dest
  | deleteOldEvolution days => db.optimizerEvolution.countP fun r => olderThan days db.now r.datetime
  | _ => 1

end OptimizerUpdate

/-- Execute a write statement. The number of affected rows is the number of rows that the `WHERE` clause
matched. -/
def Stmt.exec : Stmt → Db → Nat × Db
  | .file u, db =>
      (db.files.matched u.selects,
        { db with files := db.files.update u.selects (u.sets db.now) (u.sets_fileId db.now) })
  | .job u, db =>
      (db.jobs.matched u.selects,
        { db with jobs := db.jobs.update u.selects (u.sets db.now) (u.sets_jobId db.now) })
  | .dm u, db =>
      (db.dms.matched u.selects,
        { db with dms := db.dms.update u.selects (u.sets db.now) (u.sets_fileId db.now) })
  | .insertRetryError row, db =>
      (0, { db with retryErrors := insertIgnore db.retryErrors { row with datetime := db.now } })
  | .insertJobBackup ids, db =>
      (0, { db with jobBackup := db.jobBackup ++ db.jobs.select fun r => r.jobId ∈ ids })
  | .insertFileBackup ids, db =>
      (0, { db with fileBackup := db.fileBackup ++ db.files.select fun r => r.jobId ∈ ids })
  | .deleteFiles ids, db =>
      (db.files.matched fun r => r.jobId ∈ ids, { db with files := db.files.delete fun r => r.jobId ∈ ids })
  | .deleteDms ids, db =>
      (db.dms.matched fun r => r.jobId ∈ ids, { db with dms := db.dms.delete fun r => r.jobId ∈ ids })
  | .deleteJobs ids, db =>
      (db.jobs.matched fun r => r.jobId ∈ ids, { db with jobs := db.jobs.delete fun r => r.jobId ∈ ids })
  | .updateBeat host service, db => (1, { db with hosts := upsertBeat host service db.now db.hosts })
  | .deleteOldHosts, db =>
      (db.hosts.countP (·.isOld db.now), { db with hosts := db.hosts.filter fun h => !h.isOld db.now })
  | .token u, db =>
      (db.tokens.matched u.selects, { db with tokens := db.tokens.update u.selects u.sets u.sets_tokenId })
  | .optimizer u, db =>
      (u.affected db,
        { db with
          optimizer := u.optimizer db.now db.optimizer
          optimizerEvolution := u.evolution db.now db.optimizerEvolution })
  | .deleteOldRetryErrors days, db =>
      (db.retryErrors.matched fun r => olderThan days db.now r.datetime,
        { db with retryErrors := db.retryErrors.delete fun r => olderThan days db.now r.datetime })
  | .tick d, db => (0, { db with now := db.now + d })

end Fts3.MySql
