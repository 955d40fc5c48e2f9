import Fts3.MySql.Transfers

/-!
# Staging, archiving, deletions and QoS transitions

`MySqlAPI.cpp`: what the bring online, archive monitoring, deletion, QoS and token services write.
-/

namespace Fts3.MySql

open Fts3.Sql

structure MinFileStatus (S : Type) where
  jobId : String
  fileId : Nat
  state : S
  reason : String := ""
  retry : Bool := false

/-! ## Retries -/

/-- The number of retries of a job, and its retry delay: without one of its own the job has that of its
VO. -/
def jobRetries (jobId : String) : Op (Option Int × Int) := do
  let (nRetries, voName, retryDelay) ← select .rows fun db =>
    match db.jobs.find? jobId with
    | none => (some 0, "", 0)
    | some j => (j.retry, j.voName, j.retryDelay)
  let nRetries ←
    if (nRetries.all fun n => n ≤ 0) then
      select .rows fun db =>
        match db.serverConfig.find? fun c => c.voName = some voName with
        | none => nRetries
        | some c => c.retry
    else pure nRetries
  pure (nRetries, retryDelay)

def retryLeft (nRetries nRetriesTimes : Option Int) : Bool :=
  match nRetries, nRetriesTimes with
  | some n, some times => 0 < n && times ≤ n - 1
  | _, _ => false

def resetForRetryStaging (fileId : Nat) (jobId : String) (retry : Bool) : Op (Option Int) :=
  if retry then do
    let (nRetries, retryDelay) ← jobRetries jobId
    let (nRetriesTimes, now) ← select .rows fun db =>
      match (db.files.find? fileId).filter fun r => r.jobId = jobId with
      | none => (some 0, db.now)
      | some r => (r.retry, db.now)
    if retryLeft nRetries nRetriesTimes then do
      let times := nRetriesTimes.getD 0 + 1
      -- `begin` inside the transaction of the caller
      beginTx
      let _ ← updateFile (.resetForRetryStaging fileId jobId times (retryTime retryDelay now))
      commit
      pure (some times)
    else pure none
  else pure none

/-- `resetForRetryDelete`: whether the deletion is tried again. The retry that is stored is the number of
retries of the job plus one. -/
def resetForRetryDelete (fileId : Nat) (jobId : String) (retry : Bool) : Op Bool :=
  if retry then do
    let (nRetries, retryDelay) ← jobRetries jobId
    let (nRetriesTimes, now) ← select .rows fun db =>
      match (db.dms.find? fileId).filter fun r => r.jobId = jobId with
      | none => (some 0, db.now)
      | some r => (r.retry, db.now)
    if retryLeft nRetries nRetriesTimes then do
      let excluded :=
        if 0 < retryDelay then ["FINISHED", "DELETE", "FAILED", "CANCELED"]
        else ["FINISHED", "SUBMITTED", "FAILED", "CANCELED"]
      beginTx
      let _ ← updateDm (.resetForRetryDelete fileId jobId (nRetries.getD 0 + 1) (retryTime retryDelay now)
        excluded)
      commit
      pure true
    else pure false
  else pure false

/-! ## Archiving -/

def setArchivingStartTime (jobs : List (String × List Nat)) : Op Unit := do
  beginTx
  jobs.forM fun j => do
    let _ ← updateFile (.setArchivingStartTime j.1 j.2)
    pure ()
  commit

def updateArchivingStateInternal (node : Node) (archivingOpStatus : List (MinFileStatus FileState)) :
    Op Unit := do
  beginTx
  archivingOpStatus.forM fun i => do
    let _ ← updateFile (.updateArchivingState i.fileId i.state i.reason)
    pure ()
  commit
  archivingOpStatus.forM fun i => do
    let _ ← updateJobTransferStatusInternal node i.jobId i.state
    pure ()

def getArchivingFilesForCanceling (node : Node) : Op (List (String × String)) := do
  let rows ← select .rows fun db => db.files.select fun r =>
    r.fileState = .canceled && r.archiveFinishTime.isNone && r.transferHost = some node.hostname &&
      r.archiveStartTime.isSome
  beginTx
  rows.forM fun r => do
    let _ ← updateFile (.getArchivingFilesForCanceling r.fileId)
    pure ()
  commit
  pure (rows.map fun r => (r.jobId, r.sourceSurl.getD ""))

/-! ## Staging -/

def updateBringOnlineToken (jobs : List (String × List Nat)) (token : String) : Op Unit := do
  beginTx
  jobs.forM fun j => do
    let _ ← updateFile (.updateBringOnlineToken j.1 j.2 token)
    pure ()
  commit

/-- `getAlreadyStartedStaging`: the staging requests without a token start again; the others are
returned. -/
def getAlreadyStartedStaging (node : Node) : Op (List FileRow) := do
  beginTx
  let _ ← updateFile (.getAlreadyStartedStaging node.hashStart node.hashEnd)
  commit
  select .rows fun db => db.files.select fun r =>
    (db.jobs.find? r.jobId).any (fun j => 0 ≤ j.bringOnline || 0 ≤ j.copyPinLifetime) &&
      r.startTime.isSome && r.fileState = .started && node.hashStart ≤ r.hashedId && r.hashedId ≤ node.hashEnd

def stagingFailed (i : MinFileStatus FileState) : Op Unit := do
  let times ← resetForRetryStaging i.fileId i.jobId i.retry
  match times with
  | some times =>
      if 0 < times then do
        let _ ← execute (.insertRetryError { fileId := i.fileId, attempt := times, reason := i.reason })
        pure ()
      else pure ()
  | none => do
      let _ ← updateFile (.stagingTerminal i.fileId i.state i.reason)
      pure ()

/-- A staging request that ended otherwise: with its source as destination it is stage-in only, else the
transfer follows. -/
def stagingEnded (node : Node) (i : MinFileStatus FileState) (hashedId : Nat) : Op Unit := do
  let stageInOnly ← select .rows fun db => db.files.matched fun r =>
    r.fileId = i.fileId && r.sourceSurl.isSome && r.sourceSurl = r.destSurl
  let dbReason := if i.state = .finished then "" else i.reason
  let dbState := if stageInOnly = 0 ∧ i.state = .finished then .submitted else i.state
  if stageInOnly = 0 then pure ()
  else do
    let jobType ← select .rows fun db => ((db.jobs.find? i.jobId).map (·.type)).getD node.uninitialized
    -- Trigger next hop after stage-in only operation
    if dbState = .finished ∧ jobType = .multiHop then useNextHop i.jobId else pure ()
  if dbState = .submitted then do
    let _ ← updateFile (.stagingSubmitted i.fileId hashedId)
    pure ()
  else do
    let _ ← updateFile (.stagingTerminal i.fileId dbState dbReason)
    pure ()

/-- `updateStagingState`, each status with the hashed id that `getHashedId` draws for it. -/
def updateStagingStateInternal (node : Node) (stagingOpsStatus : List (MinFileStatus FileState × Nat)) :
    Op Unit := do
  beginTx
  stagingOpsStatus.forM fun (i, hashedId) =>
    match i.state with
    | .started => do
        let _ ← updateFile (.stagingStarted i.fileId node.hostname)
        pure ()
    | .failed => stagingFailed i
    | _ => stagingEnded node i hashedId
  commit
  stagingOpsStatus.forM fun (i, _) => do
    let _ ← updateJobTransferStatusInternal node i.jobId
      (if i.state = .submitted then .active else i.state)
    pure ()

def getStagingFilesForCanceling (node : Node) : Op (List (String × String)) := do
  let rows ← select .rows fun db => db.files.select fun r =>
    r.fileState = .canceled && r.stagingFinished.isNone && r.transferHost = some node.hostname &&
      r.stagingStart.isSome
  beginTx
  rows.forM fun r => do
    let _ ← updateFile (.getStagingFilesForCanceling r.fileId)
    pure ()
  commit
  pure (rows.map fun r => (r.jobId, r.sourceSurl.getD ""))

/-! ## Deletions -/

structure DmCounts where
  finished : Nat
  failed : Nat
  started : Nat
  canceled : Nat
  delete : Nat

namespace DmCounts

/-- `SELECT file_state, COUNT(file_state) FROM t_dm ... GROUP BY file_state`. -/
def ofRows (rows : List DmRow) : DmCounts where
  finished := rows.countP fun r => r.fileState = .finished
  failed := rows.countP fun r => r.fileState = .failed
  started := rows.countP fun r => r.fileState = .started
  canceled := rows.countP fun r => r.fileState = .canceled
  delete := rows.countP fun r => r.fileState = .delete

def inJob (n : DmCounts) : Nat := n.finished + n.failed + n.started + n.canceled + n.delete

def terminal (n : DmCounts) : Nat := n.finished + n.failed + n.canceled

end DmCounts

def storeDeletion (node : Node) (i : MinFileStatus DmState) : Op Unit := do
  match i.state with
  | .started => do
      let _ ← updateDm (.deletionStarted i.fileId node.hostname)
      pure ()
  | .failed => do
      let shouldBeRetried ← resetForRetryDelete i.fileId i.jobId i.retry
      if shouldBeRetried then pure ()
      else do
        let _ ← updateDm (.deletionTerminal i.fileId i.state i.reason)
        pure ()
  | _ => do
      let _ ← updateDm (.deletionTerminal i.fileId i.state i.reason)
      pure ()

def storeDeletionJob (jobId : String) : Op Unit := do
  let n ← select .rows fun db => DmCounts.ofRows (db.dmsOf jobId)
  let terminate (state : JobState) (reason : Option String) : Op Unit := do
    let _ ← updateJob (.deletionsTerminal jobId state reason)
    pure ()
  if n.inJob = n.finished then terminate .finished none
  else if n.inJob = n.failed then terminate .failed (some "Job failed, check files for more details")
  else if n.inJob = n.canceled then terminate .canceled (some "Job failed, check files for more details")
  else if 1 ≤ n.started ∧ 1 ≤ n.delete then do
    let jobState ← select .rows fun db => db.jobState? jobId
    if jobState = some .active then pure ()
    else do
      let _ ← updateJob (.deletionsActive jobId)
      pure ()
  else if n.inJob = n.terminal ∧ n.canceled = 0 ∧ 0 < n.failed then
    terminate .finishedDirty (some "Job failed, check files for more details")
  else if n.inJob = n.terminal ∧ 1 ≤ n.canceled then
    terminate .canceled (some "Job canceled, check files for more details")
  else pure ()

def distinct : List String → List String
  | [] => []
  | j :: js => j :: (distinct js).filter (· ≠ j)

def updateDeletionsStateInternal (node : Node) (delOpsStatus : List (MinFileStatus DmState)) : Op Unit := do
  beginTx
  delOpsStatus.forM (storeDeletion node)
  commit
  beginTx
  -- prevent multiple times of updating the same job id
  (distinct (delOpsStatus.map (·.jobId))).forM storeDeletionJob
  commit

def requeueStartedDeletes (node : Node) : Op Unit := do
  beginTx
  let _ ← updateDm (.requeueStartedDeletes node.hashStart node.hashEnd)
  commit

/-! ## QoS transitions -/

/-- The file is read and written in two statements, the second without a condition on the state. -/
def updateFileStateToQosRequestSubmitted (node : Node) (jobId : String) (fileId : Nat) : Op Bool := do
  beginTx
  let storedState ← select (.storedState fileId) fun db =>
    ((db.files.find? fileId).filter fun r => r.jobId = jobId).map (·.fileState)
  if storedState ≠ some .qosTransition then do
    rollback
    pure false
  else do
    let _ ← updateFile (.updateFileStateToQosRequestSubmitted jobId fileId node.hostname)
    commit
    pure true

def qosJobState (rows : List FileRow) : Option JobState :=
  let numberFilesFinished := rows.countP fun r => r.fileState = .finished
  let numberFilesFailed := rows.countP fun r => r.fileState = .failed
  if rows.length = numberFilesFinished then some .finished
  else if rows.length = numberFilesFailed then some .failed
  else if rows.length = numberFilesFinished + numberFilesFailed ∧ 0 < numberFilesFailed then
    some .finishedDirty
  else none

def storeQosJob (jobId : String) (finishTime : Nat) : Op Unit := do
  let jobState ← select .rows fun db => qosJobState (db.filesOf jobId)
  match jobState with
  | some st => do
      let _ ← updateJob (.updateFileStateToQosTerminal jobId st finishTime)
      pure ()
  | none => pure ()

def updateFileStateToQosTerminal (node : Node) (jobId : String) (fileId : Nat) (fileState : FileState)
    (reason : String) : Op Unit := do
  beginTx
  let (startTime, finishTime, transferHost) ← select .rows fun db =>
    match db.files.find? fileId with
    | none => (db.now, db.now, "")
    | some r => (r.startTime.getD db.now, db.now, r.transferHost.getD node.hostname)
  let _ ← updateFile (.updateFileStateToQosTerminal fileId fileState startTime finishTime
    ((finishTime : Rat) - startTime) transferHost)
  if fileState = .failed ∧ reason ≠ "" then do
    let _ ← updateFile (.qosTerminalReason fileId reason)
    pure ()
  else pure ()
  storeQosJob jobId finishTime
  commit

/-! ## Tokens and logs -/

structure ExchangedToken where
  tokenId : String
  accessToken : String
  refreshToken : String
  previousAccessToken : String

def storeExchangedToken (t : ExchangedToken) : Op Unit := do
  let accessToken := if t.accessToken = "" then t.previousAccessToken else t.accessToken
  let _ ← execute (.token (.storeExchangedToken t.tokenId accessToken t.refreshToken))
  pure ()

def storeExchangedTokens (exchangedTokens : List ExchangedToken) : Op Unit := do
  beginTx
  exchangedTokens.forM storeExchangedToken
  commit

/-- The next retry of a token exchange: its delay in minutes, which does not exceed one day, and how many attempts have
failed. Without a row the `UPDATE` that follows matches nothing. -/
def nextExchange (tokenId : String) (db : Db) : Int × Int :=
  match db.tokens.find? tokenId with
  | none => (10, 1)
  | some t =>
      -- This is the first token-exchange failed attempt
      if t.retryTimestamp.isNone then (10, 1)
      else (min (t.retryDelayM * 6) 1440, t.attempts + 1)

def markFailedTokenExchangeOf (e : String × String) : Op Unit := do
  let ((retryDelay, attempts), now) ← select .rows fun db => (nextExchange e.1 db, db.now)
  beginTx
  let _ ← execute (.token (.markFailedTokenExchange e.1 (now + retryDelay.toNat * 60) retryDelay attempts e.2))
  commit

def markFailedTokenExchange (failedExchanges : List (String × String)) : Op Unit :=
  failedExchanges.forM markFailedTokenExchangeOf

def failTransferWithFailedTokenExchange (node : Node) (message : String) (r : FileRow) : Op Unit := do
  let reason :=
    if r.srcTokenId.getD "" ≠ "" then "Failed to get refresh token for source token: " ++ message
    else "Failed to get refresh token for destination token: " ++ message
  let _ ← updateFileTransferStatusInternal node
    { jobId := r.jobId, fileId := r.fileId, newFileState := .failed, errorReason := reason }
  let _ ← updateJobTransferStatusInternal node r.jobId .failed
  pure ()

def failTransfersWithFailedTokenExchange (node : Node) (failedExchanges : List (String × String)) : Op Unit :=
  failedExchanges.forM fun (tokenId, message) => do
    let rows ← select .rows fun db => db.files.select fun r =>
      r.fileState = .tokenPrep && (r.srcTokenId = some tokenId || r.dstTokenId = some tokenId)
    rows.forM (failTransferWithFailedTokenExchange node message)

/-- The files of `updateTokenPrepFiles`, each with its initial state. A name that is not in the enumeration
of `file_state` raises an exception, and the rest is not updated. -/
def storeInitialStates : List (Nat × String) → Op Unit
  | [] => commit
  | (fileId, fileState) :: files =>
      match FileState.ofName? fileState with
      | none => pure ()
      | some st => do
          let _ ← updateFile (.updateTokenPrepFiles fileId st)
          storeInitialStates files

def Db.refreshed (db : Db) (tokenId : Option String) : Bool :=
  (tokenId.bind db.tokens.find?).any fun t => t.refreshToken.isSome

/-- The files that wait for their tokens no longer, each with its initial state. -/
def Db.tokenPrepFiles (db : Db) : List (Nat × String) :=
  (db.files.select fun r => r.fileState = .tokenPrep && db.refreshed r.srcTokenId &&
    db.refreshed r.dstTokenId).map fun r =>
      (r.fileId, if r.fileStateInitial.getD "" = "" then "SUBMITTED" else r.fileStateInitial.getD "")

def updateTokenPrepFiles : Op Unit := do
  let files ← select .rows Db.tokenPrepFiles
  beginTx
  storeInitialStates files

structure MessageLog where
  fileId : Nat
  logPath : String
  hasDebugFile : Bool

def storeLogFiles : List MessageLog → Op (List MessageLog)
  | [] => pure []
  | m :: messagesLog => do
      let affected ← updateFile (.transferLogFile m.fileId m.logPath (if m.hasDebugFile then 1 else 0))
      let left ← storeLogFiles messagesLog
      pure (if 0 < affected then left else m :: left)

/-- `transferLogFileVector`: the messages that no row took are kept. -/
def transferLogFileVector (messagesLog : List MessageLog) : Op (List MessageLog) := do
  beginTx
  let left ← storeLogFiles messagesLog
  commit
  pure left

end Fts3.MySql
