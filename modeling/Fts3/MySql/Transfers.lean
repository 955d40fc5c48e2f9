import Fts3.MySql.Op

/-!
# Transfer operations

`MySqlAPI.cpp`: the status of files and jobs, the next replica or hop, session reuse, retries and the
queue timeouts.
-/

namespace Fts3.MySql

open Fts3.Sql

/-! ## The next replica and the next hop -/

def minNotUsed (jobId : String) (db : Db) : Nat :=
  (((db.filesOf jobId).filter fun r => r.fileState = .notUsed).map (·.fileId)).min?.getD 0

/-- The queue length of each link, up to the first free one. -/
def queuedPerLink (voName : String) : List (String × String) → Op (List ((String × String) × Nat))
  | [] => pure []
  | link :: links => do
      let queued ← select .rows fun db => db.files.matched fun r =>
        r.fileState = .submitted && r.sourceSe = link.1 && r.destSe = link.2 && r.voName = voName
      if queued = 0 then pure [(link, queued)]
      else do
        let rest ← queuedPerLink voName links
        pure ((link, queued) :: rest)

/-- `min_element` over the `std::map` of the links: the smallest link among those with the shortest
queue. -/
def minLink : List ((String × String) × Nat) → Option (String × String)
  | [] => none
  | e :: es =>
      some (es.foldl (fun b e =>
        if e.2 < b.2 ∨ (e.2 = b.2 ∧ (e.1.1 < b.1.1 ∨ (e.1.1 = b.1.1 ∧ e.1.2 < b.1.2))) then e else b) e).1

def getBestNextReplica (node : Node) (jobId voName : String) : Op Nat := do
  let links ← select .rows fun db => node.listLinks
    (((db.filesOf jobId).filter fun r => r.fileState = .notUsed).map fun r => (r.sourceSe, r.destSe)).dedup
  let pair ← queuedPerLink voName links
  match minLink pair with
  | none => pure 0
  | some best =>
      select .rows fun db => ((db.files.rows.find? fun r =>
        r.fileState = .notUsed && r.sourceSe = best.1 && r.destSe = best.2 && r.jobId = jobId).map
          (·.fileId)).getD 0

def useFileReplica (node : Node) (jobId : String) (fileId : Nat) (destSurlUuid : Option String) :
    Op Unit := do
  -- make sure there hasn't been another already picked up
  let alreadyActive ← select .rows fun db =>
    db.files.matched fun r => r.fileState ∈ [.ready, .active] && r.jobId = jobId
  if alreadyActive > 0 then pure ()
  else do
    let file ← select .rows fun db => db.files.find? fileId
    let selectionStrategy := (file.map fun r => r.selectionStrategy.getD "orderly").getD ""
    let voName := (file.map (·.voName)).getD ""
    let nextReplica ← select .rows (minNotUsed jobId)
    if selectionStrategy = "auto" then do
      let bestFileId ← getBestNextReplica node jobId voName
      if bestFileId > 0 then do
        let _ ← updateFile (.useFileReplica jobId bestFileId destSurlUuid)
        pure ()
      else pure ()
    else do
      let _ ← updateFile (.useFileReplica jobId nextReplica destSurlUuid)
      pure ()

def getNextHop (jobId : String) : Op Nat :=
  select .rows (minNotUsed jobId)

def useNextHop (jobId : String) : Op Unit := do
  let nextFileId ← getNextHop jobId
  if nextFileId = 0 then pure ()
  else do
    let _ ← updateFile (.useNextHop nextFileId)
    pure ()

def setNullDestSURLMultiHop (jobId : String) : Op Unit := do
  let _ ← updateFile (.setNullDestSURLMultiHop jobId)
  pure ()

def isArchivingTransfer (jobId : String) (jobType : JobType) (archiveTimeout : Int) : Op Bool := do
  let nextHop ← if jobType = .multiHop then getNextHop jobId else pure 0
  pure (nextHop = 0 && -1 < archiveTimeout)

/-! ## The status of a file -/

structure TransferStatus where
  jobId : String
  fileId : Nat
  processId : Int := 0
  newFileState : FileState
  errorReason : String := ""
  filesize : Int := 0
  duration : Rat := 0
  throughput : Rat := 0
  retry : Bool := false
  fileMetadata : String := ""

structure JobInfo where
  jobType : JobType
  jobState : Option JobState
  archiveTimeout : Int
  now : Nat

/-- The `SELECT` on `t_job`. Without a row the locals keep what they held: `archive_timeout` is then
`atoi("")`. -/
def jobInfo (node : Node) (jobId : String) (db : Db) : JobInfo :=
  match db.jobs.find? jobId with
  | none => ⟨node.uninitialized, none, 0, db.now⟩
  | some j => ⟨j.type, some j.jobState, j.archiveTimeout.getD (-1), db.now⟩

/-- The update is refused: the file is terminal, goes from `ACTIVE` back to `READY`, or is already in the
new state and this is not the process id of a `READY` transfer. -/
def refused (storedState : Option FileState) (newFileState : FileState) (processId : Int) : Bool :=
  storedState = some .failed || storedState = some .finished || storedState = some .canceled ||
    (storedState = some .active && newFileState = .ready) ||
    (storedState = some newFileState && !(newFileState = .ready && processId ≠ 0))

/-- After the commit: a failed replica makes room for the next one, a finished hop for the next hop. -/
def afterFileUpdate (node : Node) (jobId : String) (fileId : Nat) (job : JobInfo) (newState : FileState)
    (destSurlUuid : Option String) : Op Unit :=
  let jobAlive := job.jobState ≠ some .canceled ∧ job.jobState ≠ some .failed
  match job.jobType with
  | .multipleReplica =>
      if jobAlive ∧ (newState = .failed ∨ newState = .canceled) then do
        beginTx
        useFileReplica node jobId fileId destSurlUuid
        commit
      else pure ()
  | .multiHop =>
      if jobAlive ∧ newState = .finished then do
        beginTx
        useNextHop jobId
        commit
      else do
        beginTx
        setNullDestSURLMultiHop jobId
        commit
  | _ => pure ()

/-- The `UPDATE` of `updateFileTransferStatusInternal`, a compare-and-set on the state just read. -/
def storeFileState (node : Node) (a : TransferStatus) (jobId : String) (fileId : Nat) (job : JobInfo)
    (storedState : Option FileState) (destSurlUuid : Option String) (archiving : Bool) :
    Op (Bool × Option FileState) := do
  let newState := if archiving then .archiving else a.newFileState
  let affected ← updateFile (.updateFileTransferStatus
    { fileId, oldState := storedState, requested := a.newFileState, newState, errorReason := a.errorReason
      time := job.now, hostname := node.hostname, filesize := a.filesize, duration := a.duration
      throughput := a.throughput, retry := a.retry, fileMetadata := a.fileMetadata
      processId := a.processId })
  if affected = 0 then do
    rollback
    pure (false, storedState)
  else do
    commit
    afterFileUpdate node jobId fileId job newState destSurlUuid
    -- the `storedState` returned here is the outer one, which nothing has written
    pure (true, none)

/-- The transfer to update: without a job or a file it is looked up by its process. -/
def fileToUpdate (a : TransferStatus) : Op (String × Nat) :=
  if a.jobId = "" ∨ a.fileId = 0 then
    select .rows fun db =>
      ((db.files.rows.find? fun r => r.pid = some a.processId && r.fileState = .active).map
        fun r => (r.jobId, r.fileId)).getD (a.jobId, a.fileId)
  else pure (a.jobId, a.fileId)

def updateFileState (node : Node) (a : TransferStatus) (jobId : String) (fileId : Nat) :
    Op (Bool × Option FileState) := do
  let job ← select .rows (jobInfo node jobId)
  let file ← select (.storedState fileId) fun db =>
    (db.files.find? fileId).map fun r => (r.fileState, r.destSurlUuid)
  let storedState := file.map (·.1)
  if refused storedState a.newFileState a.processId then do
    rollback
    pure (false, storedState)
  else do
    let archiving ←
      if a.newFileState = .finished then isArchivingTransfer jobId job.jobType job.archiveTimeout
      else pure false
    storeFileState node a jobId fileId job storedState (file.bind (·.2)) archiving

/-- `updateTransferStatus`: whether the file was updated, and the state that stood against it. -/
def updateFileTransferStatusInternal (node : Node) (a : TransferStatus) : Op (Bool × Option FileState) := do
  beginTx
  let (jobId, fileId) ← fileToUpdate a
  updateFileState node a jobId fileId

/-! ## The status of a job -/

def Count.counts : Count → FileState → Bool
  | .inJob, _ => true
  | .notCanceled, st => st ≠ .canceled
  | .finished, st => st = .finished
  | .staging, st => st ∈ [.staging, .started]
  | .archiving, st => st = .archiving
  | .notCanceledNorFailed, st => st ≠ .canceled && st ≠ .failed

def countIndexes (c : Count) (rows : List FileRow) : Int :=
  countDistinct (·.fileIndex) (rows.filter fun r => c.counts r.fileState)

structure JobCounts where
  inJob : Int
  notCanceled : Int
  finished : Int
  staging : Int
  archiving : Int
  notCanceledNorFailed : Int
  deriving DecidableEq, Repr

namespace JobCounts

def canceled (n : JobCounts) : Int := n.inJob - n.notCanceled

def failed (n : JobCounts) : Int := n.inJob - n.notCanceledNorFailed - n.canceled

def terminal (n : JobCounts) : Int := n.canceled + n.failed + n.finished

def jobFinished (n : JobCounts) (jobType : JobType) : Bool :=
  n.inJob = n.terminal || (jobType = .multiHop && 0 < n.failed + n.canceled)

def outcome (n : JobCounts) (jobType : JobType) : JobState × String :=
  let reason := "One or more files failed. Please have a look at the details for more information"
  if 0 < n.finished ∧ 0 < n.failed then
    (if jobType = .multiHop then .failed else .finishedDirty, reason)
  else if n.inJob = n.finished then (.finished, "")
  else if 0 < n.failed then (.failed, reason)
  else if 0 < n.canceled then (.canceled, reason)
  else (.failed, "Inconsistent internal state!")

def ofRows (rows : List FileRow) : JobCounts where
  inJob := countIndexes .inJob rows
  notCanceled := countIndexes .notCanceled rows
  finished := countIndexes .finished rows
  staging := countIndexes .staging rows
  archiving := countIndexes .archiving rows
  notCanceledNorFailed := countIndexes .notCanceledNorFailed rows

end JobCounts

def selectCount (jobId : String) (c : Count) : Op Int :=
  select (.count jobId c) fun db => countIndexes c (db.filesOf jobId)

/-- The six counts, in the order of the source and outside of any transaction. -/
def countFiles (jobId : String) : Op JobCounts := do
  let inJob ← selectCount jobId .inJob
  let notCanceled ← selectCount jobId .notCanceled
  let finished ← selectCount jobId .finished
  let staging ← selectCount jobId .staging
  let archiving ← selectCount jobId .archiving
  let notCanceledNorFailed ← selectCount jobId .notCanceledNorFailed
  pure { inJob, notCanceled, finished, staging, archiving, notCanceledNorFailed }

def readJob (jobId : String) (db : Db) : Option (JobState × JobType) :=
  (db.jobs.find? jobId).map fun j => (j.jobState, j.type)

/-- `stmt1` executed again: without a row the variables keep their values. -/
def readJobAgain (jobId : String) (old : Option JobState × JobType) (db : Db) :
    Option JobState × JobType :=
  match readJob jobId db with
  | none => old
  | some (st, ty) => (some st, ty)

def sameState (currentState : Option JobState) (state : FileState) : Bool :=
  currentState.isSome && currentState = state.toJobState?

def storeFinishedJob (node : Node) (jobId : String) (n : JobCounts)
    (old : Option JobState × JobType) (sourceSe : String) : Op Bool := do
  let (newState, reason) := n.outcome old.2
  -- re-execute here just in case
  let (currentState, jobType) ← select .rows (readJobAgain jobId old)
  if currentState = some newState then pure true
  else do
    beginTx
    let _ ← updateJob (.terminate jobId newState reason (if sourceSe.length > 0 then some sourceSe else none))
    commit
    if node.cancelUnusedMultihopFiles ∧ jobType = .multiHop then do
      beginTx
      let _ ← updateFile (.cancelUnusedMultihopFiles jobId)
      commit
      pure true
    else pure true

/-- `UPDATE t_job SET job_state = :state`. A name that is not in the enumeration of `job_state` is
rejected by the server. -/
def storeJobState (jobId : String) (newState : FileState) : Op Bool :=
  match newState.toJobState? with
  | none => pure true
  | some st => do
      beginTx
      let _ ← updateJob (.setState jobId st)
      commit
      pure true

def storeUnfinishedJob (jobId : String) (state : FileState) (n : JobCounts)
    (old : Option JobState × JobType) : Op Bool :=
  if state = .active ∨ state = .staging ∨ state = .submitted ∨
      (old.1 = some .staging ∧ n.staging = 0) then do
    let (currentState, _) ← select (.currentStateAgain jobId state old.1) (readJobAgain jobId old)
    if sameState currentState state then pure true
    -- Move from staging to SUBMITTED if the job is session reuse and there are none in staging
    else if currentState = some .staging ∧ n.staging = 0 then storeJobState jobId .submitted
    else storeJobState jobId state
  else if 0 < n.archiving ∧ n.inJob = n.terminal + n.archiving then do
    let (currentState, _) ← select .rows (readJobAgain jobId old)
    if currentState = some .archiving then pure true
    else do
      beginTx
      let _ ← updateJob (.setArchiving jobId)
      commit
      pure true
  else pure true

def aggregateJob (node : Node) (jobId : String) (state : FileState) (old : Option JobState × JobType)
    (sourceSe : String) : Op Bool := do
  let n ← countFiles jobId
  if n.jobFinished old.2 then storeFinishedJob node jobId n old sourceSe
  else storeUnfinishedJob jobId state n old

def sourceSeOf (jobId : String) (st : FileState) (db : Db) : String :=
  (((db.filesOf jobId).find? fun r => r.fileState = st).map (·.sourceSe)).getD ""

def updateJobTransferStatusInternal (node : Node) (jobId : String) (state : FileState) : Op Bool := do
  let old ← select (.currentState jobId state) (readJobAgain jobId (none, node.uninitialized))
  if sameState old.1 state then pure true
  else if old.1 = some .staging ∧ state = .started then pure true
  else if old.2 = .multipleReplica ∧ old.1 = some .archiving ∧ state = .failed then do
    -- FTS-1882: Fail multi-replica archiving jobs when archive monitoring step fails
    let sourceSe ← select .rows (sourceSeOf jobId .failed)
    beginTx
    let _ ← updateJob (.terminate jobId .failed "Archive monitoring failed in a multiple replica job"
      (some sourceSe))
    commit
    pure true
  else if state = .active ∧ old.2 = .regular then do
    beginTx
    let _ ← updateJob (.activate jobId .active)
    commit
    pure true
  else if (state = .finished ∨ state = .failed) ∧ old.2 = .regular then do
    let fileId ← select .rows fun db =>
      (((db.filesOf jobId).find? fun r => r.fileState = .submitted).map (·.fileId)).getD 0
    if fileId > 0 then pure true
    else aggregateJob node jobId state old ""
  else if state = .finished ∧ old.2 = .multipleReplica then do
    let sourceSe ← select .rows (sourceSeOf jobId .finished)
    aggregateJob node jobId state old sourceSe
  else aggregateJob node jobId state old ""

/-! ## Session reuse -/

def updateFileStatusReuse (node : Node) (jobId : String) (status : FileState) : Op Nat := do
  beginTx
  let updated ← updateFile (.updateFileStatusReuse jobId status node.hostname)
  match updated, status.toJobState? with
  | 0, _ => do
      commit
      pure updated
  | _, none => do
      -- the name is not in the enumeration of `job_state`: the `UPDATE` throws
      rollback
      pure updated
  | _, some st => do
      let _ ← updateJob (.updateFileStatusReuse jobId st)
      commit
      pure updated

def failFiles (jobId : String) (message : String) : Op Unit := do
  let fileIds ← select .rows fun db =>
    ((db.filesOf jobId).filter fun r => !r.fileState.terminal).map (·.fileId)
  beginTx
  fileIds.forM fun f => do
    let _ ← updateFile (.terminateReuseProcess f message)
    pure ()
  commit

def terminateReuseProcess (jobId : String) (pid : Int) (message : String) (force : Bool) : Op Unit := do
  let job_id ←
    if jobId = "" then
      select .rows fun db =>
        ((db.files.rows.find? fun r => r.pid = some pid && r.fileState = .active).map (·.jobId)).getD ""
    else pure jobId
  let doUpdate ←
    if force then pure true
    else select .rows fun db =>
      match db.jobs.find? job_id with
      | some j => j.jobType = some .sessionReuse || j.jobType = some .multiHop
      | none => false
  -- the files are looked up by the argument, not by the job id found by pid
  if doUpdate then failFiles jobId message else pure ()

def setPidForJob (jobId : String) (pid : Int) : Op Unit := do
  beginTx
  let _ ← updateFile (.setPidForJob jobId pid)
  commit

def forkFailed (node : Node) (jobId : String) : Op Unit := do
  beginTx
  let _ ← updateFile (.forkFailed jobId node.hostname)
  let _ ← updateJob (.forkFailed jobId)
  commit

/-! ## Retries, progress and timeouts -/

def defaultRetryDelay : Nat := 120

def retryTime (retryDelay : Int) (now : Nat) : Nat :=
  if 0 < retryDelay then now + retryDelay.toNat else now + defaultRetryDelay

/-- `setRetryTransfer`; `timedOut` is `errcode == ETIMEDOUT`. -/
def setRetryTransfer (node : Node) (jobId : String) (fileId : Nat) (retryNo : Int) (reason logFile : String)
    (timedOut : Bool) : Op Unit := do
  let job ← select .rows fun db => db.jobs.find? jobId
  beginTx
  if job.bind (·.jobType) = some .sessionReuse then do
    let _ ← updateJob (.setRetryTransfer jobId)
    pure ()
  else pure ()
  let (bringOnline, copyPinLifetime, now) ← select .rows fun db =>
    match db.jobs.find? jobId with
    | none => (-1, -1, db.now)
    | some j => (j.bringOnline, j.copyPinLifetime, db.now)
  -- Staging exception: if file failed with timeout and was staged before, reset it
  if (0 < bringOnline ∨ 0 < copyPinLifetime) ∧ timedOut then do
    let _ ← updateFile (.setRetryTransferStaging fileId jobId retryNo)
    pure ()
  else do
    let retryDelay := (job.map (·.retryDelay)).getD 0
    let _ ← updateFile (.setRetryTransfer fileId jobId retryNo (retryTime retryDelay now))
    pure ()
  let _ ← execute (.insertRetryError
    { fileId, attempt := retryNo, reason, transferHost := some node.hostname
      logFile := some logFile })
  commit

structure MessageUpdater where
  fileId : Nat
  transferStatus : String
  throughput : Rat
  transferred : Int

def updateFileTransferProgressVector (messages : List MessageUpdater) : Op Unit := do
  beginTx
  messages.forM fun m => do
    if 0 < m.fileId ∧ m.transferStatus = "ACTIVE" ∧ 0 < m.throughput then do
      let _ ← updateFile (.updateFileTransferProgress m.fileId m.throughput m.transferred)
      pure ()
    else pure ()
  commit

def getCancelJob (node : Node) : Op (List Int) := do
  let rows ← select .rows fun db => db.files.select fun r =>
    r.fileState = .canceled && r.finishTime.isNone && r.transferHost = some node.hostname &&
      r.stagingStart.isNone
  beginTx
  rows.forM fun r => do
    let _ ← updateFile (.getCancelJob r.fileId)
    pure ()
  commit
  pure ((rows.map fun r => r.pid.getD 0).filter fun pid => 0 < pid)

def cancelExpiredJob (node : Node) (message : String) (job : JobRow) : Op Unit := do
  let _ ← updateFile (.cancelExpiredJobs job.jobId message (job.jobType = some .multiHop))
  let _ ← updateJobTransferStatusInternal node job.jobId .canceled
  pure ()

def cancelGlobalTimeout (node : Node) (maxTime : Nat) (vo : String) : Op (List String) := do
  let jobs ← select .rows fun db => db.jobs.select fun j =>
    (j.submitTime.any fun t => t + maxTime * 3600 < db.now) &&
      j.jobState ∈ [.submitted, .staging] && j.jobFinished.isNone && j.voName = vo
  beginTx
  jobs.forM (cancelExpiredJob node
    "Job has been canceled because it stayed in the queue for too long (global timeout)")
  commit
  pure (jobs.map (·.jobId))

def cancelOwnTimeout (node : Node) (vo : String) : Op (List String) := do
  let jobs ← select .rows fun db => db.jobs.select fun j =>
    (j.maxTimeInQueue.any fun t => t < (db.now : Int)) && j.voName = vo &&
      j.jobState ∈ [.submitted, .active, .staging] && j.jobFinished.isNone
  beginTx
  jobs.forM (cancelExpiredJob node
    "Job has been canceled because it stayed in the queue for too long (max-time-in-queue timeout)")
  commit
  pure (jobs.map (·.jobId))

def cancelExpiredJobsForVo (node : Node) (maxTime : Nat) (vo : String) : Op (List String) := do
  let globalJobs ← if 0 < maxTime then cancelGlobalTimeout node maxTime vo else pure []
  let jobs ← cancelOwnTimeout node vo
  pure (globalJobs ++ jobs)

structure ProtocolMessage where
  transferStatus : String
  fileId : Nat
  filesize : Int
  nostreams : Int
  timeout : Int
  buffersize : Int

def ProtocolMessage.params (m : ProtocolMessage) : String :=
  "nostreams:" ++ toString m.nostreams ++ ",timeout:" ++ toString m.timeout ++
    ",buffersize:" ++ toString m.buffersize

def updateProtocol (messages : List ProtocolMessage) : Op Unit := do
  beginTx
  messages.forM fun m => do
    if m.transferStatus = "UPDATE" then do
      let _ ← updateFile (.updateProtocol m.fileId m.params m.filesize)
      pure ()
    else pure ()
  commit

/-- One bulk of `backup`: the rows of the given jobs are copied, if so configured, and deleted. The result is the number
of files and of deletions. -/
def backupBulk (doBackup : Bool) (jobIds : List String) : Op (Nat × Nat) := do
  beginTx
  if doBackup then do
    let _ ← execute (.insertJobBackup jobIds)
    let _ ← execute (.insertFileBackup jobIds)
    pure ()
  else pure ()
  let nFiles ← execute (.deleteFiles jobIds)
  let nDeletions ← execute (.deleteDms jobIds)
  let _ ← execute (.deleteJobs jobIds)
  commit
  pure (nFiles, nDeletions)

end Fts3.MySql
