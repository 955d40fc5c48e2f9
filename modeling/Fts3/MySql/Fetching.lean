import Fts3.MySql.Scheduling
import Fts3.MySql.Staging

/-!
# Fetching staging requests and deletions

`MySqlAPI.cpp`: what the bring online daemon asks the database for before it starts a staging request or a deletion.
-/

namespace Fts3.MySql

open Fts3.Sql

/-- The configured number of concurrent operations on a storage, that of the storage first and then that of any. -/
def concurrentOps (operation voName host : String) : Op Int := do
  let configured (host : String) (db : Db) := (db.stageReq.find? fun c =>
    c.voName = voName && c.host = host && c.operation = operation && c.concurrentOps.isSome).bind (·.concurrentOps)
  let maxValueConfig ← select .rows fun db => (configured host db).getD 0
  if maxValueConfig ≤ 0 then select .rows fun db => (configured "*" db).getD maxValueConfig
  else pure maxValueConfig

/-! ## Staging requests -/

structure StagingOperation where
  jobId : String
  fileId : Nat
  voName : String
  userDn : String
  credId : String
  surl : String
  metadata : String
  pinLifetime : Int
  timeout : Int
  spaceToken : String

/-- The staging request for a row; one of the two times stands for the other when only that one is given. -/
def StagingOperation.ofRow (node : Node) (voName : String) (r : FileRow) (j : JobRow) : StagingOperation where
  jobId := r.jobId
  fileId := r.fileId
  voName
  userDn := j.userDn
  credId := j.credId
  surl := r.sourceSurl.getD ""
  metadata := r.stagingMetadata.getD ""
  pinLifetime := if 0 < j.bringOnline ∧ j.copyPinLifetime ≤ 0 then node.defaultCopyPinLifetime else j.copyPinLifetime
  timeout := if 0 < j.copyPinLifetime ∧ j.bringOnline ≤ 0 then node.defaultBringOnlineTimeout else j.bringOnline
  spaceToken := j.sourceSpaceToken.getD ""

def FileRow.inSegment (node : Node) (r : FileRow) : Bool :=
  node.hashStart ≤ r.hashedId && r.hashedId ≤ node.hashEnd

/-- How many files may be asked for: `none` if there is no free slot. -/
def stagingLimit (node : Node) (voName sourceSe : String) : Op (Option Int) := do
  let maxValueConfig ← concurrentOps "staging" voName sourceSe
  if 0 < maxValueConfig then do
    -- check current staging
    let currentStagingActive ← select .rows fun db => db.files.matched fun r =>
      r.voName = voName && r.sourceSe = sourceSe && r.fileState = .started
    let limit : Int := if 0 < currentStagingActive then maxValueConfig - currentStagingActive else maxValueConfig
    -- Make sure we do not grab more than the limit for a bulk
    pure (if limit ≤ 0 then none else some (min limit node.stagingBulkSize))
  else pure (some node.stagingBulkSize)

/-- `queuedStagingFiles`: for a storage with few files in the queue, when the next request is due. -/
abbrev QueuedStagingFiles := List (String × Nat)

/-- With too few files for a bulk request, some time is left for more of them to arrive: whether the request is to be made
now, and the queue afterwards. -/
def waitForBulk (node : Node) (now : Nat) (sourceSe : String) (queued : QueuedStagingFiles) : Bool × QueuedStagingFiles :=
  match queued.lookup sourceSe with
  | some nextSubmission =>
      if now < nextSubmission then (false, queued) else (true, queued.filter fun e => e.1 ≠ sourceSe)
  | none => (false, (sourceSe, now + node.stagingWaitingFactor) :: queued)

/-- The rows of a storage and a credential that are to be staged. -/
def Db.stagingRows (node : Node) (voName sourceSe credId : String) (limit : Nat) (db : Db) : List StagingOperation :=
  ((db.files.select fun r => r.fileState = .staging && r.inSegment node && r.sourceSe = sourceSe).filterMap fun r =>
    ((db.jobs.find? r.jobId).filter fun j => j.credId = credId && j.voName = voName).map
      (StagingOperation.ofRow node voName r)).take limit

/-- The storages and credentials of the files in the queue. -/
def Db.stagingCredentials (node : Node) (voName sourceSe : String) (db : Db) : List (String × String) :=
  ((db.files.select fun r => r.fileState = .staging && r.inSegment node && r.voName = voName &&
    r.sourceSe = sourceSe).filterMap fun r => (db.jobs.find? r.jobId).map fun j => (r.sourceSe, j.credId)).dedup

/-- The loop body of `getFilesForStaging`: the requests for one VO on one storage, at the time `now` of the local clock. -/
def getFilesForStagingOf (node : Node) (now : Nat) (queued : QueuedStagingFiles) (voName sourceSe : String) :
    Op (List StagingOperation × QueuedStagingFiles) := do
  let limit ← stagingLimit node voName sourceSe
  match limit with
  | none => pure ([], queued)
  | some limit => do
      -- now check for max concurrent active requests, must no exceed the limit
      let countActiveRequests ← select .rows fun db => countDistinct (·.bringonlineToken) (db.files.select fun r =>
        r.voName = voName && r.fileState = .started && r.sourceSe = sourceSe)
      if node.stagingConcurrentRequests < countActiveRequests then pure ([], queued)
      else do
        -- now make sure there are enough files to put in a single request
        let countQueuedFiles ← select .rows fun db => db.files.matched fun r =>
          r.voName = voName && r.sourceSe = sourceSe && r.fileState = .staging
        let (go, queued) :=
          if (countQueuedFiles : Int) < node.stagingBulkSize then waitForBulk node now sourceSe queued else (true, queued)
        if go = false then pure ([], queued)
        else do
          let credentials ← select .rows fun db => node.listLinks (db.stagingCredentials node voName sourceSe)
          let files ← Proc.collect (fun (sourceSe, credId) =>
            select .rows (Db.stagingRows node voName sourceSe credId limit.toNat)) credentials
          pure (files, queued)

def Db.stagingQueues (node : Node) (db : Db) : List (String × String) :=
  ((db.files.select fun r => r.fileState = .staging && r.inSegment node).map fun r => (r.voName, r.sourceSe)).dedup

def filesForStaging (node : Node) (now : Nat) :
    List (String × String) → QueuedStagingFiles → Op (List StagingOperation × QueuedStagingFiles)
  | [], queued => pure ([], queued)
  | (voName, sourceSe) :: queues, queued => do
      let (files, queued) ← getFilesForStagingOf node now queued voName sourceSe
      let (rest, queued) ← filesForStaging node now queues queued
      pure (files ++ rest, queued)

def getFilesForStaging (node : Node) (now : Nat) (queued : QueuedStagingFiles) :
    Op (List StagingOperation × QueuedStagingFiles) := do
  -- now get fresh states/files from the database
  let queues ← select .rows fun db => node.listLinks (db.stagingQueues node)
  filesForStaging node now queues queued

/-! ## Deletions -/

structure DeleteOperation where
  jobId : String
  fileId : Nat
  voName : String
  userDn : String
  credId : String
  surl : String

def DmRow.deletable (node : Node) (sourceSe : String) (r : DmRow) : Bool :=
  r.fileState = .delete && r.startTime.isNone && node.hashStart ≤ r.hashedId && r.hashedId ≤ node.hashEnd &&
    r.sourceSe = sourceSe

/-- The rows of a storage and a user that are to be deleted, those submitted first at the front. -/
def Db.deletionRows (node : Node) (voName sourceSe userDn : String) (limit : Nat) (db : Db) : List DeleteOperation :=
  let rows := (db.dms.select (DmRow.deletable node sourceSe)).filterMap fun r =>
    ((db.jobs.find? r.jobId).filter fun j =>
      j.userDn = userDn && j.voName = voName && j.jobFinished.isNone).map fun j => (r, j)
  ((rows.insertionSort fun a b => submittedFirst a.2.submitTime b.2.submitTime = true).map fun (r, j) =>
    { jobId := r.jobId, fileId := r.fileId, voName, userDn := j.userDn, credId := j.credId
      surl := r.sourceSurl.getD "" }).take limit

def Db.deletionUsers (node : Node) (voName sourceSe : String) (db : Db) : List (String × String) :=
  ((db.dms.select fun r => r.deletable node sourceSe && r.voName = voName).filterMap fun r =>
    ((db.jobs.find? r.jobId).filter fun j => j.jobFinished.isNone).map fun j => (r.sourceSe, j.userDn)).dedup

def maxDeletions : Int := 2000

/-- The loop body of `getFilesForDeletion`: the deletions for one VO on one storage. -/
def getFilesForDeletionOf (node : Node) (voName sourceSe : String) : Op (List DeleteOperation) := do
  let maxValueConfig ← concurrentOps "delete" voName sourceSe
  -- check current deletion
  let currentDeleteActive ← select .rows fun db => db.dms.matched fun r =>
    r.voName = voName && r.sourceSe = sourceSe && r.fileState = .started && r.jobFinished.isNone
  let max := if 0 < maxValueConfig then maxValueConfig else maxDeletions
  let limit : Int := if 0 < currentDeleteActive then max - currentDeleteActive else max
  -- no free slots
  if limit ≤ 0 then pure []
  else do
    let users ← select .rows fun db => node.listLinks (db.deletionUsers node voName sourceSe)
    Proc.collect (fun (sourceSe, userDn) =>
      select .rows (Db.deletionRows node voName sourceSe userDn limit.toNat)) users

def Db.deletionQueues (node : Node) (db : Db) : List (String × String) :=
  ((db.dms.select fun r => r.fileState = .delete && node.hashStart ≤ r.hashedId && r.hashedId ≤ node.hashEnd).map
    fun r => (r.voName, r.sourceSe)).dedup

def DeleteOperation.started (d : DeleteOperation) : MinFileStatus DmState where
  jobId := d.jobId
  fileId := d.fileId
  state := .started

/-- `getFilesForDeletion`. `messages` are the states that an earlier call could not store and left in the messaging
directory. -/
def getFilesForDeletion (node : Node) (messages : List (MinFileStatus DmState)) : Op (List DeleteOperation) := do
  let queues ← select .rows fun db => node.listLinks (db.deletionQueues node)
  let delOps ← Proc.collect (fun (voName, sourceSe) => getFilesForDeletionOf node voName sourceSe) queues
  -- now update the initial state
  let filesState := messages ++ delOps.map DeleteOperation.started
  if filesState.isEmpty then pure delOps
  else do
    updateDeletionsStateInternal node filesState
    pure delOps

end Fts3.MySql
