import Fts3.Common.OrderedMap
import Fts3.MySql.Transfers
import Fts3.Sql.Memory
import Mathlib.Data.List.Sort
import Mathlib.Algebra.Ring.Rat

/-!
# Scheduling queries

`MySqlAPI.cpp`: what the scheduler asks the database before it starts a transfer.
-/

namespace Fts3.MySql

open Fts3.Sql

def defaultMinActive : Int := 2

def Db.activeCount (sourceSe destSe : String) (db : Db) : Nat :=
  db.files.matched fun r =>
    r.sourceSe = sourceSe && r.destSe = destSe && r.fileState = .active && (db.jobs.find? r.jobId).isSome

/-- Count how many transfers are running for the given pair. -/
def getActiveCount (sourceSe destSe : String) : Op Nat :=
  select (.activeCount sourceSe destSe) (Db.activeCount sourceSe destSe)

/-- `isTrAllowed`. A `NULL` limit raises an exception, which is `none` here. -/
def isTrAllowed (sourceSe destSe : String) : Op (Option Bool) := do
  let maxActive ← select .rows fun db =>
    match db.optimizer.find? fun o => o.sourceSe = sourceSe && o.destSe = destSe with
    | none => some defaultMinActive
    | some o => o.active
  match maxActive with
  | none => pure none
  | some maxActive => do
      let currentActive ← getActiveCount sourceSe destSe
      pure (some ((currentActive : Int) < maxActive))

/-- What a node fetches of a session reuse job at the time `tTime` of its own clock: the files that are queued, in
its hash segment, and not to be retried later. -/
def FileRow.fetchable (node : Node) (tTime : Nat) (r : FileRow) : Bool :=
  r.fileState = .submitted && node.hashStart ≤ r.hashedId && r.hashedId ≤ node.hashEnd &&
    r.retryTimestamp.all fun t => t < tTime

/-- The loop body of `getReadySessionReuseTransfers`: the transfers of one job. -/
def getSessionReuseTransfers (node : Node) (tTime : Nat) (jobId : String) : Op (List FileRow) :=
  select .rows fun db =>
    if (db.jobs.find? jobId).isSome then db.files.select fun r => r.jobId = jobId && r.fetchable node tTime
    else []

/-- `ORDER BY submit_time`: a row without a time comes first. -/
def submittedFirst : Option Nat → Option Nat → Bool
  | none, _ => true
  | some _, none => false
  | some x, some y => x ≤ y

/-- The session reuse jobs of a queue that have files to transfer, the most urgent ones first. -/
def Db.reuseJobs (sourceSe destSe voName : String) (limit : Nat) (db : Db) : List String :=
  let jobs := db.jobs.select fun j => j.sourceSe = sourceSe && j.destSe = destSe && j.voName = voName &&
    j.jobType = some .sessionReuse && j.jobState ∈ [.submitted, .active] &&
    (db.filesOf j.jobId).any fun r => r.fileState = .submitted
  ((jobs.insertionSort fun a b => b.priority.getD 0 < a.priority.getD 0 ∨
    a.priority.getD 0 = b.priority.getD 0 ∧ submittedFirst a.submitTime b.submitTime = true).map (·.jobId)).take limit

/-! ## Shares of the activities -/

structure QueueId where
  sourceSe : String
  destSe : String
  voName : String
  activeCount : Nat := 0

def QueueId.pair (q : QueueId) : String × String := (q.sourceSe, q.destSe)

def Db.activeInQueue (sourceSe destSe voName : String) (db : Db) : Nat :=
  db.files.matched fun r => r.sourceSe = sourceSe && r.destSe = destSe && r.voName = voName && r.fileState = .active

/-- The links and VOs with transfers that wait. -/
def Db.pendingLinks (db : Db) : List (String × String × String) :=
  ((db.files.select fun r => r.fileState = .submitted).map fun r => (r.sourceSe, r.destSe, r.voName)).dedup

def getQueuesWithPending : Op (List QueueId) := do
  let links ← select .rows Db.pendingLinks
  Proc.collect (fun (sourceSe, destSe, voName) => do
    let activeCount ← select .rows (Db.activeInQueue sourceSe destSe voName)
    pure [{ sourceSe, destSe, voName, activeCount }]) links

/-- The shares of the VO, by the names of the activities in lower case. -/
def getActivityShareConf (vo : String) (db : Db) : List (String × Rat) :=
  match db.activityShareConfig.find? fun c => c.vo = vo && c.active = some "on" with
  | none => []
  | some c => c.activityShare.foldl (fun m share => mapInsert share.1.toLower share.2 m) []

/-- The activity of a group of rows: `NULL` and the empty one are the default. -/
def activityName (activity : Option String) : String :=
  let name := activity.getD "default"
  (if name = "" then "default" else name).toLower

/-- `GROUP BY activity`: the rows without one are a group as well. -/
def FileRow.activityKey (c : ActivityColumn) (r : FileRow) : Option String := r.activity.map c.key

/-- What waits in the queue: files of jobs of the types `'N'` and `'R'`, or of none. -/
def FileRow.queuedIn (node : Node) (q : QueueId) (db : Db) (r : FileRow) : Bool :=
  r.fileState = .submitted && r.sourceSe = q.sourceSe && r.destSe = q.destSe && r.voName = q.voName &&
    node.hashStart ≤ r.hashedId && r.hashedId ≤ node.hashEnd &&
    (db.jobs.find? r.jobId).any fun j => j.voName = r.voName &&
      (j.jobType = some .regular || j.jobType = some .multipleReplica || j.jobType.isNone)

/-- The number of files for each activity in the queue. The activity of a group is that of its first row. -/
def getActivitiesInQueue (node : Node) (q : QueueId) : Op (List (String × Int)) := do
  -- the indicator stays as it is when no row is found, so whether the VO is known changes nothing
  let _ ← select .rows fun db => db.activityShareConfig.any fun c => c.vo = q.voName
  select .rows fun db =>
    let rows := db.files.select (FileRow.queuedIn node q db)
    let key := FileRow.activityKey node.activity
    (rows.map key).dedup.foldl (fun m k =>
      mapInsert (activityName ((rows.find? fun r => key r = k).bind (·.activity)))
        (countDistinct (fun r => r.fileIndex.map fun i => (r.jobId, i)) (rows.filter fun r => key r = k)) m) []

/-- The assignment of slots: the files left for each activity, the slots of each activity so far, and the sum of
the shares of the activities that still have files. -/
structure Slots where
  inQueue : List (String × Int)
  assigned : List (String × Nat) := []
  sum : Rat

/-- The activity in whose interval the dice has come out. -/
def pickActivity (share : String → Rat) (sum r : Rat) : Rat → List (String × Int) → Option (String × Int)
  | _, [] => none
  | interval, (activity, left) :: rest =>
      -- if there are no more files for this activity continue
      if left ≤ 0 then pickActivity share sum r interval rest
      else if r < interval + share activity / sum then some (activity, left)
      else pickActivity share sum r (interval + share activity / sum) rest

def Slots.assign (name : String → String) (share : String → Rat) (s : Slots) (r : Rat) : Slots :=
  -- if sum <= 0 there is nothing to assign
  if s.sum ≤ 0 then s
  else
    match pickActivity (fun a => share (name a)) s.sum r 0 s.inQueue with
    | none => s
    | some (activity, left) =>
        { inQueue := mapInsert activity (left - 1) s.inQueue
          assigned := mapInsert (name activity) ((s.assigned.lookup (name activity)).getD 0 + 1) s.assigned
          sum := if left = 1 then s.sum - share (name activity) else s.sum }

/-- The random choices of `getReadyTransfers` for each queue: the dice for its slots, and the order of its
activities. -/
structure Chance where
  dice : QueueId → Nat → Rat := fun _ _ => 0
  shuffle : QueueId → List (String × Nat) → List (String × Nat) := fun _ m => m

/-- The slots for each activity, and the activities that share those of `default`. -/
def getFilesNumPerActivity (node : Node) (chance : Chance) (q : QueueId) (filesNum : Nat) :
    Op (List (String × Nat) × List String) := do
  let activityShares ← select .rows (getActivityShareConf q.voName)
  -- if there is no configuration no assigment can be made
  if activityShares.isEmpty then pure ([], [])
  else do
    let activitiesInQueue ← getActivitiesInQueue node q
    let share := fun activity => (activityShares.lookup activity).getD 0
    let isDefault := fun activity => (activityShares.lookup activity).isNone || activity = "default"
    let defaultActivities := (activitiesInQueue.map (·.1)).filter isDefault
    let named := (activitiesInQueue.map (·.1)).filter fun activity => !isDefault activity
    -- if default was used add it as well
    let sum := (named.map share).sum + if defaultActivities.isEmpty then 0 else share "default"
    let slots := ((List.range filesNum).map (chance.dice q)).foldl
      (Slots.assign (fun a => if a ∈ defaultActivities then "default" else a) share) { inQueue := activitiesInQueue, sum }
    pure (slots.assigned, defaultActivities)

/-! ## The transfers of a queue -/

/-- The columns of a fetched transfer that the scheduler works with; the others make up the command line of
`fts_url_copy`. -/
structure TransferFile where
  fileId : Nat
  jobId : String
  sourceSe : String
  destSe : String
  voName : String
  userDn : String
  credId : String
  activity : String
  fileIndex : Int
  jobType : JobType
  archiveTimeout : Int := 0
  lastReplica : Bool := false
  lastHop : Bool := false

/-- `FileIndex`: the replicas of a file share it. -/
def TransferFile.index (tf : TransferFile) : String × Int := (tf.jobId, tf.fileIndex)

def TransferFile.pair (tf : TransferFile) : String × String := (tf.sourceSe, tf.destSe)

def TransferFile.ofRow (r : FileRow) (j : JobRow) : TransferFile where
  fileId := r.fileId
  jobId := r.jobId
  sourceSe := r.sourceSe
  destSe := r.destSe
  voName := j.voName
  userDn := j.userDn
  credId := j.credId
  activity := r.activity.getD ""
  fileIndex := r.fileIndex.getD 0
  jobType := j.type
  archiveTimeout := j.archiveTimeout.getD (-1)

/-- `ORDER BY file_id ASC LIMIT :filesNum` over the files of a queue that are due, with the highest priority. -/
def readyRows (node : Node) (tTime : Nat) (q : QueueId) (maxPriority : Int) (jobTypes : List JobType)
    (ofActivity : FileRow → Bool) (filesNum : Nat) (db : Db) : List TransferFile :=
  let rows := db.files.select fun r => r.sourceSe = q.sourceSe && r.destSe = q.destSe && r.voName = q.voName &&
    r.fetchable node tTime && ofActivity r
  ((rows.insertionSort fun a b => a.fileId ≤ b.fileId).filterMap fun r =>
    ((db.jobs.find? r.jobId).filter fun j =>
      j.jobType.any (· ∈ jobTypes) && j.priority = some maxPriority).map (TransferFile.ofRow r)).take filesNum

/-- Whether this is the last replica or the last hop of its job. -/
def markLast (tfile : TransferFile) : Op (List TransferFile) :=
  match tfile.jobType with
  | .multipleReplica => do
      let lastReplica ← select .rows fun db => (db.filesOf tfile.jobId).all fun r => r.fileState ≠ .notUsed
      pure [{ tfile with lastReplica }]
  | .multiHop => do
      let maxIndex ← select .rows fun db => ((db.filesOf tfile.jobId).filterMap (·.fileIndex)).max?.getD 0
      pure [{ tfile with lastHop := maxIndex = tfile.fileIndex }]
  | _ => pure [tfile]

/-- The condition of the query on the activity, `none` if the database rejects the query. The names of the activities
that fall to `default` are not escaped. -/
def ofActivity (c : ActivityColumn) (defaultActivities : List String) (activity : String) : Option (FileRow → Bool) :=
  if activity = "default" then
    (c.readsList defaultActivities).map fun inList r =>
      r.activity.any (fun a => c.key a = c.key activity) || r.activity.isNone || inList r
  else some fun r => r.activity.any fun a => c.key a = c.key activity

/-- The transfers of one activity; those of `default` include the ones without an activity or with one that has no
share. It throws where its query is rejected. -/
def readyOfActivity (node : Node) (tTime : Nat) (q : QueueId) (maxPriority : Int) (defaultActivities : List String)
    (slots : String × Nat) : Op (Option (List TransferFile)) :=
  if slots.2 = 0 then pure (some [])
  else
    match ofActivity node.activity defaultActivities slots.1 with
    | none => pure none
    | some inActivity => do
        let files ← select .rows (readyRows node tTime q maxPriority [.regular, .multipleReplica] inActivity slots.2)
        let files ← Proc.collect markLast files
        pure (some (files.map fun tfile => { tfile with activity := slots.1 }))

/-- The highest priority that waits in the queue, unless the configuration fixes it. -/
def getMaxPriority (node : Node) (q : QueueId) : Op (Option Int) :=
  if node.useFixedJobPriority = 0 then
    select .rows fun db => ((db.files.select fun r =>
      r.voName = q.voName && r.sourceSe = q.sourceSe && r.destSe = q.destSe && r.fileState = .submitted &&
        node.hashStart ≤ r.hashedId && r.hashedId ≤ node.hashEnd).filterMap (·.priority)).max?
  else pure (some node.useFixedJobPriority)

/-- The first `filesNum` transfers of a queue. -/
def readyOfQueue (node : Node) (tTime : Nat) (chance : Chance) (q : QueueId) (filesNum : Nat) :
    Op (Option (List TransferFile)) := do
  let maxPriority ← getMaxPriority node q
  match maxPriority with
  -- NULL MAX(priority), skip entry
  | none => pure (some [])
  | some maxPriority => do
      let (activityFilesNum, defaultActivities) ← getFilesNumPerActivity node chance q filesNum
      if activityFilesNum.isEmpty then do
        let files ← select .rows (readyRows node tTime q maxPriority [.regular, .multipleReplica, .multiHop]
          (fun _ => true) filesNum)
        let files ← Proc.collect markLast files
        pure (some files)
      else
        Proc.tryCollect (readyOfActivity node tTime q maxPriority defaultActivities) (chance.shuffle q activityFilesNum)

/-- The loop body of `getReadyTransfers`: the transfers of one queue, no more than the link has room for. -/
def getReadyTransfersOf (node : Node) (tTime : Nat) (chance : Chance) (q : QueueId) :
    Op (Option (List TransferFile)) := do
  let activeCount ← getActiveCount q.sourceSe q.destSe
  -- How many can we run
  let maxActive ← select .rows fun db => ((db.optimizer.find? fun o =>
    o.sourceSe = q.sourceSe && o.destSe = q.destSe).bind (·.active)).getD 0
  let filesNum := if 0 < maxActive then maxActive - activeCount else 10
  if filesNum ≤ 0 then pure (some [])
  else readyOfQueue node tTime chance q filesNum.toNat

/-- The loop body of `getReadySessionReuseTransfers`: the jobs of one queue, with their transfers. Without a limit in
`t_optimizer` the variable that takes it is not written; `unwritten` is what it holds. -/
def getReadySessionReuseTransfersOf (node : Node) (tTime : Nat) (unwritten : Int) (q : QueueId) :
    Op (List (String × List FileRow)) := do
  let activeCount ← getActiveCount q.sourceSe q.destSe
  let maxActive ← select .rows fun db => ((db.optimizer.find? fun o =>
    o.sourceSe = q.sourceSe && o.destSe = q.destSe).bind (·.active)).getD unwritten
  -- This is what is left
  let limit := maxActive - activeCount
  if limit ≤ 0 then pure []
  else do
    let jobs ← select .rows (Db.reuseJobs q.sourceSe q.destSe q.voName limit.toNat)
    Proc.collect (fun jobId => do
      let tf ← getSessionReuseTransfers node tTime jobId
      pure (if tf.isEmpty then [] else [(jobId, tf)])) jobs

def getReadySessionReuseTransfers (node : Node) (tTime : Nat) (unwritten : Int) (queues : List QueueId) :
    Op (List (String × List FileRow)) :=
  Proc.collect (getReadySessionReuseTransfersOf node tTime unwritten) queues

/-- The transfers of the queues, in the order in which they are appended to the list of their VO. An exception leaves
none of them. -/
def getReadyTransfers (node : Node) (tTime : Nat) (chance : Chance) (queues : List QueueId) :
    Op (Option (List TransferFile)) :=
  Proc.tryCollect (getReadyTransfersOf node tTime chance) queues

/-- The transfers that an operator has started. Which of them are the last ones of their jobs is not asked. -/
def getForceStartTransfers : Op (List TransferFile) :=
  select .rows fun db => (db.files.select fun r => r.fileState = .forceStart).filterMap fun r =>
    (db.jobs.find? r.jobId).map (TransferFile.ofRow r)

end Fts3.MySql
