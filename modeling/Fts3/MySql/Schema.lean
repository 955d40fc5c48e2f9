import Fts3.Sql.Table
import Mathlib.Data.Rat.Defs

/-!
# The tables

The columns of `fts-schema-9.0.0.sql` that the modelled statements read or write. A column without
`NOT NULL` is an `Option`, except the columns that the code reads into a variable without a `NULL`
indicator: `NULL` raises an exception there, and no statement of this model raises one.
-/

namespace Fts3.MySql

open Fts3.Sql

inductive FileState where
  | staging
  | archiving
  | qosTransition
  | qosRequestSubmitted
  | started
  | submitted
  | ready
  | active
  | finished
  | failed
  | canceled
  | notUsed
  | onHold
  | onHoldStaging
  | forceStart
  | tokenPrep
  deriving DecidableEq, Repr

inductive JobState where
  | staging
  | archiving
  | qosTransition
  | qosRequestSubmitted
  | submitted
  | ready
  | active
  | finished
  | failed
  | finishedDirty
  | canceled
  | delete
  deriving DecidableEq, Repr

inductive DmState where
  | delete
  | started
  | finished
  | failed
  | canceled
  deriving DecidableEq, Repr

/-- `Job::JobType`: the four named characters, or any other one. -/
inductive JobType where
  | multipleReplica
  | multiHop
  | sessionReuse
  | regular
  | other (c : Char)
  deriving DecidableEq, Repr

namespace FileState

def name : FileState → String
  | staging => "STAGING"
  | archiving => "ARCHIVING"
  | qosTransition => "QOS_TRANSITION"
  | qosRequestSubmitted => "QOS_REQUEST_SUBMITTED"
  | started => "STARTED"
  | submitted => "SUBMITTED"
  | ready => "READY"
  | active => "ACTIVE"
  | finished => "FINISHED"
  | failed => "FAILED"
  | canceled => "CANCELED"
  | notUsed => "NOT_USED"
  | onHold => "ON_HOLD"
  | onHoldStaging => "ON_HOLD_STAGING"
  | forceStart => "FORCE_START"
  | tokenPrep => "TOKEN_PREP"

def all : List FileState :=
  [staging, archiving, qosTransition, qosRequestSubmitted, started, submitted, ready, active,
    finished, failed, canceled, notUsed, onHold, onHoldStaging, forceStart, tokenPrep]

def ofName? (s : String) : Option FileState :=
  all.find? fun st => st.name = s

def terminal : FileState → Bool
  | finished | failed | canceled => true
  | _ => false

def live (st : FileState) : Bool := !st.terminal && st ≠ .notUsed

/-- Queued, running or being staged or archived. -/
def inProgress : FileState → Bool
  | submitted | ready | active | staging | started | archiving => true
  | _ => false

def toJobState? : FileState → Option JobState
  | staging => some .staging
  | archiving => some .archiving
  | qosTransition => some .qosTransition
  | qosRequestSubmitted => some .qosRequestSubmitted
  | submitted => some .submitted
  | ready => some .ready
  | active => some .active
  | finished => some .finished
  | failed => some .failed
  | canceled => some .canceled
  | started | notUsed | onHold | onHoldStaging | forceStart | tokenPrep => none

end FileState

def JobState.terminal : JobState → Bool
  | .finished | .failed | .finishedDirty | .canceled => true
  | _ => false

def DmState.name : DmState → String
  | .delete => "DELETE"
  | .started => "STARTED"
  | .finished => "FINISHED"
  | .failed => "FAILED"
  | .canceled => "CANCELED"

structure FileRow where
  fileId : Nat
  jobId : String
  fileState : FileState
  fileIndex : Option Int := none
  transferHost : Option String := none
  sourceSurl : Option String := none
  destSurl : Option String := none
  sourceSe : String := ""
  destSe : String := ""
  stagingHost : Option String := none
  reason : Option String := none
  currentFailures : Option Int := none
  filesize : Option Int := none
  finishTime : Option Nat := none
  startTime : Option Nat := none
  internalFileParams : Option String := none
  pid : Option Int := none
  txDuration : Option Rat := none
  /-- What a message brings, without the rounding of the `FLOAT` column. -/
  throughput : Option Rat := none
  retry : Option Int := some 0
  checksum : Option String := none
  userFilesize : Option Int := none
  fileMetadata : Option String := none
  archiveMetadata : Option String := none
  scitag : Option Int := none
  selectionStrategy : Option String := none
  stagingStart : Option Nat := none
  stagingFinished : Option Nat := none
  stagingMetadata : Option String := none
  bringonlineToken : Option String := none
  retryTimestamp : Option Nat := none
  logFile : Option String := none
  logFileDebug : Option Nat := none
  hashedId : Nat := 0
  voName : String := ""
  activity : Option String := some "default"
  transferred : Option Int := some 0
  priority : Option Int := some 3
  destSurlUuid : Option String := none
  archiveStartTime : Option Nat := none
  archiveFinishTime : Option Nat := none
  srcTokenId : Option String := none
  dstTokenId : Option String := none
  fileStateInitial : Option String := none

structure JobRow where
  jobId : String
  jobState : JobState
  jobType : Option JobType := none
  sourceSe : String := ""
  destSe : String := ""
  userDn : String := ""
  credId : String := ""
  reason : Option String := none
  voName : String := ""
  submitTime : Option Nat := none
  priority : Option Int := some 3
  maxTimeInQueue : Option Int := none
  jobFinished : Option Nat := none
  copyPinLifetime : Int := -1
  bringOnline : Int := -1
  sourceSpaceToken : Option String := none
  retry : Option Int := some 0
  retryDelay : Int := 0
  archiveTimeout : Option Int := none

structure DmRow where
  fileId : Nat
  jobId : String
  fileState : DmState
  dmHost : Option String := none
  sourceSurl : Option String := none
  sourceSe : String := ""
  reason : Option String := none
  finishTime : Option Nat := none
  startTime : Option Nat := none
  jobFinished : Option Nat := none
  retry : Option Int := some 0
  retryTimestamp : Option Nat := none
  hashedId : Nat := 0
  voName : String := ""

structure HostRow where
  hostname : String
  serviceName : String
  beat : Option Nat := none
  drain : Option Int := some 0

structure ServerConfigRow where
  voName : Option String := none
  retry : Option Int := some 0

structure OptimizerRow where
  sourceSe : String
  destSe : String
  datetime : Nat := 0
  ema : Option Rat := some 0
  active : Option Int := some 2
  nostreams : Option Int := some 1

/-- `t_optimizer_evolution`: the decisions of the optimizer, for monitoring. -/
structure EvolutionRow where
  datetime : Nat := 0
  sourceSe : String
  destSe : String
  active : Int
  throughput : Rat
  success : Rat
  rationale : String
  diff : Int
  actualActive : Int
  queueSize : Int
  ema : Rat
  filesizeAvg : Rat
  filesizeStddev : Rat

structure SeRow where
  storage : String
  inboundMaxActive : Option Int := none
  outboundMaxActive : Option Int := none
  inboundMaxThroughput : Option Rat := none
  outboundMaxThroughput : Option Rat := none

/-- `t_link_config`: the working range and the mode of the optimizer. `*` stands for any storage. -/
structure LinkConfigRow where
  sourceSe : String
  destSe : String
  minActive : Option Int := none
  maxActive : Option Int := none
  optimizerMode : Option Int := none

structure ShareConfigRow where
  source : String
  destination : String
  vo : String
  active : Int

/-- `t_activity_share_config`, with the text of `activity_share` as the shares that it lists. -/
structure ActivityShareRow where
  vo : String
  activityShare : List (String × Rat)
  active : Option String := none

/-- `t_stage_req`: how many staging requests or deletions may run on a storage at once. -/
structure StageReqRow where
  voName : String
  host : String
  operation : String
  concurrentOps : Option Int := some 0

structure TokenRow where
  tokenId : String
  accessToken : String := ""
  refreshToken : Option String := none
  retryTimestamp : Option Nat := none
  retryDelayM : Int := 0
  attempts : Int := 0
  exchangeMessage : Option String := none

structure RetryErrorRow where
  fileId : Nat
  attempt : Int
  datetime : Nat := 0
  reason : String
  transferHost : Option String := none
  logFile : Option String := none

def RetryErrorRow.key (r : RetryErrorRow) : Nat × Int := (r.fileId, r.attempt)

/-- The database, with its clock (`UTC_TIMESTAMP()`, in seconds). -/
structure Db where
  files : Table FileRow.fileId := .empty
  jobs : Table JobRow.jobId := .empty
  dms : Table DmRow.fileId := .empty
  hosts : List HostRow := []
  serverConfig : List ServerConfigRow := []
  optimizer : List OptimizerRow := []
  optimizerEvolution : List EvolutionRow := []
  se : List SeRow := []
  linkConfig : List LinkConfigRow := []
  shareConfig : List ShareConfigRow := []
  activityShareConfig : List ActivityShareRow := []
  stageReq : List StageReqRow := []
  tokens : Table TokenRow.tokenId := .empty
  retryErrors : Table RetryErrorRow.key := .empty
  fileBackup : List FileRow := []
  jobBackup : List JobRow := []
  dmBackup : List DmRow := []
  now : Nat := 0

/-- The job type that `type_conversion<Job::JobType>` reads: `NULL` is a regular job. -/
def JobRow.type (j : JobRow) : JobType :=
  j.jobType.getD .regular

namespace Db

def fileState? (db : Db) (f : Nat) : Option FileState :=
  (db.files.find? f).map (·.fileState)

def jobState? (db : Db) (j : String) : Option JobState :=
  (db.jobs.find? j).map (·.jobState)

def filesOf (db : Db) (j : String) : List FileRow :=
  db.files.select fun r => r.jobId = j

/-- At most one file of the job is in progress. -/
def AtMostOneLive (j : String) (db : Db) : Prop :=
  (db.filesOf j).countP (·.fileState.inProgress) ≤ 1

def dmsOf (db : Db) (j : String) : List DmRow :=
  db.dms.select fun r => r.jobId = j

end Db

end Fts3.MySql
