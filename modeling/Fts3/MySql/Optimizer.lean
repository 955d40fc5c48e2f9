import Fts3.MySql.Op

/-!
# The data source of the optimizer

`OptimizerDataSource.cpp`: what the optimizer reads and stores about a pair of storages. Names of storages are taken up to
the comparison of their columns, which ignores case.
-/

namespace Fts3.MySql

open Fts3.Sql

structure Pair where
  source : String
  destination : String
  deriving DecidableEq, Repr

structure PairState where
  timestamp : Int := 0
  throughput : Rat := 0
  avgDuration : Int := 0
  successRate : Rat := 0
  retryCount : Int := 0
  activeCount : Int := 0
  queueSize : Int := 0
  ema : Rat := 0
  filesizeAvg : Rat := 0
  filesizeStdDev : Rat := 0
  /-- The last decision. -/
  connections : Int := 1

/-! ## Links -/

inductive OptimizerMode where
  | disabled
  | conservative
  | normal
  | aggressive
  deriving DecidableEq, Repr

namespace OptimizerMode

def toInt : OptimizerMode → Int
  | disabled => 0
  | conservative => 1
  | normal => 2
  | aggressive => 3

instance : LE OptimizerMode := ⟨fun a b => a.toInt ≤ b.toInt⟩

instance (a b : OptimizerMode) : Decidable (a ≤ b) :=
  inferInstanceAs (Decidable (a.toInt ≤ b.toInt))

/-- `type_conversion<OptimizerMode>`. -/
def ofInt (v : Option Int) : OptimizerMode :=
  match v with
  | none => disabled
  | some v =>
      if 3 < v then aggressive
      else if v < 0 then disabled
      else if v = 0 then disabled
      else if v = 1 then conservative
      else if v = 2 then normal
      else aggressive

end OptimizerMode

structure Range where
  min : Int := 0
  max : Int := 0
  /-- Set to true if min,max is configured specifically, or is a *->* configuration. -/
  specific : Bool := false
  /-- Set to true if min,max is configured with SE limits instead of link configuration. -/
  storageSpecific : Bool := false
  deriving DecidableEq, Repr

structure StorageLimits where
  source : Int := 0
  destination : Int := 0
  throughputSource : Rat := 0
  throughputDestination : Rat := 0

def Db.link? (source dest : String) (db : Db) : Option LinkConfigRow :=
  db.linkConfig.find? fun r => r.sourceSe = source && r.destSe = dest

/-- The first of the four rows that a link may have, and whether it names one of the storages. -/
def Db.linkConfig? (pair : Pair) (db : Db) : Option (Bool × LinkConfigRow) :=
  (((db.link? pair.source pair.destination).or (db.link? pair.source "*")).or (db.link? "*" pair.destination)).map
    (true, ·) |>.or ((db.link? "*" "*").map (false, ·))

/-- Without a row the mode is conservative. -/
def Db.optimizerMode (pair : Pair) (db : Db) : OptimizerMode :=
  match db.linkConfig? pair with
  | none => .conservative
  | some (_, r) => .ofInt r.optimizerMode

def getOptimizerModeInner (pair : Pair) : Op OptimizerMode :=
  select .rows (Db.optimizerMode pair)

/-- The row of `t_se` for the storage, else that for any. -/
def Db.se? (storage : String) (db : Db) : Option SeRow :=
  (db.se.find? fun r => r.storage = storage).or (db.se.find? fun r => r.storage = "*")

/-- `NULL` leaves the limit at zero. -/
def Db.outboundLimits (storage : String) (db : Db) : Rat × Int :=
  match db.se? storage with
  | none => (0, 0)
  | some r => (r.outboundMaxThroughput.getD 0, r.outboundMaxActive.getD 0)

def Db.inboundLimits (storage : String) (db : Db) : Rat × Int :=
  match db.se? storage with
  | none => (0, 0)
  | some r => (r.inboundMaxThroughput.getD 0, r.inboundMaxActive.getD 0)

/-- Link working range. One `NULL` and neither limit is configured. -/
def Db.linkRange (pair : Pair) (db : Db) : Range :=
  match db.linkConfig? pair with
  | none => {}
  | some (configured, r) =>
      match r.minActive, r.maxActive with
      | some min, some max => { min, max, specific := configured }
      | _, _ => { min := 0, max := 0, specific := configured }

def getPairLimits (pair : Pair) : Op (Range × StorageLimits) := do
  -- Storage limits
  let source ← select .rows (Db.outboundLimits pair.source)
  let dest ← select .rows (Db.inboundLimits pair.destination)
  let range ← select .rows (Db.linkRange pair)
  pure (range, { source := source.2, destination := dest.2, throughputSource := source.1, throughputDestination := dest.1 })

/-- The current value; zero without a row, or with `NULL`. -/
def getOptimizerValue (pair : Pair) : Op Int :=
  select .rows fun db =>
    ((db.optimizer.find? fun r => r.sourceSe = pair.source && r.destSe = pair.destination).bind (·.active)).getD 0

/-! ## The success rate -/

/-- What the loop of `getSuccessRateForPair` counts. -/
structure Tally where
  nFailedLastHour : Nat := 0
  nFinishedLastHour : Nat := 0
  retryCount : Int := 0
  deriving DecidableEq, Repr

namespace Tally

def count (n : Tally) (r : FileRow) : Tally :=
  let retryNum := r.retry.getD 0
  let isRecoverable := r.currentFailures.getD 0 ≠ 0
  -- Recoverable FAILED
  if r.fileState = .failed ∧ isRecoverable then { n with nFailedLastHour := n.nFailedLastHour + 1 }
  -- Submitted, with a retry set
  else if r.fileState = .submitted ∧ retryNum ≠ 0 then
    { n with nFailedLastHour := n.nFailedLastHour + 1, retryCount := n.retryCount + retryNum }
  -- FINISHED
  else if r.fileState = .finished ∨ r.fileState = .archiving then
    { n with nFinishedLastHour := n.nFinishedLastHour + 1 }
  else n

def nTotal (n : Tally) : Nat := n.nFinishedLastHour + n.nFailedLastHour

/-- Round up efficiency. If there are no terminal, use 100% success rate rather than 0 to avoid the optimizer stepping
back. -/
def successRate (n : Tally) : Nat :=
  if 0 < n.nTotal then (n.nFinishedLastHour * 100 + n.nTotal - 1) / n.nTotal else 100

end Tally

/-- `finish_time > UTC_TIMESTAMP() - interval :calculateTimeFrame SECOND`. -/
def FileRow.finishedWithin (interval : Int) (now : Nat) (r : FileRow) : Bool :=
  r.finishTime.any fun t => (now : Int) - interval < t

/-- The rows that `getSuccessRateForPair` reads. -/
def Db.recentOfPair (pair : Pair) (interval : Int) (db : Db) : List FileRow :=
  db.files.select fun r => r.sourceSe = pair.source && r.destSe = pair.destination &&
    r.finishedWithin interval db.now && r.fileState ≠ .notUsed

def Db.tally (pair : Pair) (interval : Int) (db : Db) : Tally :=
  (db.recentOfPair pair interval).foldl Tally.count {}

/-- The success rate in percent, and what is stored in `retryCount`. -/
def getSuccessRateForPair (pair : Pair) (interval : Int) : Op (Nat × Int) := do
  let n ← select .rows (Db.tally pair interval)
  pure (n.successRate, n.retryCount)

/-! ## Decisions -/

/-- Set the new number of actives. -/
def setNewOptimizerValue (pair : Pair) (optimizerDecision : Int) (ema : Rat) : Op Unit := do
  beginTx
  let _ ← execute (.optimizer (.setNewOptimizerValue pair.source pair.destination optimizerDecision ema))
  commit

/-- Insert the optimizer decision into the historical table. -/
def updateOptimizerEvolution (pair : Pair) (active diff : Int) (rationale : String) (newState : PairState) : Op Unit := do
  beginTx
  let _ ← execute (.optimizer (.updateOptimizerEvolution
    { sourceSe := pair.source, destSe := pair.destination, active, throughput := newState.throughput
      success := newState.successRate, rationale, diff, actualActive := newState.activeCount
      queueSize := newState.queueSize, ema := newState.ema, filesizeAvg := newState.filesizeAvg
      filesizeStddev := newState.filesizeStdDev }))
  commit

def storeOptimizerStreams (pair : Pair) (streams : Int) : Op Unit := do
  beginTx
  let _ ← execute (.optimizer (.storeOptimizerStreams pair.source pair.destination streams))
  commit

end Fts3.MySql
