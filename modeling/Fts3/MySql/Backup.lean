import Fts3.MySql.Transfers
import Fts3.MySql.HeartBeat

/-!
# Archival of old jobs

`MySqlAPI::backup`. It runs its statements through `lift` and beats through `beat`, so that the same text stands for a run
without errors and for one whose handlers go on after a failed heartbeat.
-/

namespace Fts3.MySql

open Fts3.Sql

def getDrainInternal (node : Node) : Op Bool :=
  select .rows fun db =>
    ((db.hosts.find? fun h => h.hostname = node.hostname && h.serviceName = "fts_server").bind (·.drain)).any (· ≠ 0)

/-- The numbers of removed rows that `backup` reports. -/
structure Removed where
  nJobs : Nat := 0
  nFiles : Nat := 0
  nDeletions : Nat := 0
  deriving DecidableEq, Repr

def Removed.add (t : Removed) (count : Nat) (bulk : Nat × Nat) : Removed where
  nJobs := t.nJobs + count
  nFiles := t.nFiles + bulk.1
  nDeletions := t.nDeletions + bulk.2

/-- The locals of the loop: `jobIds` is the list that `jobIdStmt` holds. -/
structure BackupLoop where
  count : Nat := 0
  countBeat : Nat := 0
  jobIds : List String := []
  removed : Removed := {}

def JobRow.isOld (intervalDays : Int) (now : Nat) (j : JobRow) : Bool :=
  j.jobFinished.any (olderThan intervalDays now)

def Db.oldJobs (intervalDays : Int) (db : Db) : List String :=
  (db.jobs.select (JobRow.isOld intervalDays db.now)).map (·.jobId)

section backup

variable {m : Type → Type} [Monad m] (lift : {β : Type} → Op β → m β) (beat : m Nat) (node : Node) (doBackup : Bool)
  (intervalDays bulkSize : Int)

/-- Every thousand jobs: update the heartbeat and look whether the host drains. -/
def beatAndDrain (countBeat : Nat) : m Bool :=
  if countBeat = 1000 then do
    let _ ← beat
    lift (getDrainInternal node)
  else pure false

/-- The loop over the old jobs, and whether it was left because of a drain. -/
def backupJobs : List String → BackupLoop → m (Removed × Bool)
  | [], l => pure (l.removed, false)
  | jobId :: jobs, l => do
      let count := l.count + 1
      let countBeat := l.countBeat + 1
      let drain ← beatAndDrain lift beat node countBeat
      if drain then pure (l.removed, true)
      else do
        let countBeat := if countBeat = 1000 then 0 else countBeat
        let jobIds := l.jobIds ++ [jobId]
        if (count : Int) = bulkSize then do
          let bulk ← lift (backupBulk doBackup jobIds)
          backupJobs jobs { countBeat, removed := l.removed.add count bulk }
        else backupJobs jobs { count, countBeat, jobIds, removed := l.removed }

def deleteOldRows : Op Unit := do
  beginTx
  let _ ← execute (.optimizer (.deleteOldEvolution intervalDays))
  commit
  beginTx
  let _ ← execute (.deleteOldRetryErrors intervalDays)
  commit

def backup : m Removed := do
  -- Total number of working instances, prevent from starting a second one
  let hostsRunningBackup ← lift (select .rows fun db => db.hosts.countP (·.isAlive (30 * 60) db.now "fts_backup"))
  if 0 < hostsRunningBackup then pure {}
  else do
    let start ← beat
    if start = 0 then do
      let jobs ← lift (select .rows (Db.oldJobs intervalDays))
      let (removed, drain) ← backupJobs lift beat node doBackup bulkSize jobs {}
      if drain then pure removed
      else do
        lift (deleteOldRows intervalDays)
        pure removed
    else pure {}

end backup

/-- The first hash value of the node, after its heartbeat as a host that runs the backup. -/
def backupBeat (node : Node) : Op Nat := do
  let segment ← updateHeartBeatInternal node "fts_backup"
  pure (segment.elim node.hashStart (·.start))

end Fts3.MySql
