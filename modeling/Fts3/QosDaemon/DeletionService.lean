import Fts3.Machine.Run
import Fts3.MySql.HashSegments
import Fts3.MySql.Lemmas.FetchedDeletions
import Fts3.QosDaemon.DeletionTask

/-!
# The deletion service

`FetchDeletion`, its tasks and `DeletionStateUpdater` on any number of hosts that share the database. A step is a
transaction, the queries of a fetch, a section under the lock of the updater or the call of gfal2, and those of the users
and of the server come between them in any order.
-/

namespace Fts3.QosDaemon

open Fts3.Machine Fts3.MySql

/-! ## The daemons -/

/-- What `getFilesForDeletion` has read and not stored yet. -/
structure SelectedDeletions where
  messages : List (MinFileStatus DmState)
  delOps : List DeleteOperation

structure DeletionDaemon where
  node : Node
  /-- the daemon runs, and has called `requeueStartedDeletes` -/
  up : Bool := false
  selected : Option SelectedDeletions := none
  tasks : List JobContext := []
  /-- what the running tasks have still to report -/
  reporting : List (MinFileStatus DmState) := []
  /-- the vectors of the updater, and its queue in the messaging directory -/
  updates : List (MinFileStatus DmState) := []
  tmp : List (MinFileStatus DmState) := []
  messages : List (MinFileStatus DmState) := []

/-- A file of a task that has run, with what the storage has answered. -/
structure AnsweredDeletion where
  entry : Entry
  answer : Answer

structure DeletionService where
  db : Db
  daemons : List DeletionDaemon
  answered : List AnsweredDeletion := []

/-- What a daemon does. -/
inductive DaemonEvent where
  | start
  /-- `requeueStartedDeletes` throws, which is only logged -/
  | startFails
  | select
  /-- a query throws, after the queue has been read -/
  | selectFails
  | store (setup : FetchDeletion.Triplet → Gfal2Setup)
  | storeFails (setup : FetchDeletion.Triplet → Gfal2Setup)
  /-- it throws once the first transaction has been committed -/
  | storeThrows (setup : FetchDeletion.Triplet → Gfal2Setup)
  | run (k : Nat) (answer : Answer)
  | report (k : Nat)
  | wake
  | flush
  | flushFails
  /-- it throws once the first transaction has been committed -/
  | flushThrows
  /-- `recover` at the shutdown -/
  | recover
  | exit

inductive ServiceEvent where
  | daemon (i : Nat) (e : DaemonEvent)
  /-- the second transaction of `updateDeletionsState` -/
  | aggregate (jobIds : List String)
  | cancel (fileId : Nat)
  | fixDeleteInconsistencies (jobId : String)
  | submit (r : DmRow)

/-- What is read from the queue has no `retry`. -/
def readBack (message : MinFileStatus DmState) : MinFileStatus DmState :=
  { message with retry := false }

namespace DeletionDaemon

/-- The contexts of the fetched deletions become tasks. -/
def startTasks (d : DeletionDaemon) (setup : FetchDeletion.Triplet → Gfal2Setup) (delOps : List DeleteOperation) :
    DeletionDaemon :=
  { d with
    selected := none
    tasks := d.tasks ++ ((FetchDeletion.contexts delOps).entries.filter fun e => (setup e.1).isReady).map (·.2)
    updates := d.updates ++ (FetchDeletion.contexts delOps).entries.flatMap fun e => setProxy (setup e.1) e.2 }

/-- The handlers of `getFilesForDeletion` and of the updater write the states into the queue on the disk, whatever has
been committed; the updater also puts them back. -/
def saveStates (d : DeletionDaemon) (states : List (MinFileStatus DmState)) : DeletionDaemon :=
  { d with messages := d.messages ++ states }

def putBack (d : DeletionDaemon) : DeletionDaemon :=
  { d with updates := d.updates ++ d.tmp, tmp := [], messages := d.messages ++ d.tmp }

def step (db : Db) (d : DeletionDaemon) : DaemonEvent → Db × DeletionDaemon
  | .start => if d.up then (db, d) else (DeletionStep.exec (.requeue d.node) db, { d with up := true })
  | .startFails => (db, { d with up := true })
  | .select =>
      if d.up ∧ d.selected.isNone then
        (db,
          { d with
            selected := some ⟨d.messages.map readBack, (selectDeletions d.node).answer Stmt.exec db⟩
            messages := [] })
      else (db, d)
  | .selectFails => if d.up ∧ d.selected.isNone then (db, { d with messages := [] }) else (db, d)
  | .store setup =>
      match d.selected with
      | none => (db, d)
      | some s => (DeletionStep.exec (.store d.node (startedStates s.messages s.delOps)) db, d.startTasks setup s.delOps)
  | .storeFails setup =>
      match d.selected with
      | none => (db, d)
      | some s => (db, (d.startTasks setup s.delOps).saveStates (startedStates s.messages s.delOps))
  | .storeThrows setup =>
      match d.selected with
      | none => (db, d)
      | some s =>
          (DeletionStep.exec (.store d.node (startedStates s.messages s.delOps)) db,
            (d.startTasks setup s.delOps).saveStates (startedStates s.messages s.delOps))
  | .run k answer =>
      match d.tasks[k]? with
      | none => (db, d)
      | some ctx =>
          (db, { d with tasks := d.tasks.eraseIdx k, reporting := d.reporting ++ DeletionTask.run answer ctx })
  | .report k =>
      match d.reporting[k]? with
      | none => (db, d)
      | some u => (db, { d with reporting := d.reporting.eraseIdx k, updates := d.updates ++ [u] })
  | .wake => if d.tmp.isEmpty then (db, { d with updates := [], tmp := d.updates }) else (db, d)
  | .flush => (DeletionStep.exec (.store d.node d.tmp) db, { d with tmp := [] })
  | .flushFails => (db, d.putBack)
  | .flushThrows => (DeletionStep.exec (.store d.node d.tmp) db, d.putBack)
  | .recover => (db, { d with messages := d.messages ++ d.updates })
  | .exit => (db, { node := d.node, messages := d.messages })

/-- The files that the tasks of the event have asked the storage about. -/
def answered (d : DeletionDaemon) : DaemonEvent → List AnsweredDeletion
  | .run k answer =>
      match d.tasks[k]? with
      | none => []
      | some ctx => ctx.jobs.map fun e => ⟨e, answer⟩
  | _ => []

/-- The row belongs to the segment of the daemon. -/
def Holds (d : DeletionDaemon) (r : DmRow) : Prop :=
  d.node.hashStart ≤ r.hashedId ∧ r.hashedId ≤ d.node.hashEnd

/-- The updates that are not in the database. -/
def pending (d : DeletionDaemon) : List (MinFileStatus DmState) :=
  d.reporting ++ (d.tmp ++ d.updates)

/-- The deletions that the daemon has in its hands: those of its tasks, and those that are to be reported. -/
def inFlight (d : DeletionDaemon) : List (String × Nat) :=
  (d.tasks.flatMap fun ctx => ctx.jobs.map (·.id)) ++ d.pending.map fun u => (u.jobId, u.fileId)

end DeletionDaemon

/-- A new deletion. -/
def submittedDm (r : DmRow) : DmRow :=
  { r with fileState := .delete, startTime := none }

theorem nodup_submitted {dms : Sql.Table DmRow.fileId} {r : DmRow} (h : dms.find? r.fileId = none) :
    ((dms.rows ++ [submittedDm r]).map (·.fileId)).Nodup := by
  rw [List.map_append, List.nodup_append]
  refine ⟨dms.nodup, List.nodup_singleton _, ?_⟩
  rintro f hf f' hf' rfl
  obtain ⟨r', hr', rfl⟩ := List.mem_map.mp hf
  have hsame : r'.fileId = r.fileId := by simpa [submittedDm] using hf'
  rw [← hsame, Sql.Table.find?_key hr'] at h
  cases h

/-- An `INSERT` into `t_dm`; the key is unique. -/
def insertDm (db : Db) (r : DmRow) : Db :=
  if h : db.dms.find? r.fileId = none then { db with dms := ⟨db.dms.rows ++ [submittedDm r], nodup_submitted h⟩ }
  else db

namespace DeletionService

def step (s : DeletionService) : ServiceEvent → DeletionService
  | .daemon i e =>
      match s.daemons[i]? with
      | none => s
      | some d =>
          { db := (d.step s.db e).1
            daemons := s.daemons.set i (d.step s.db e).2
            answered := s.answered ++ d.answered e }
  | .aggregate jobIds => { s with db := DeletionStep.exec (.aggregate jobIds) s.db }
  | .cancel f => { s with db := DeletionStep.exec (.cancel f) s.db }
  | .fixDeleteInconsistencies j => { s with db := ((Stmt.dm (.fixDeleteInconsistencies j)).exec s.db).2 }
  | .submit r => { s with db := insertDm s.db r }

end DeletionService

end Fts3.QosDaemon
