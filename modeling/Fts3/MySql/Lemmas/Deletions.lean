import Fts3.MySql.Lemmas.Staging

/-!
# The statuses of deletions

What each status of `updateDeletionsState` stores in `t_dm`, without interference.
-/

namespace Fts3.MySql

open Fts3.Sql

theorem exec_dm_find? (u : DmUpdate) (db : Db) (f : Nat) :
    ((Stmt.dm u).exec db).2.dms.find? f = (db.dms.find? f).map fun r => if u.selects r then u.sets db.now r else r :=
  Table.find?_update _ _ _ (u.sets_fileId db.now) f

/-- The retries of the deletion so far, as `resetForRetryDelete` reads them. -/
def deletionTimes (i : MinFileStatus DmState) (db : Db) : Option Int :=
  match (db.dms.find? i.fileId).filter fun r => r.jobId = i.jobId with
  | none => some 0
  | some r => r.retry

/-- The deletion is tried again. -/
def retriesDeletion (i : MinFileStatus DmState) (db : Db) : Bool :=
  i.retry && retryLeft ((jobRetries i.jobId).run Stmt.exec db).1.1
    (match (db.dms.find? i.fileId).filter fun r => r.jobId = i.jobId with
      | none => some 0
      | some r => r.retry)

/-- The `UPDATE` that queues the deletion again. -/
def retryDeletionUpdate (i : MinFileStatus DmState) (db : Db) : DmUpdate :=
  .resetForRetryDelete i.fileId i.jobId (((jobRetries i.jobId).run Stmt.exec db).1.1.getD 0 + 1)
    (retryTime ((jobRetries i.jobId).run Stmt.exec db).1.2 db.now)
    (if 0 < ((jobRetries i.jobId).run Stmt.exec db).1.2 then ["FINISHED", "DELETE", "FAILED", "CANCELED"]
      else ["FINISHED", "SUBMITTED", "FAILED", "CANCELED"])

theorem resetForRetryDelete_eq (i : MinFileStatus DmState) : resetForRetryDelete i.fileId i.jobId i.retry =
    retryTx i.retry i.jobId (deletionTimes i) (fun limit times =>
      .dm (.resetForRetryDelete i.fileId i.jobId (limit.1.getD 0 + 1) (retryTime limit.2 times.2)
        (if 0 < limit.2 then ["FINISHED", "DELETE", "FAILED", "CANCELED"]
          else ["FINISHED", "SUBMITTED", "FAILED", "CANCELED"])))
      (fun _ => true) false := by
  unfold resetForRetryDelete retryTx deletionTimes
  cases i.retry with
  | false => rfl
  | true =>
      simp only [if_true, Proc.bind_eq, select_bind]
      congr 1
      funext limit
      congr 1
      funext db
      cases (db.dms.find? i.fileId).filter fun r => decide (r.jobId = i.jobId) with
      | none => rfl
      | some r => rfl

theorem resetForRetryDelete_run (i : MinFileStatus DmState) (db : Db) :
    (resetForRetryDelete i.fileId i.jobId i.retry).run Stmt.exec db =
      if retriesDeletion i db = true then (true, ((Stmt.dm (retryDeletionUpdate i db)).exec db).2)
      else (false, db) := by
  rw [resetForRetryDelete_eq, retryTx_run]
  rfl

theorem storeDeletion_failed {node : Node} {i : MinFileStatus DmState} (hstate : i.state = .failed) (db : Db) :
    (storeDeletion node i).alone db = ((Stmt.dm (if retriesDeletion i db then retryDeletionUpdate i db
      else .deletionTerminal i.fileId i.state i.reason)).exec db).2 := by
  simp only [storeDeletion, hstate, Op.alone, Proc.bind_eq, Proc.run_bind, resetForRetryDelete_run]
  cases hretry : retriesDeletion i db with
  | false => rfl
  | true => rfl

/-- The `UPDATE` of one status. -/
def deletionUpdate (node : Node) (i : MinFileStatus DmState) (db : Db) : DmUpdate :=
  match i.state with
  | .started => .deletionStarted i.fileId node.hostname
  | .failed =>
      if retriesDeletion i db then retryDeletionUpdate i db else .deletionTerminal i.fileId i.state i.reason
  | _ => .deletionTerminal i.fileId i.state i.reason

theorem storeDeletion_alone (node : Node) (i : MinFileStatus DmState) (db : Db) :
    (storeDeletion node i).alone db = ((Stmt.dm (deletionUpdate node i db)).exec db).2 := by
  cases hstate : i.state with
  | failed => simp only [storeDeletion_failed hstate, deletionUpdate, hstate]
  | started => simp [storeDeletion, deletionUpdate, hstate, Op.alone]
  | delete => simp [storeDeletion, deletionUpdate, hstate, Op.alone]
  | finished => simp [storeDeletion, deletionUpdate, hstate, Op.alone]
  | canceled => simp [storeDeletion, deletionUpdate, hstate, Op.alone]

end Fts3.MySql
