import Fts3.MySql.Lemmas.Stranded

/-!
# The statuses of staging requests

What each status of `updateStagingState` stores in `t_file`, without interference.
-/

namespace Fts3.MySql

open Fts3.Sql

/-! ## Several `UPDATE`s -/

section updates

variable {db : Db}

def FileUpdate.run (now : Nat) (us : List FileUpdate) (r : FileRow) : FileRow :=
  us.foldl (fun r u => if u.selects r then u.sets now r else r) r

@[simp] theorem FileUpdate.run_nil (now : Nat) (r : FileRow) : FileUpdate.run now [] r = r := rfl

theorem FileUpdate.run_cons (now : Nat) (u : FileUpdate) (us : List FileUpdate) (r : FileRow) :
    FileUpdate.run now (u :: us) r = FileUpdate.run now us (if u.selects r then u.sets now r else r) := rfl

/-- The database has been changed by these `UPDATE`s on `t_file`, and perhaps by `INSERT`s of retry errors. -/
def Db.StoresFiles (us : List FileUpdate) (db db' : Db) : Prop :=
  (∀ f, db'.files.find? f = (db.files.find? f).map (FileUpdate.run db.now us)) ∧
    db'.jobs = db.jobs ∧ db'.serverConfig = db.serverConfig ∧ db'.now = db.now

theorem storesFiles_nil (db : Db) : db.StoresFiles [] db :=
  ⟨fun f => by rw [show FileUpdate.run db.now [] = id from rfl, Option.map_id, id], rfl, rfl, rfl⟩

theorem storesFiles_one (u : FileUpdate) (db : Db) : db.StoresFiles [u] ((Stmt.file u).exec db).2 :=
  ⟨fun f => exec_file_find? u db f, rfl, rfl, rfl⟩

theorem Db.StoresFiles.append {us vs : List FileUpdate} {db₁ db₂ : Db} (h₁ : db.StoresFiles us db₁)
    (h₂ : db₁.StoresFiles vs db₂) : db.StoresFiles (us ++ vs) db₂ := by
  refine ⟨fun f => ?_, h₂.2.1.trans h₁.2.1, h₂.2.2.1.trans h₁.2.2.1, h₂.2.2.2.trans h₁.2.2.2⟩
  rw [h₂.1, h₁.1, Option.map_map, h₁.2.2.2]
  congr 1
  funext r
  simp [FileUpdate.run]

end updates

/-! ## Retries -/

section retry

variable {i : MinFileStatus FileState} {db : Db}

theorem jobRetries_run (j' : String) (db : Db) : ((jobRetries j').run Stmt.exec db).2 = db :=
  (issues_jobRetries (P := fun _ => False) j').run (I := (· = db)) (fun _ _ h => h.elim) rfl

/-- What `resetForRetryStaging` and `resetForRetryDelete` have in common: with a retry left, a transaction of their own. -/
def retryTx {γ : Type} (retry : Bool) (j : String) (times : Db → Option Int) (stmt : Option Int × Int → Option Int × Nat → Stmt)
    (yes : Option Int → γ) (no : γ) : Op γ :=
  if retry then do
    let limit ← jobRetries j
    let times ← select .rows fun db => (times db, db.now)
    if retryLeft limit.1 times.1 then do
      beginTx
      let _ ← execute (stmt limit times)
      commit
      pure (yes times.1)
    else pure no
  else pure no

theorem retryTx_run {γ : Type} (retry : Bool) (j : String) (times : Db → Option Int)
    (stmt : Option Int × Int → Option Int × Nat → Stmt) (yes : Option Int → γ) (no : γ) (db : Db) :
    (retryTx retry j times stmt yes no).run Stmt.exec db =
    if (retry && retryLeft ((jobRetries j).run Stmt.exec db).1.1 (times db)) = true then
      (yes (times db), ((stmt ((jobRetries j).run Stmt.exec db).1 (times db, db.now)).exec db).2)
    else (no, db) := by
  unfold retryTx
  cases retry with
  | false => rfl
  | true =>
      simp only [Bool.true_and, if_true, Proc.bind_eq, Proc.run_bind, jobRetries_run, select_bind, Proc.run_select]
      split
      · rfl
      · rfl

/-- The retries of the file so far, as `resetForRetryStaging` reads them. -/
def stagingTimes (i : MinFileStatus FileState) (db : Db) : Option Int :=
  match (db.files.find? i.fileId).filter fun r => r.jobId = i.jobId with
  | none => some 0
  | some r => r.retry

/-- The staging request is tried again. -/
def retriesStaging (i : MinFileStatus FileState) (db : Db) : Bool :=
  i.retry && retryLeft ((jobRetries i.jobId).run Stmt.exec db).1.1
    (match (db.files.find? i.fileId).filter fun r => r.jobId = i.jobId with
      | none => some 0
      | some r => r.retry)

/-- The `UPDATE` that sends the file back to staging. -/
def retryStagingUpdate (i : MinFileStatus FileState) (db : Db) : FileUpdate :=
  .resetForRetryStaging i.fileId i.jobId ((stagingTimes i db).getD 0 + 1)
    (retryTime ((jobRetries i.jobId).run Stmt.exec db).1.2 db.now)

theorem resetForRetryStaging_eq (i : MinFileStatus FileState) : resetForRetryStaging i.fileId i.jobId i.retry =
    retryTx i.retry i.jobId (stagingTimes i) (fun limit times =>
      .file (.resetForRetryStaging i.fileId i.jobId (times.1.getD 0 + 1) (retryTime limit.2 times.2)))
      (fun times => some (times.getD 0 + 1)) none := by
  unfold resetForRetryStaging retryTx stagingTimes
  cases i.retry with
  | false => rfl
  | true =>
      simp only [if_true, Proc.bind_eq, select_bind]
      congr 1
      funext limit
      congr 1
      funext db
      cases (db.files.find? i.fileId).filter fun r => decide (r.jobId = i.jobId) with
      | none => rfl
      | some r => rfl

/-- Alone, `resetForRetryStaging` sends the file back to staging or does nothing. -/
theorem resetForRetryStaging_run (i : MinFileStatus FileState) (db : Db) :
    (resetForRetryStaging i.fileId i.jobId i.retry).run Stmt.exec db =
      if retriesStaging i db = true then
        (some ((stagingTimes i db).getD 0 + 1), ((Stmt.file (retryStagingUpdate i db)).exec db).2)
      else (none, db) := by
  rw [resetForRetryStaging_eq, retryTx_run]
  rfl

end retry

/-! ## One status -/

/-- One turn of the loop of `updateStagingState`. -/
def storeStagingState (node : Node) : MinFileStatus FileState × Nat → Op Unit
  | (i, hashedId) =>
      match i.state with
      | .started => do
          let _ ← updateFile (.stagingStarted i.fileId node.hostname)
          pure ()
      | .failed => stagingFailed i
      | _ => stagingEnded node i hashedId

def stageInOnly (f : Nat) (db : Db) : Bool :=
  db.files.matched (fun r => r.fileId = f && r.sourceSurl.isSome && r.sourceSurl = r.destSurl) ≠ 0

/-- The job type that `updateStagingState` reads. -/
def stagingJobType (node : Node) (j : String) (db : Db) : JobType :=
  ((db.jobs.find? j).map (·.type)).getD node.uninitialized

/-- The hop that a staging status brings into use. -/
def stagingHop (node : Node) (i : MinFileStatus FileState) (db : Db) : Option Nat :=
  if i.state = .finished ∧ stageInOnly i.fileId db = true ∧ stagingJobType node i.jobId db = .multiHop ∧
      minNotUsed i.jobId db ≠ 0 then
    some (minNotUsed i.jobId db)
  else none

/-- The `UPDATE` with which a staging request ends that does not fail. -/
def stagingEndUpdate (i : MinFileStatus FileState) (hashedId : Nat) (db : Db) : FileUpdate :=
  if i.state = .submitted ∨ i.state = .finished ∧ stageInOnly i.fileId db = false then
    .stagingSubmitted i.fileId hashedId
  else .stagingTerminal i.fileId i.state (if i.state = .finished then "" else i.reason)

/-- The `UPDATE`s of one status. -/
def stagingUpdates (node : Node) (op : MinFileStatus FileState × Nat) (db : Db) : List FileUpdate :=
  match op.1.state with
  | .started => [.stagingStarted op.1.fileId node.hostname]
  | .failed =>
      if retriesStaging op.1 db then [retryStagingUpdate op.1 db]
      else [.stagingTerminal op.1.fileId op.1.state op.1.reason]
  | _ =>
      (stagingHop node op.1 db).toList.map .useNextHop ++
        [stagingEndUpdate op.1 op.2 db]

theorem stagingFailed_stores {i : MinFileStatus FileState} (db : Db) :
    db.StoresFiles (if retriesStaging i db then [retryStagingUpdate i db]
      else [.stagingTerminal i.fileId i.state i.reason]) ((stagingFailed i).alone db) := by
  simp only [stagingFailed, Op.alone, Proc.bind_eq, Proc.run_bind, resetForRetryStaging_run]
  cases hretry : retriesStaging i db with
  | false => exact storesFiles_one _ db
  | true =>
      simp only [if_true]
      split
      · exact storesFiles_one _ db
      · exact storesFiles_one _ db

theorem useNextHop_stores (j : String) (db : Db) :
    db.StoresFiles (if minNotUsed j db ≠ 0 then [.useNextHop (minNotUsed j db)] else []) ((useNextHop j).alone db) := by
  simp only [useNextHop, getNextHop, Op.alone, Proc.bind_eq, select_bind, Proc.run_select]
  by_cases hnone : minNotUsed j db = 0
  · rw [if_pos hnone, if_neg (not_not.mpr hnone)]
    exact storesFiles_nil db
  · rw [if_neg hnone, if_pos hnone]
    exact storesFiles_one _ db

theorem stagingEnded_stores (node : Node) (i : MinFileStatus FileState) (hashedId : Nat) (db : Db) :
    db.StoresFiles ((stagingHop node i db).toList.map .useNextHop ++ [stagingEndUpdate i hashedId db])
      ((stagingEnded node i hashedId).alone db) := by
  have hend : ∀ (st : FileState) (db₁ : Db), (if st = .submitted then FileUpdate.stagingSubmitted i.fileId hashedId
      else .stagingTerminal i.fileId st (if i.state = .finished then "" else i.reason)) = stagingEndUpdate i hashedId db →
      db₁.StoresFiles [stagingEndUpdate i hashedId db] (Op.alone (if st = .submitted then do
        let _ ← updateFile (.stagingSubmitted i.fileId hashedId)
        pure ()
      else do
        let _ ← updateFile (.stagingTerminal i.fileId st (if i.state = .finished then "" else i.reason))
        pure () : Op Unit) db₁) := by
    intro st db₁ hu
    rw [← hu]
    split
    · exact storesFiles_one _ db₁
    · exact storesFiles_one _ db₁
  simp only [stagingEnded, Op.alone, Proc.bind_eq, select_bind, Proc.run_select]
  by_cases hin : db.files.matched (fun r =>
    decide (r.fileId = i.fileId) && r.sourceSurl.isSome && decide (r.sourceSurl = r.destSurl)) = 0
  · have honly : stageInOnly i.fileId db = false := by simp [stageInOnly, hin]
    have hhop : stagingHop node i db = none := by simp [stagingHop, honly]
    rw [if_pos hin, hhop]
    refine hend _ db ?_
    simp only [stagingEndUpdate, honly, hin, true_and, and_true]
    by_cases hfin : i.state = .finished
    · simp [hfin]
    · simp [hfin]
  · have honly : stageInOnly i.fileId db = true := by simp [stageInOnly, hin]
    have hupdate : (if i.state = .submitted then FileUpdate.stagingSubmitted i.fileId hashedId
        else .stagingTerminal i.fileId i.state (if i.state = .finished then "" else i.reason)) =
        stagingEndUpdate i hashedId db := by
      simp [stagingEndUpdate, honly]
    simp only [hin, false_and, if_false, Proc.run_select]
    by_cases hgo : i.state = .finished ∧ stagingJobType node i.jobId db = .multiHop
    · have hnext := useNextHop_stores i.jobId db
      rw [stagingJobType] at hgo
      have hhop : (stagingHop node i db).toList.map FileUpdate.useNextHop =
          if minNotUsed i.jobId db ≠ 0 then [.useNextHop (minNotUsed i.jobId db)] else [] := by
        by_cases hnone : minNotUsed i.jobId db = 0 <;>
          simp [stagingHop, stagingJobType, hgo.1, hgo.2, honly, hnone]
      rw [if_pos hgo, Proc.run_bind, hhop]
      exact hnext.append (hend _ _ hupdate)
    · have hhop : stagingHop node i db = none := by
        rw [stagingHop, if_neg]
        exact fun h => hgo ⟨h.1, h.2.2.1⟩
      rw [stagingJobType] at hgo
      rw [if_neg hgo, hhop]
      exact hend _ db hupdate

theorem storeStagingState_stores (node : Node) (op : MinFileStatus FileState × Nat) (db : Db) :
    db.StoresFiles (stagingUpdates node op db) ((storeStagingState node op).alone db) := by
  obtain ⟨i, hashedId⟩ := op
  simp only [storeStagingState, stagingUpdates]
  split
  · exact storesFiles_one _ db
  · exact stagingFailed_stores db
  · exact stagingEnded_stores node i hashedId db

end Fts3.MySql
