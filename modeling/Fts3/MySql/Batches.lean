import Fts3.MySql.Lemmas.Deletions
import Fts3.Sql.Session

/-!
# Batches of statuses

The statuses of staging requests and of deletions are stored in batches, each in one transaction. If a statement throws,
the batch is handed in again. A status that is retried begins and commits a transaction of its own.
-/

namespace Fts3.MySql

open Fts3.Sql

/-- The database after the statement number `n` has thrown: the exception handlers roll back. -/
def Op.thrown {β : Type} (op : Op β) (n : Nat) (db : Db) : Db :=
  (op.attempt Stmt.exec n ⟨db, none⟩).2.committed

/-- Whichever statement of the first transaction throws, the table is as before. -/
def Op.Atomic {β γ τ : Type} (op : Op β) (first : Op γ) (table : Db → τ) (db : Db) : Prop :=
  ∀ n < first.count Stmt.exec ⟨db, none⟩, table (op.thrown n db) = table db

theorem controls_jobRetries {P : Tx → Prop} (j : String) : (jobRetries j).Controls P := by
  simp [jobRetries]

theorem jobRetries_congr {db db' : Db} (hjobs : db'.jobs = db.jobs) (hconfig : db'.serverConfig = db.serverConfig)
    (j : String) : ((jobRetries j).run Stmt.exec db').1 = ((jobRetries j).run Stmt.exec db).1 := by
  simp only [jobRetries, Proc.bind_eq, select_bind, Proc.run_select, hjobs]
  cases db.jobs.find? j with
  | none => simp [hconfig]
  | some job =>
      dsimp only
      split
      · simp [hconfig]
      · rfl

/-! ## Retries -/

section retryTx

variable {γ : Type} {retry : Bool} {j : String} {times : Db → Option Int} {stmt : Option Int × Int → Option Int × Nat → Stmt}
  {yes : Option Int → γ} {no : γ} {db : Db}

theorem retryTx_quiet (h : (retry && retryLeft ((jobRetries j).run Stmt.exec db).1.1 (times db)) = false) :
    (retryTx retry j times stmt yes no).Quiet Stmt.exec db := by
  unfold retryTx
  cases retry with
  | false => trivial
  | true =>
      rw [Bool.true_and] at h
      refine ((controls_jobRetries j).quiet db).bind ?_
      rw [jobRetries_run]
      simp only [Proc.bind_eq, select_bind, Proc.quiet_select, h]
      trivial

theorem retryTx_controls : (retryTx retry j times stmt yes no).Controls (· ≠ .rollback) := by
  unfold retryTx
  split
  · refine (controls_jobRetries j).bind fun _ => ?_
    simp
  · trivial

theorem retryTx_perform (h : (retry && retryLeft ((jobRetries j).run Stmt.exec db).1.1 (times db)) = true)
    (saved : Option Db) : ((retryTx retry j times stmt yes no).perform Stmt.exec ⟨db, saved⟩).2 =
      ⟨((stmt ((jobRetries j).run Stmt.exec db).1 (times db, db.now)).exec db).2, none⟩ := by
  obtain ⟨rfl, hleft⟩ := Bool.and_eq_true_iff.mp h
  rw [retryTx, if_pos rfl, Proc.bind_eq, Proc.perform_bind,
    (controls_jobRetries j).perform_reads (issues_jobRetries j)]
  simp only [Proc.bind_eq, select_bind, Proc.perform, hleft, if_true]
  rfl

end retryTx

theorem retryLeft_times {limit times : Option Int} (h : retryLeft limit times = true) :
    ∃ m l, times = some m ∧ limit = some l ∧ m ≤ l - 1 := by
  cases limit with
  | none => simp [retryLeft] at h
  | some l =>
      cases times with
      | none => simp [retryLeft] at h
      | some m =>
          simp only [retryLeft, Bool.and_eq_true, decide_eq_true_eq] at h
          exact ⟨m, l, rfl, rfl, h.2⟩

/-- What counts the retries does not become less. -/
def Grows (v : Db → Option Int) (db db' : Db) : Prop :=
  ∀ m, v db = some m → ∃ n, v db' = some n ∧ m ≤ n

theorem grows_forM {γ : Type} {v : Db → Option Int} {f : γ → Op PUnit} (h : ∀ x db, Grows v db ((f x).alone db)) (xs : List γ)
    (db : Db) : Grows v db ((xs.forM f).alone db) := by
  induction xs generalizing db with
  | nil => exact fun m hm => ⟨m, hm, Int.le_refl m⟩
  | cons x xs ih =>
      intro m hm
      obtain ⟨n₁, hn₁, hle₁⟩ := h x db m hm
      obtain ⟨n₂, hn₂, hle₂⟩ := ih _ n₁ hn₁
      rw [Op.alone, Proc.run_forM_cons]
      exact ⟨n₂, hn₂, Int.le_trans hle₁ hle₂⟩

/-- One more retry than ever before. -/
theorem Grows.ne {v : Db → Option Int} {db db₁ db₂ : Db} {n n' : Int} (h : Grows v db db₁) (h₁ : v db₁ = some n)
    (h₂ : v db₂ = some n') (hlt : n < n') : v db₂ ≠ v db := by
  intro hsame
  obtain ⟨m, hm, hle⟩ := h n' (hsame.symm.trans h₂)
  obtain rfl := Option.some.inj (h₁.symm.trans hm)
  omega

/-! ## Staging requests -/

section staging

variable {node : Node} {db : Db}

/-- The first transaction of `updateStagingState`. -/
def storeStagingStates (node : Node) (ops : List (MinFileStatus FileState × Nat)) : Op Unit :=
  Proc.batch ops (storeStagingState node)

/-- The jobs are updated outside of it. -/
def storeStagingJobs (node : Node) (ops : List (MinFileStatus FileState × Nat)) : Op Unit :=
  ops.forM fun (i, _) => do
    let _ ← updateJobTransferStatusInternal node i.jobId (if i.state = .submitted then .active else i.state)
    pure ()

theorem updateStagingState_eq (node : Node) (ops : List (MinFileStatus FileState × Nat)) :
    updateStagingStateInternal node ops = (storeStagingStates node ops).bind fun _ => storeStagingJobs node ops := by
  simp only [storeStagingStates, Proc.batch, Proc.tx_bind, Proc.bind_assoc, Proc.ret_bind]
  rfl

theorem stagingEnded_controls {P : Tx → Prop} (node : Node) (i : MinFileStatus FileState) (hashedId : Nat) :
    (stagingEnded node i hashedId).Controls P := by
  simp [stagingEnded, useNextHop, getNextHop, Proc.ite_bind]

theorem storeStagingState_quiet {op : MinFileStatus FileState × Nat}
    (h : op.1.state = .failed → retriesStaging op.1 db = false) : (storeStagingState node op).Quiet Stmt.exec db := by
  obtain ⟨i, hashedId⟩ := op
  simp only [storeStagingState]
  split
  · trivial
  · rename_i hstate
    have hno := h hstate
    have hquiet : (resetForRetryStaging i.fileId i.jobId i.retry).Quiet Stmt.exec db := by
      rw [resetForRetryStaging_eq]
      exact retryTx_quiet hno
    refine hquiet.bind ?_
    rw [resetForRetryStaging_run, if_neg (by simp [hno])]
    trivial
  · exact (stagingEnded_controls node i hashedId).quiet db

/-- The `UPDATE` leaves alone what decides about a retry. -/
def FileUpdate.KeepsRetry (u : FileUpdate) : Prop :=
  ∀ now r, (u.sets now r).jobId = r.jobId ∧ (u.sets now r).retry = r.retry

theorem FileUpdate.KeepsRetry.run {us : List FileUpdate} (h : ∀ u ∈ us, u.KeepsRetry) (now : Nat) (r : FileRow) :
    (FileUpdate.run now us r).jobId = r.jobId ∧ (FileUpdate.run now us r).retry = r.retry := by
  induction us generalizing r with
  | nil => exact ⟨rfl, rfl⟩
  | cons u us ih =>
      obtain ⟨hj, hretry⟩ := ih (fun v hv => h v (by simp [hv])) (if u.selects r then u.sets now r else r)
      rw [FileUpdate.run_cons, hj, hretry]
      split
      · exact h u (by simp) now r
      · exact ⟨rfl, rfl⟩

theorem stagingUpdates_keepsRetry {op : MinFileStatus FileState × Nat}
    (h : op.1.state = .failed → retriesStaging op.1 db = false) : ∀ u ∈ stagingUpdates node op db, u.KeepsRetry := by
  intro u hu
  unfold stagingUpdates at hu
  split at hu
  · obtain rfl := List.mem_singleton.mp hu
    exact fun _ _ => ⟨rfl, rfl⟩
  · rename_i hstate
    simp only [h hstate, Bool.false_eq_true, if_false, List.mem_singleton] at hu
    subst hu
    exact fun _ _ => ⟨rfl, rfl⟩
  · rcases List.mem_append.mp hu with hhop | hend
    · obtain ⟨f, -, rfl⟩ := List.mem_map.mp hhop
      exact fun _ _ => ⟨rfl, rfl⟩
    · obtain rfl := List.mem_singleton.mp hend
      unfold stagingEndUpdate
      split
      · exact fun _ _ => ⟨rfl, rfl⟩
      · exact fun _ _ => ⟨rfl, rfl⟩

theorem retriesStaging_congr {db' : Db} {us : List FileUpdate} (h : db.StoresFiles us db') (hus : ∀ u ∈ us, u.KeepsRetry)
    (i : MinFileStatus FileState) : retriesStaging i db' = retriesStaging i db := by
  obtain ⟨hfiles, hjobs, hconfig, -⟩ := h
  have htimes : stagingTimes i db' = stagingTimes i db := by
    rw [stagingTimes, stagingTimes, hfiles]
    cases db.files.find? i.fileId with
    | none => rfl
    | some r =>
        obtain ⟨hj, hretry⟩ := FileUpdate.KeepsRetry.run hus db.now r
        by_cases hij : r.jobId = i.jobId
        · simp [Option.filter, hj, hij, hretry]
        · simp [Option.filter, hj, hij]
  change (i.retry && retryLeft _ (stagingTimes i db')) = (i.retry && retryLeft _ (stagingTimes i db))
  rw [jobRetries_congr hjobs hconfig, htimes]

theorem storeStagingStates_quiet {ops : List (MinFileStatus FileState × Nat)}
    (h : ∀ op ∈ ops, op.1.state = .failed → retriesStaging op.1 db = false) :
    (ops.forM (storeStagingState node)).Quiet Stmt.exec db := by
  refine Proc.quiet_forM (I := fun db' => ∀ op ∈ ops, op.1.state = .failed → retriesStaging op.1 db' = false) ?_ h
  intro op hop db' hdb'
  refine ⟨storeStagingState_quiet (hdb' op hop), fun op' hop' hstate => ?_⟩
  have hcongr := retriesStaging_congr (storeStagingState_stores node op db') (stagingUpdates_keepsRetry (hdb' op hop)) op'.1
  rw [Op.alone] at hcongr
  rw [hcongr]
  exact hdb' op' hop' hstate

def fileRetries (f : Nat) (db : Db) : Option Int :=
  (db.files.find? f).bind (·.retry)

theorem stagingTimes_eq {i : MinFileStatus FileState} {r : FileRow} (hr : db.files.find? i.fileId = some r)
    (hj : r.jobId = i.jobId) : stagingTimes i db = r.retry := by
  simp [stagingTimes, hr, Option.filter, hj]

/-- The status counts one retry more. -/
theorem reschedule_counts {i : MinFileStatus FileState} {r : FileRow} (hretry : retriesStaging i db = true)
    (hr : db.files.find? i.fileId = some r) (hsel : (retryStagingUpdate i db).selects r = true) :
    ∃ m, fileRetries i.fileId db = some m ∧
      fileRetries i.fileId ((Stmt.file (retryStagingUpdate i db)).exec db).2 = some (m + 1) := by
  have hj : r.jobId = i.jobId := by
    simp only [retryStagingUpdate, FileUpdate.selects, Bool.and_eq_true, decide_eq_true_eq] at hsel
    exact hsel.1.2
  have htimes := stagingTimes_eq hr hj
  change (i.retry && retryLeft _ (stagingTimes i db)) = true at hretry
  rw [htimes, Bool.and_eq_true] at hretry
  obtain ⟨m, -, hm, -⟩ := retryLeft_times hretry.2
  refine ⟨m, by rw [fileRetries, hr, Option.bind_some, hm], ?_⟩
  rw [fileRetries, exec_file_find?, hr, Option.map_some, if_pos hsel, Option.bind_some]
  simp [retryStagingUpdate, FileUpdate.sets, htimes, hm]

theorem storeStagingState_grows (f : Nat) (op : MinFileStatus FileState × Nat) (db : Db) :
    Grows (fileRetries f) db ((storeStagingState node op).alone db) := by
  intro m hm
  obtain ⟨r, hr, hrm⟩ := Option.bind_eq_some_iff.mp hm
  obtain ⟨hfiles, -⟩ := storeStagingState_stores node op db
  rw [fileRetries, hfiles, hr, Option.map_some, Option.bind_some]
  by_cases hretry : op.1.state = .failed ∧ retriesStaging op.1 db = true
  · have hus : stagingUpdates node op db = [retryStagingUpdate op.1 db] := by simp [stagingUpdates, hretry]
    rw [hus, FileUpdate.run_cons, FileUpdate.run_nil]
    split
    · rename_i hsel
      simp only [retryStagingUpdate, FileUpdate.selects, Bool.and_eq_true, decide_eq_true_eq] at hsel
      have hid : r.fileId = f := Table.find?_some hr
      have hrow : db.files.find? op.1.fileId = some r := by rw [← hsel.1.1, hid]; exact hr
      refine ⟨m + 1, ?_, by omega⟩
      simp [retryStagingUpdate, FileUpdate.sets, stagingTimes_eq hrow hsel.1.2, hrm]
    · exact ⟨m, hrm, Int.le_refl m⟩
  · have hkeeps : ∀ u ∈ stagingUpdates node op db, u.KeepsRetry :=
      stagingUpdates_keepsRetry fun hstate => by simpa [hstate] using hretry
    exact ⟨m, (FileUpdate.KeepsRetry.run hkeeps db.now r).2.trans hrm, Int.le_refl m⟩

theorem storeStagingState_controls (op : MinFileStatus FileState × Nat) :
    (storeStagingState node op).Controls (· ≠ .rollback) := by
  obtain ⟨i, hashedId⟩ := op
  simp only [storeStagingState]
  split
  · exact fun _ => trivial
  · have hreset : (resetForRetryStaging i.fileId i.jobId i.retry).Controls (· ≠ .rollback) := by
      rw [resetForRetryStaging_eq]
      exact retryTx_controls
    refine hreset.bind fun times => ?_
    cases times with
    | none => exact fun _ => trivial
    | some n => simp
  · exact stagingEnded_controls node i hashedId

/-- A status that sends its request back to staging when its turn comes. -/
def Reschedules (node : Node) (ops : List (MinFileStatus FileState × Nat)) (db : Db) : Prop :=
  ∃ pre op post, ops = pre ++ op :: post ∧ op.1.state = .failed ∧
    retriesStaging op.1 ((pre.forM (storeStagingState node)).alone db) = true ∧
    ∃ r, ((pre.forM (storeStagingState node)).alone db).files.find? op.1.fileId = some r ∧
      (retryStagingUpdate op.1 ((pre.forM (storeStagingState node)).alone db)).selects r = true

theorem staging_atomic {ops : List (MinFileStatus FileState × Nat)}
    (h : ∀ op ∈ ops, op.1.state = .failed → retriesStaging op.1 db = false) :
    (updateStagingStateInternal node ops).Atomic (storeStagingStates node ops) Db.files db := by
  intro n hn
  rw [Op.thrown, updateStagingState_eq, storeStagingStates]
  rw [Proc.attempt_batch _ (storeStagingStates_quiet h) hn]

theorem staging_not_atomic {ops : List (MinFileStatus FileState × Nat)} (h : Reschedules node ops db) :
    ¬(updateStagingStateInternal node ops).Atomic (storeStagingStates node ops) Db.files db := by
  obtain ⟨pre, op, post, rfl, hstate, hretry, r, hr, hsel⟩ := h
  have hop : storeStagingState node op = stagingFailed op.1 := by
    obtain ⟨i, hashedId⟩ := op
    simp only [storeStagingState]
    rw [hstate]
  rw [stagingFailed, resetForRetryStaging_eq] at hop
  obtain ⟨n, hn, hthrown⟩ := Proc.attempt_batch_committed (fun _ => storeStagingJobs node (pre ++ op :: post)) hop
    (Proc.controls_forM pre storeStagingState_controls) (retryTx_perform hretry)
  intro hatomic
  have hsame := hatomic n hn
  rw [Op.thrown, updateStagingState_eq, storeStagingStates, hthrown] at hsame
  obtain ⟨m, hbefore, hafter⟩ := reschedule_counts hretry hr hsel
  refine (grows_forM (storeStagingState_grows op.1.fileId) pre db).ne hbefore hafter (by omega) ?_
  exact congrArg (fun t : Table FileRow.fileId => (t.find? op.1.fileId).bind (·.retry)) hsame

end staging

/-! ## Deletions -/

section deletion

variable {node : Node} {db : Db}

/-- The first transaction of `updateDeletionsState`. -/
def storeDeletions (node : Node) (ops : List (MinFileStatus DmState)) : Op Unit :=
  Proc.batch ops (storeDeletion node)

/-- The jobs are updated in the second one. -/
def storeDeletionJobs (ops : List (MinFileStatus DmState)) : Op Unit := do
  beginTx
  (distinct (ops.map (·.jobId))).forM storeDeletionJob
  commit

theorem updateDeletionsState_eq (node : Node) (ops : List (MinFileStatus DmState)) :
    updateDeletionsStateInternal node ops = (storeDeletions node ops).bind fun _ => storeDeletionJobs ops := by
  simp only [storeDeletions, Proc.batch, Proc.tx_bind, Proc.bind_assoc, Proc.ret_bind]
  rfl

theorem storeDeletion_quiet {i : MinFileStatus DmState} (h : i.state = .failed → retriesDeletion i db = false) :
    (storeDeletion node i).Quiet Stmt.exec db := by
  unfold storeDeletion
  split
  · trivial
  · rename_i hstate
    have hno := h hstate
    have hquiet : (resetForRetryDelete i.fileId i.jobId i.retry).Quiet Stmt.exec db := by
      rw [resetForRetryDelete_eq]
      exact retryTx_quiet hno
    refine hquiet.bind ?_
    rw [resetForRetryDelete_run, if_neg (by simp [hno])]
    trivial
  · trivial

theorem storeDeletion_controls (i : MinFileStatus DmState) : (storeDeletion node i).Controls (· ≠ .rollback) := by
  unfold storeDeletion
  split
  · exact fun _ => trivial
  · rw [resetForRetryDelete_eq]
    refine retryTx_controls.bind fun again => ?_
    simp
  · exact fun _ => trivial

def dmRetries (f : Nat) (db : Db) : Option Int :=
  (db.dms.find? f).bind (·.retry)

theorem deletionTimes_eq {i : MinFileStatus DmState} {r : DmRow} (hr : db.dms.find? i.fileId = some r)
    (hj : r.jobId = i.jobId) : deletionTimes i db = r.retry := by
  simp [deletionTimes, hr, Option.filter, hj]

/-- A status that is not retried leaves the retries alone. -/
theorem deletionUpdate_keeps (node : Node) {i : MinFileStatus DmState}
    (h : i.state = .failed → retriesDeletion i db = false) (now : Nat) (r : DmRow) :
    ((deletionUpdate node i db).sets now r).jobId = r.jobId ∧
      ((deletionUpdate node i db).sets now r).retry = r.retry := by
  unfold deletionUpdate
  split
  · exact ⟨rfl, rfl⟩
  · rename_i hstate
    simp only [h hstate]
    exact ⟨rfl, rfl⟩
  · exact ⟨rfl, rfl⟩

theorem retriesDeletion_congr {i : MinFileStatus DmState} (h : i.state = .failed → retriesDeletion i db = false)
    (i' : MinFileStatus DmState) : retriesDeletion i' ((storeDeletion node i).alone db) = retriesDeletion i' db := by
  have htimes : deletionTimes i' ((storeDeletion node i).alone db) = deletionTimes i' db := by
    rw [storeDeletion_alone, deletionTimes, deletionTimes, exec_dm_find?]
    cases db.dms.find? i'.fileId with
    | none => rfl
    | some r =>
        obtain ⟨hj, hretry⟩ := deletionUpdate_keeps node h db.now r
        by_cases hsel : (deletionUpdate node i db).selects r = true
        · by_cases hij : r.jobId = i'.jobId
          · simp [Option.filter, hsel, hj, hij, hretry]
          · simp [Option.filter, hsel, hj, hij]
        · simp [hsel]
  have hlimit : ((jobRetries i'.jobId).run Stmt.exec ((storeDeletion node i).alone db)).1 =
      ((jobRetries i'.jobId).run Stmt.exec db).1 := by
    refine jobRetries_congr ?_ ?_ i'.jobId
    · rw [storeDeletion_alone]
      rfl
    · rw [storeDeletion_alone]
      rfl
  change (i'.retry && retryLeft _ (deletionTimes i' _)) = (i'.retry && retryLeft _ (deletionTimes i' db))
  rw [htimes, hlimit]

theorem storeDeletions_quiet {ops : List (MinFileStatus DmState)}
    (h : ∀ i ∈ ops, i.state = .failed → retriesDeletion i db = false) :
    (ops.forM (storeDeletion node)).Quiet Stmt.exec db := by
  refine Proc.quiet_forM (I := fun db' => ∀ i ∈ ops, i.state = .failed → retriesDeletion i db' = false) ?_ h
  intro i hi db' hdb'
  refine ⟨storeDeletion_quiet (hdb' i hi), fun i' hi' hstate => ?_⟩
  exact (retriesDeletion_congr (hdb' i hi) i').trans (hdb' i' hi' hstate)

/-- The status counts one retry more, or several. -/
theorem retryDeletion_counts {i : MinFileStatus DmState} {r : DmRow} (hretry : retriesDeletion i db = true)
    (hr : db.dms.find? i.fileId = some r) (hsel : (retryDeletionUpdate i db).selects r = true) :
    ∃ m n, dmRetries i.fileId db = some m ∧
      dmRetries i.fileId ((Stmt.dm (retryDeletionUpdate i db)).exec db).2 = some n ∧ m < n := by
  have hj : r.jobId = i.jobId := by
    simp only [retryDeletionUpdate, DmUpdate.selects, Bool.and_eq_true, decide_eq_true_eq] at hsel
    exact hsel.1.2
  have htimes := deletionTimes_eq hr hj
  change (i.retry && retryLeft _ (deletionTimes i db)) = true at hretry
  rw [htimes, Bool.and_eq_true] at hretry
  obtain ⟨m, l, hm, hl, hle⟩ := retryLeft_times hretry.2
  refine ⟨m, l + 1, by rw [dmRetries, hr, Option.bind_some, hm], ?_, by omega⟩
  rw [dmRetries, exec_dm_find?, hr, Option.map_some, if_pos hsel, Option.bind_some]
  simp [retryDeletionUpdate, DmUpdate.sets, hl]

theorem storeDeletion_grows (f : Nat) (i : MinFileStatus DmState) (db : Db) :
    Grows (dmRetries f) db ((storeDeletion node i).alone db) := by
  intro m hm
  obtain ⟨r, hr, hrm⟩ := Option.bind_eq_some_iff.mp hm
  rw [storeDeletion_alone, dmRetries, exec_dm_find?, hr, Option.map_some, Option.bind_some]
  split
  · rename_i hsel
    by_cases hretry : i.state = .failed ∧ retriesDeletion i db = true
    · have hu : deletionUpdate node i db = retryDeletionUpdate i db := by simp [deletionUpdate, hretry]
      rw [hu] at hsel ⊢
      have hid : i.fileId = f := by
        simp only [retryDeletionUpdate, DmUpdate.selects, Bool.and_eq_true, decide_eq_true_eq] at hsel
        exact hsel.1.1.symm.trans (Table.find?_some hr)
      subst hid
      obtain ⟨m', n, hm', hn, hlt⟩ := retryDeletion_counts hretry.2 hr hsel
      rw [dmRetries, exec_dm_find?, hr, Option.map_some, if_pos hsel, Option.bind_some] at hn
      obtain rfl := Option.some.inj (hm.symm.trans hm')
      exact ⟨n, hn, Int.le_of_lt hlt⟩
    · have hno : i.state = .failed → retriesDeletion i db = false := fun hstate => by simpa [hstate] using hretry
      exact ⟨m, (deletionUpdate_keeps node hno db.now r).2.trans hrm, Int.le_refl m⟩
  · exact ⟨m, hrm, Int.le_refl m⟩

/-- A status that queues its deletion again when its turn comes. -/
def Requeues (node : Node) (ops : List (MinFileStatus DmState)) (db : Db) : Prop :=
  ∃ pre i post, ops = pre ++ i :: post ∧ i.state = .failed ∧
    retriesDeletion i ((pre.forM (storeDeletion node)).alone db) = true ∧
    ∃ r, ((pre.forM (storeDeletion node)).alone db).dms.find? i.fileId = some r ∧
      (retryDeletionUpdate i ((pre.forM (storeDeletion node)).alone db)).selects r = true

theorem deletion_atomic {ops : List (MinFileStatus DmState)}
    (h : ∀ i ∈ ops, i.state = .failed → retriesDeletion i db = false) :
    (updateDeletionsStateInternal node ops).Atomic (storeDeletions node ops) Db.dms db := by
  intro n hn
  rw [Op.thrown, updateDeletionsState_eq, storeDeletions]
  rw [Proc.attempt_batch _ (storeDeletions_quiet h) hn]

theorem deletion_not_atomic {ops : List (MinFileStatus DmState)} (h : Requeues node ops db) :
    ¬(updateDeletionsStateInternal node ops).Atomic (storeDeletions node ops) Db.dms db := by
  obtain ⟨pre, i, post, rfl, hstate, hretry, r, hr, hsel⟩ := h
  have hop : storeDeletion node i = (resetForRetryDelete i.fileId i.jobId i.retry).bind fun again =>
      if again then pure () else (updateDm (.deletionTerminal i.fileId i.state i.reason)).bind fun _ => pure () := by
    simp only [storeDeletion]
    rw [hstate]
    rfl
  rw [resetForRetryDelete_eq] at hop
  obtain ⟨n, hn, hthrown⟩ := Proc.attempt_batch_committed (fun _ => storeDeletionJobs (pre ++ i :: post)) hop
    (Proc.controls_forM pre storeDeletion_controls) (retryTx_perform hretry)
  intro hatomic
  have hsame := hatomic n hn
  rw [Op.thrown, updateDeletionsState_eq, storeDeletions, hthrown] at hsame
  obtain ⟨m, m', hbefore, hafter, hlt⟩ := retryDeletion_counts hretry hr hsel
  refine (grows_forM (storeDeletion_grows i.fileId) pre db).ne hbefore hafter hlt ?_
  exact congrArg (fun t : Table DmRow.fileId => (t.find? i.fileId).bind (·.retry)) hsame

end deletion

/-- A batch is stored as a whole or not at all when none of its statuses is retried, and is not when one of them
reschedules its operation. -/
theorem batch_atomic (node : Node) (db : Db) :
    (∀ ops, (∀ op ∈ ops, op.1.state = .failed → retriesStaging op.1 db = false) →
      (updateStagingStateInternal node ops).Atomic (storeStagingStates node ops) Db.files db) ∧
    (∀ ops, Reschedules node ops db →
      ¬(updateStagingStateInternal node ops).Atomic (storeStagingStates node ops) Db.files db) ∧
    (∀ ops, (∀ i ∈ ops, i.state = .failed → retriesDeletion i db = false) →
      (updateDeletionsStateInternal node ops).Atomic (storeDeletions node ops) Db.dms db) ∧
    (∀ ops, Requeues node ops db →
      ¬(updateDeletionsStateInternal node ops).Atomic (storeDeletions node ops) Db.dms db) := by
  refine ⟨fun ops h => ?_, fun ops h => ?_, fun ops h => ?_, fun ops h => ?_⟩
  · exact staging_atomic h
  · exact staging_not_atomic h
  · exact deletion_atomic h
  · exact deletion_not_atomic h

/-- One staging request is about to start, another one runs. -/
def batchDb : Db where
  files := .ofRows [{ fileId := 1, jobId := "j", fileState := .staging }, { fileId := 2, jobId := "j", fileState := .started }]
  dms := .ofRows [{ fileId := 1, jobId := "j", fileState := .started }]
  jobs := .ofRows [{ jobId := "j", jobState := .staging, jobType := some .regular, retry := some 3 }]

/-- The first one starts, and the other one fails. -/
def startedAndFailed (retry : Bool) : List (MinFileStatus FileState × Nat) :=
  [({ jobId := "j", fileId := 1, state := .started }, 0), ({ jobId := "j", fileId := 2, state := .failed, retry }, 0)]

theorem batch_atomic_started :
    (updateStagingStateInternal { hostname := "a" } (startedAndFailed false)).Atomic
      (storeStagingStates { hostname := "a" } (startedAndFailed false)) Db.files batchDb ∧
    ¬(updateDeletionsStateInternal { hostname := "a" } [{ jobId := "j", fileId := 1, state := .failed, retry := true }]).Atomic
      (storeDeletions { hostname := "a" } [{ jobId := "j", fileId := 1, state := .failed, retry := true }]) Db.dms batchDb := by
  obtain ⟨hstaging, -, -, hdeletion⟩ := batch_atomic { hostname := "a" } batchDb
  refine ⟨hstaging _ (by decide), hdeletion _ ⟨[], _, [], rfl, rfl, by decide, _, rfl, by decide⟩⟩

/-- The statement after the retry throws: the start of the first request stays, and so does the retry of the other one. -/
theorem batch_half_applied :
    let op := updateStagingStateInternal { hostname := "a" } (startedAndFailed true)
    7 < (storeStagingStates { hostname := "a" } (startedAndFailed true)).count Stmt.exec ⟨batchDb, none⟩ ∧
    (op.thrown 7 batchDb).fileState? 1 = some .started ∧ batchDb.fileState? 1 = some .staging ∧
    (op.thrown 7 batchDb).fileState? 2 = some .staging ∧ batchDb.fileState? 2 = some .started ∧
    ¬op.Atomic (storeStagingStates { hostname := "a" } (startedAndFailed true)) Db.files batchDb := by
  have hcount : 7 < (storeStagingStates { hostname := "a" } (startedAndFailed true)).count Stmt.exec ⟨batchDb, none⟩ := by
    decide
  refine ⟨hcount, by decide, by decide, by decide, by decide, fun h => ?_⟩
  have hstate := congrArg (fun t : Table FileRow.fileId => (t.find? 1).map (·.fileState)) (h 7 hcount)
  exact absurd hstate (by decide)

end Fts3.MySql
