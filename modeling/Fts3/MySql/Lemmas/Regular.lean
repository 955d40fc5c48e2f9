import Fts3.MySql.Lemmas.JobStatus

/-!
# The end of a transfer of a regular job

What the status of a transfer that has ended stores for the file and the job, without interference, and what is
left to store when it is reported again.
-/

namespace Fts3.MySql

open Fts3.Sql

/-! ## The status of the file -/

section file

variable {node : Node} {a : TransferStatus} {db db' : Db} {job : JobRow}

/-- A finished transfer of the job is still to be archived. -/
def archives (job : JobRow) (st : FileState) : Bool :=
  st = .finished && -1 < job.archiveTimeout.getD (-1)

/-- The `UPDATE` of `updateTransferStatus` for a regular job. -/
def statusUpdate (node : Node) (a : TransferStatus) (job : JobRow) (db : Db) : StatusUpdate :=
  a.update node a.fileId (jobInfo node a.jobId db) (db.fileState? a.fileId) (archives job a.newFileState)

theorem storeFileState_alone {j : String} {f : Nat} {info : JobInfo} (hty : info.jobType = .regular)
    (stored : Option FileState) (uuid : Option String) (archiving : Bool) :
    (storeFileState node a j f info stored uuid archiving).alone db =
      ((Stmt.file (.updateFileTransferStatus (a.update node f info stored archiving))).exec db).2 := by
  rw [storeFileState_eq, Op.alone, Proc.run_update]
  split
  · rfl
  · simp [afterFileUpdate, hty]

theorem updateTransferStatus_alone (hj : a.jobId ≠ "") (hf : a.fileId ≠ 0) (hjob : db.jobs.find? a.jobId = some job)
    (hty : job.type = .regular) : (updateFileTransferStatusInternal node a).alone db =
      if refused (db.fileState? a.fileId) a.newFileState a.processId = true then db
      else ((Stmt.file (.updateFileTransferStatus (statusUpdate node a job db))).exec db).2 := by
  have hinfo : (jobInfo node a.jobId db).jobType = .regular ∧
      (jobInfo node a.jobId db).archiveTimeout = job.archiveTimeout.getD (-1) := by
    simp [jobInfo, hjob, hty]
  have hstored : ((db.files.find? a.fileId).map fun r => (r.fileState, r.destSurlUuid)).map (·.1) =
      db.fileState? a.fileId := by
    rw [Option.map_map]
    rfl
  simp only [updateFileTransferStatusInternal, Op.alone, Proc.bind_eq, beginTx_bind, Proc.run_tx, fileToUpdate, hj, hf,
    or_self, if_false, Proc.pure_eq, Proc.ret_bind, updateFileState, select_bind, Proc.run_select, hstored]
  split
  · rfl
  · split
    · rename_i hfin
      simp only [isArchivingTransfer, hinfo.1, reduceCtorEq, if_false, Proc.bind_eq, Proc.pure_eq, Proc.ret_bind]
      refine (storeFileState_alone hinfo.1 _ _ _).trans ?_
      rw [statusUpdate, archives, hfin, hinfo.2]
      simp
    · rename_i hfin
      refine (storeFileState_alone hinfo.1 _ _ _).trans ?_
      rw [statusUpdate, archives, decide_eq_false hfin, Bool.false_and]

/-- After the status has been reported the file is in the new state, or is written as it is. -/
theorem statusUpdate_again (hst : a.newFileState = .finished ∨ a.newFileState = .failed ∨ a.newFileState = .canceled)
    {db₁ : Db} (hnow : db₁.now = db.now)
    (hdb₁ : db₁.files = if refused (db.fileState? a.fileId) a.newFileState a.processId = true then db.files
      else ((Stmt.file (.updateFileTransferStatus (statusUpdate node a job db))).exec db).2.files)
    {job₁ : JobRow} (harch : job₁.archiveTimeout = job.archiveTimeout)
    (hjob₁ : db₁.jobs.find? a.jobId = some job₁) (hjob : db.jobs.find? a.jobId = some job) :
    refused (db₁.fileState? a.fileId) a.newFileState a.processId = true ∨
      ((Stmt.file (.updateFileTransferStatus (statusUpdate node a job₁ db₁))).exec db₁).2.files = db₁.files := by
  split at hdb₁
  · rename_i href
    left
    rwa [Db.fileState?, hdb₁]
  · cases hrow : db.files.find? a.fileId with
    | none =>
        right
        refine exec_file_eq_self fun r hr hsel => ?_
        simp only [FileUpdate.selects, Bool.and_eq_true, decide_eq_true_eq] at hsel
        have hfind := Table.find?_key hr
        rw [hsel.1, hdb₁, exec_file_find?] at hfind
        simp only [statusUpdate, TransferStatus.update, hrow, Option.map_none] at hfind
        cases hfind
    | some r =>
        have hsel : (FileUpdate.updateFileTransferStatus (statusUpdate node a job db)).selects r = true := by
          have hid : r.fileId = a.fileId := Table.find?_some hrow
          simp [FileUpdate.selects, statusUpdate, TransferStatus.update, hid, Db.fileState?, hrow]
        have hrow₁ : db₁.files.find? a.fileId = some ((statusUpdate node a job db).sets r) := by
          rw [hdb₁, exec_file_find?, hrow, Option.map_some, if_pos hsel]
          rfl
        by_cases hterm : archives job a.newFileState = true
        · right
          refine exec_file_eq_self fun r₁ hr₁ hsel₁ => ?_
          simp only [FileUpdate.selects, Bool.and_eq_true, decide_eq_true_eq] at hsel₁
          have hfind := Table.find?_key hr₁
          have hid₁ : r₁.fileId = a.fileId := hsel₁.1
          rw [hid₁, hrow₁] at hfind
          rw [← Option.some.inj hfind]
          have hfin : a.newFileState = .finished := by
            simp only [archives, Bool.and_eq_true, decide_eq_true_eq] at hterm
            exact hterm.1
          simp [FileUpdate.sets, StatusUpdate.sets, statusUpdate, TransferStatus.update, archives, hfin, harch,
            FileState.terminal, jobInfo, hjob, hjob₁, hnow]
          exact fun h h' => absurd h' h
        · left
          rw [Bool.not_eq_true] at hterm
          have hstate : db₁.fileState? a.fileId = some a.newFileState := by
            simp [Db.fileState?, hrow₁, StatusUpdate.sets, statusUpdate, TransferStatus.update, hterm]
          rw [hstate]
          rcases hst with h | h | h <;> simp [refused, h]

/-- Reported again, the status changes nothing. -/
theorem updateTransferStatus_again (hj : a.jobId ≠ "") (hf : a.fileId ≠ 0)
    (hst : a.newFileState = .finished ∨ a.newFileState = .failed ∨ a.newFileState = .canceled)
    (hjob : db.jobs.find? a.jobId = some job) (hty : job.type = .regular) {db₁ : Db} {job₁ : JobRow}
    (hnow : db₁.now = db.now) (hfiles : db₁.files = ((updateFileTransferStatusInternal node a).alone db).files)
    (hjob₁ : db₁.jobs.find? a.jobId = some job₁) (hty₁ : job₁.type = .regular)
    (harch : job₁.archiveTimeout = job.archiveTimeout) : (updateFileTransferStatusInternal node a).alone db₁ = db₁ := by
  rw [updateTransferStatus_alone hj hf hjob hty, apply_ite Db.files] at hfiles
  rw [updateTransferStatus_alone hj hf hjob₁ hty₁]
  rcases statusUpdate_again hst hnow hfiles harch hjob₁ hjob with href | hself
  · exact if_pos href
  · split
    · rfl
    · change { db₁ with files := ((Stmt.file (.updateFileTransferStatus (statusUpdate node a job₁ db₁))).exec db₁).2.files } =
        db₁
      rw [hself]

/-- The files of the job, with the one of the message in the state that it gets. -/
def reportedRows (a : TransferStatus) (job : JobRow) (rows : List FileRow) : List FileRow :=
  rows.map fun r =>
    if r.fileId = a.fileId ∧ refused (some r.fileState) a.newFileState a.processId = false then
      { r with fileState := if archives job a.newFileState then .archiving else a.newFileState }
    else r

/-- What `updateJobStatus` reads of a file. -/
def FileRow.counted (r : FileRow) : Nat × Option Int × FileState := (r.fileId, r.fileIndex, r.fileState)

theorem updateTransferStatus_counted (hj : a.jobId ≠ "") (hf : a.fileId ≠ 0)
    (hjob : db.jobs.find? a.jobId = some job) (hty : job.type = .regular) (j : String) :
    (((updateFileTransferStatusInternal node a).alone db).filesOf j).map FileRow.counted =
      (reportedRows a job (db.filesOf j)).map FileRow.counted := by
  have hrow : ∀ r ∈ db.filesOf j, r.fileId = a.fileId → db.fileState? a.fileId = some r.fileState := by
    intro r hr hid
    rw [Db.fileState?, ← hid, (mem_filesOf.mp hr).1]
    rfl
  rw [updateTransferStatus_alone hj hf hjob hty, reportedRows]
  split
  · rename_i href
    rw [List.map_map]
    refine List.map_congr_left fun r hr => ?_
    rw [Function.comp_apply, if_neg]
    rintro ⟨hid, hnot⟩
    rw [hrow r hr hid, hnot] at href
    cases href
  · rename_i href
    rw [exec_file_filesOf, List.map_map, List.map_map]
    refine List.map_congr_left fun r hr => ?_
    simp only [Function.comp_apply]
    by_cases hid : r.fileId = a.fileId
    · have hsel : (FileUpdate.updateFileTransferStatus (statusUpdate node a job db)).selects r = true := by
        simp [FileUpdate.selects, statusUpdate, TransferStatus.update, hid, hrow r hr hid]
      rw [hrow r hr hid, Bool.not_eq_true] at href
      rw [if_pos hsel, if_pos ⟨hid, href⟩]
      rfl
    · have hsel : ¬(FileUpdate.updateFileTransferStatus (statusUpdate node a job db)).selects r = true := by
        simp [FileUpdate.selects, statusUpdate, TransferStatus.update, hid]
      rw [if_neg hsel, if_neg fun h => hid h.1]

end file

/-! ## The status of the job -/

section job

variable {node : Node} {j : String} {st : FileState} {db : Db} {job : JobRow}

/-- What `updateJobStatus` stores for a regular job when a transfer has ended, past its early returns. -/
def aggregateUpdate? (job : JobRow) (n : JobCounts) : Option JobUpdate :=
  if n.jobFinished .regular = true then
    if job.jobState = (n.outcome .regular).1 then none
    else some (.terminate job.jobId (n.outcome .regular).1 (n.outcome .regular).2 none)
  else if job.jobState = .staging ∧ n.staging = 0 then some (.setState job.jobId .submitted)
  else if 0 < n.archiving ∧ n.inJob = n.terminal + n.archiving then
    if job.jobState = .archiving then none else some (.setArchiving job.jobId)
  else none

/-- A file of the job that is still in the queue. -/
def queuedFile (rows : List FileRow) : Nat :=
  ((rows.find? fun r => r.fileState = .submitted).map (·.fileId)).getD 0

def jobUpdate? (job : JobRow) (st : FileState) (rows : List FileRow) : Option JobUpdate :=
  if sameState (some job.jobState) st = true ∨ (st = .finished ∨ st = .failed) ∧ 0 < queuedFile rows then none
  else aggregateUpdate? job (JobCounts.ofRows rows)

def storeJobUpdate (u : Option JobUpdate) (db : Db) : Db :=
  match u with
  | none => db
  | some u => ((Stmt.job u).exec db).2

variable (hst : st = .finished ∨ st = .failed ∨ st = .canceled) (hjob : db.jobs.find? j = some job)
  (hty : job.type = .regular)

include hst hjob hty

theorem aggregateJob_alone (hsame : sameState (some job.jobState) st = false) :
    (aggregateJob node j st (some job.jobState, .regular) "").alone db =
      storeJobUpdate (aggregateUpdate? job (JobCounts.ofRows (db.filesOf j))) db := by
  have hid : job.jobId = j := Table.find?_some hjob
  have hunf : ¬(st = .active ∨ st = .staging ∨ st = .submitted) := by
    rcases hst with rfl | rfl | rfl <;> decide
  simp only [not_or] at hunf
  rw [aggregateJob, Proc.bind_eq, Op.alone, Proc.run_bind, countFiles_run]
  generalize JobCounts.ofRows (db.filesOf j) = n
  unfold aggregateUpdate?
  rw [hid]
  dsimp only
  split
  · simp only [storeFinishedJob, Proc.bind_eq, select_bind, Proc.run_select, readJobAgain_of_find? _ hjob,
      Option.some.injEq, hty]
    split
    · rfl
    · simp [storeJobUpdate]
  · simp only [storeUnfinishedJob, hunf, false_or, Option.some.injEq]
    split
    · rename_i hstaging
      simp only [Proc.bind_eq, select_bind, Proc.run_select, readJobAgain_of_find? _ hjob, hsame, Bool.false_eq_true,
        if_false, Option.some.injEq]
      rw [if_pos hstaging]
      rfl
    · split
      · simp only [Proc.bind_eq, select_bind, Proc.run_select, readJobAgain_of_find? _ hjob, Option.some.injEq]
        split
        · rfl
        · rfl
      · rfl

theorem updateJob_alone_regular :
    (updateJobTransferStatusInternal node j st).alone db = storeJobUpdate (jobUpdate? job st (db.filesOf j)) db := by
  have hactive : st ≠ .active := by
    rcases hst with rfl | rfl | rfl <;> decide
  have hstarted : st ≠ .started := by
    rcases hst with rfl | rfl | rfl <;> decide
  simp only [updateJobTransferStatusInternal, Op.alone, Proc.bind_eq, select_bind, Proc.run_select,
    readJobAgain_of_find? _ hjob, hty, hactive, hstarted, and_false, false_and, if_false, reduceCtorEq, and_true]
  unfold jobUpdate?
  cases hsame : sameState (some job.jobState) st with
  | true => rfl
  | false =>
      simp only [Bool.false_eq_true, if_false, false_or]
      by_cases hq : st = .finished ∨ st = .failed
      · simp only [hq, if_true, true_and, Proc.run_select, queuedFile, gt_iff_lt]
        split
        · rfl
        · exact aggregateJob_alone hst hjob hty hsame
      · rw [if_neg hq, if_neg fun h => hq h.1]
        exact aggregateJob_alone hst hjob hty hsame

end job

section store

variable {j : String} {db : Db} {job : JobRow}

theorem storeJobUpdate_columns {u : Option JobUpdate} {job₁ : JobRow} (hjob : db.jobs.find? j = some job)
    (hjob₁ : (storeJobUpdate u db).jobs.find? j = some job₁) : job₁.type = job.type ∧
      job₁.archiveTimeout = job.archiveTimeout ∧ job₁.retry = job.retry ∧ job₁.voName = job.voName := by
  cases u with
  | none =>
      rw [storeJobUpdate, hjob] at hjob₁
      rw [Option.some.inj hjob₁]
      exact ⟨rfl, rfl, rfl, rfl⟩
  | some u =>
      rw [storeJobUpdate, exec_job_find?, hjob, Option.map_some] at hjob₁
      rw [← Option.some.inj hjob₁]
      split
      · cases u <;> exact ⟨rfl, rfl, rfl, rfl⟩
      · exact ⟨rfl, rfl, rfl, rfl⟩

theorem storeJobUpdate_eq (u : Option JobUpdate) (db : Db) :
    storeJobUpdate u db = { db with jobs := (storeJobUpdate u db).jobs } := by
  cases u <;> rfl

end store

/-! ## The job once more -/

section again

variable {st : FileState} {db : Db} {job : JobRow} {rows : List FileRow} {u : JobUpdate}

/-- The job is being staged, but none of its files is, and what is not over is to be archived: the first status
takes it to `SUBMITTED` and the next one to `ARCHIVING`. -/
def LeavesStaging (job : JobRow) (st : FileState) (rows : List FileRow) : Prop :=
  job.jobState = .staging ∧ ¬((st = .finished ∨ st = .failed) ∧ 0 < queuedFile rows) ∧
    (JobCounts.ofRows rows).staging = 0 ∧ 0 < (JobCounts.ofRows rows).archiving ∧
    (JobCounts.ofRows rows).inJob = (JobCounts.ofRows rows).terminal + (JobCounts.ofRows rows).archiving

theorem countIndexes_counted (c : Count) : countIndexes c rows =
    (((rows.map FileRow.counted).filter fun k => c.counts k.2.2).filterMap (·.2.1)).dedup.length := by
  rw [List.filter_map, List.filterMap_map]
  rfl

theorem ofRows_counted {rows' : List FileRow} (h : rows'.map FileRow.counted = rows.map FileRow.counted) :
    JobCounts.ofRows rows' = JobCounts.ofRows rows := by
  simp only [JobCounts.ofRows, countIndexes_counted, h]

theorem queuedFile_counted : queuedFile rows =
    (((rows.map FileRow.counted).find? fun k => k.2.2 = .submitted).map (·.1)).getD 0 := by
  rw [List.find?_map, Option.map_map]
  rfl

theorem leavesStaging_counted {rows' : List FileRow} (h : rows'.map FileRow.counted = rows.map FileRow.counted) :
    LeavesStaging job st rows' ↔ LeavesStaging job st rows := by
  rw [LeavesStaging, LeavesStaging, ofRows_counted h, queuedFile_counted, queuedFile_counted, h]

theorem not_jobFinished {n : JobCounts} (hpos : 0 < n.archiving) (hin : n.inJob = n.terminal + n.archiving) :
    ¬n.jobFinished .regular = true := by
  simp only [JobCounts.jobFinished, reduceCtorEq, decide_false, Bool.false_and, Bool.or_false, decide_eq_true_eq]
  omega

/-- What can be stored, and when. -/
theorem jobUpdate_cases (hu : jobUpdate? job st rows = some u) :
    ¬((st = .finished ∨ st = .failed) ∧ 0 < queuedFile rows) ∧
    ((JobCounts.ofRows rows).jobFinished .regular = true ∧
        u = .terminate job.jobId ((JobCounts.ofRows rows).outcome .regular).1
          ((JobCounts.ofRows rows).outcome .regular).2 none ∨
      ¬(JobCounts.ofRows rows).jobFinished .regular = true ∧
        (job.jobState = .staging ∧ (JobCounts.ofRows rows).staging = 0) ∧ u = .setState job.jobId .submitted ∨
      ¬(JobCounts.ofRows rows).jobFinished .regular = true ∧
        ¬(job.jobState = .staging ∧ (JobCounts.ofRows rows).staging = 0) ∧
        (0 < (JobCounts.ofRows rows).archiving ∧
          (JobCounts.ofRows rows).inJob = (JobCounts.ofRows rows).terminal + (JobCounts.ofRows rows).archiving) ∧
        u = .setArchiving job.jobId) := by
  unfold jobUpdate? at hu
  split at hu
  · cases hu
  · rename_i hearly
    refine ⟨fun h => hearly (.inr h), ?_⟩
    unfold aggregateUpdate? at hu
    split at hu
    · rename_i hfin
      split at hu
      · cases hu
      · exact .inl ⟨hfin, (Option.some.inj hu).symm⟩
    · rename_i hfin
      split at hu
      · rename_i hstaging
        exact .inr (.inl ⟨hfin, hstaging, (Option.some.inj hu).symm⟩)
      · rename_i hstaging
        split at hu
        · rename_i harch
          split at hu
          · cases hu
          · exact .inr (.inr ⟨hfin, hstaging, harch, (Option.some.inj hu).symm⟩)
        · cases hu

theorem jobUpdate_selects (hu : jobUpdate? job st rows = some u) (r : JobRow) :
    u.selects r = true ↔ r.jobId = job.jobId ∧ r.jobState.terminal = false := by
  rcases (jobUpdate_cases hu).2 with ⟨-, rfl⟩ | ⟨-, -, rfl⟩ | ⟨-, -, -, rfl⟩ <;>
    cases hs : r.jobState <;> simp [JobUpdate.selects, JobState.terminal, hs]

theorem exec_jobUpdate_terminal {j : String} (hu : jobUpdate? job st rows = some u)
    (hjob : db.jobs.find? j = some job) (hterm : ¬job.jobState.terminal = false) :
    ((Stmt.job u).exec db).2.jobs = db.jobs := by
  refine exec_job_eq_self fun r hr hsel => ?_
  obtain ⟨hrid, hrlive⟩ := (jobUpdate_selects hu r).mp hsel
  have hid : job.jobId = j := Table.find?_some hjob
  have hrjob := Table.find?_key hr
  rw [hrid, hid, hjob] at hrjob
  rw [← Option.some.inj hrjob] at hrlive
  exact absurd hrlive hterm

variable (hst : st = .finished ∨ st = .failed ∨ st = .canceled)

include hst

theorem sameState_live {s : JobState} (hs : s.terminal = false) : sameState (some s) st = false := by
  rcases hst with rfl | rfl | rfl <;> cases s <;> first | rfl | cases hs

theorem jobUpdate_of_leavesStaging (h : LeavesStaging job st rows) :
    jobUpdate? job st rows = some (.setState job.jobId .submitted) := by
  obtain ⟨hstaging, hqueued, hnone, hpos, hin⟩ := h
  have hsame : sameState (some job.jobState) st = false := sameState_live hst (by rw [hstaging]; rfl)
  rw [jobUpdate?, if_neg (by simpa [hsame] using hqueued), aggregateUpdate?, if_neg (not_jobFinished hpos hin),
    if_pos ⟨hstaging, hnone⟩]

/-- After its first status the job has settled, unless it has just left `STAGING`. -/
theorem jobUpdate_settled (hu : jobUpdate? job st rows = some u) (now : Nat)
    [Decidable (LeavesStaging job st rows)] : jobUpdate? (u.sets now job) st rows =
      if LeavesStaging job st rows then some (.setArchiving job.jobId) else none := by
  obtain ⟨hqueued, ⟨hfin, rfl⟩ | ⟨hfin, hstaging, rfl⟩ | ⟨hfin, hstaging, harch, rfl⟩⟩ := jobUpdate_cases hu
  · rw [if_neg fun h => not_jobFinished h.2.2.2.1 h.2.2.2.2 hfin]
    simp [jobUpdate?, aggregateUpdate?, hfin, JobUpdate.sets]
  · have hsame : sameState (some .submitted) st = false := sameState_live hst rfl
    simp only [jobUpdate?, aggregateUpdate?, JobUpdate.sets, hsame, hqueued, hfin, Bool.false_eq_true, or_self,
      if_false, reduceCtorEq, false_and]
    exact if_congr ⟨fun h => ⟨hstaging.1, hqueued, hstaging.2, h⟩, fun h => h.2.2.2⟩ rfl rfl
  · have hsame : sameState (some .archiving) st = false := sameState_live hst rfl
    rw [if_neg fun h => hstaging ⟨h.1, h.2.2.1⟩]
    simp [jobUpdate?, aggregateUpdate?, JobUpdate.sets, hsame, hqueued, hfin]

/-- The status of the job, stored once more. -/
theorem storeJobUpdate_again {j : String} (hjob : db.jobs.find? j = some job) :
    ∃ job₁, (storeJobUpdate (jobUpdate? job st rows) db).jobs.find? j = some job₁ ∧
      ((storeJobUpdate (jobUpdate? job₁ st rows) (storeJobUpdate (jobUpdate? job st rows) db)).jobs =
        (storeJobUpdate (jobUpdate? job st rows) db).jobs ↔ ¬LeavesStaging job st rows) := by
  have hid : job.jobId = j := Table.find?_some hjob
  cases hu : jobUpdate? job st rows with
  | none =>
      refine ⟨job, hjob, ?_⟩
      rw [hu]
      refine ⟨fun _ hleaves => ?_, fun _ => rfl⟩
      rw [jobUpdate_of_leavesStaging hst hleaves] at hu
      cases hu
  | some u =>
      simp only [storeJobUpdate]
      by_cases hlive : job.jobState.terminal = false
      · refine ⟨u.sets db.now job, ?_, ?_⟩
        · rw [exec_job_find?, hjob, Option.map_some, if_pos ((jobUpdate_selects hu job).mpr ⟨rfl, hlive⟩)]
        · classical
          rw [jobUpdate_settled hst hu]
          by_cases hleaves : LeavesStaging job st rows
          · rw [if_pos hleaves]
            refine ⟨fun heq => ?_, fun h => absurd hleaves h⟩
            rw [jobUpdate_of_leavesStaging hst hleaves] at hu
            have hfind := congrArg (fun t : Table JobRow.jobId => t.find? j) heq
            simp [exec_job_find?, hjob, ← Option.some.inj hu, JobUpdate.selects, JobUpdate.sets, hleaves.1, hid] at hfind
          · rw [if_neg hleaves]
            simp [hleaves]
      · have hself : ((Stmt.job u).exec db).2.jobs = db.jobs := exec_jobUpdate_terminal hu hjob hlive
        refine ⟨job, by rw [hself]; exact hjob, ?_⟩
        rw [hu]
        refine ⟨fun _ hleaves => hlive (by rw [hleaves.1]; rfl), fun _ => ?_⟩
        exact exec_jobUpdate_terminal hu (by rw [hself]; exact hjob) hlive

end again

end Fts3.MySql
