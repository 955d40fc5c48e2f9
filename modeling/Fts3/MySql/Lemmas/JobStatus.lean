import Fts3.MySql.Lemmas.Writes

/-!
# `updateJobStatus` without interference

What `updateJobTransferStatusInternal` stores when no other session is on the database.
-/

namespace Fts3.MySql

open Fts3.Sql

/-- `updateJobStatus` returns early: the job is in the given state or being staged, a replica failed to be
archived, a regular job starts, or one of its files is still queued. -/
def JobRow.returnsEarly (job : JobRow) (state : FileState) (rows : List FileRow) : Bool :=
  sameState (some job.jobState) state || (job.jobState = .staging && state = .started) ||
    (job.type = .multipleReplica && job.jobState = .archiving && state = .failed) ||
    (state = .active && job.type = .regular) ||
    ((state = .finished || state = .failed) && job.type = .regular &&
      0 < ((rows.find? fun r => r.fileState = .submitted).map (·.fileId)).getD 0)

theorem updateJob_guarded (node : Node) (j : String) (state : FileState) :
    (updateJobTransferStatusInternal node j state).Issues Stmt.Guarded :=
  issues_updateJobTransferStatusInternal (P := Stmt.Guarded) (fun _ _ _ _ => rfl) rfl (fun _ => rfl) rfl
    ⟨trivial, rfl⟩ node state

variable (node : Node) {j : String} {state : FileState} {db : Db} {job : JobRow}

theorem readJobAgain_of_find? (old : Option JobState × JobType) (hjob : db.jobs.find? j = some job) :
    readJobAgain j old db = (some job.jobState, job.type) := by
  simp [readJobAgain, readJob, hjob]

theorem countFiles_run (j : String) (db : Db) :
    (countFiles j).run Stmt.exec db = (JobCounts.ofRows (db.filesOf j), db) := rfl

theorem updateJob_run (hjob : db.jobs.find? j = some job)
    (hearly : job.returnsEarly state (db.filesOf j) = false) :
    ∃ se, (updateJobTransferStatusInternal node j state).run Stmt.exec db =
      (aggregateJob node j state (some job.jobState, job.type) se).run Stmt.exec db := by
  simp only [JobRow.returnsEarly, Bool.or_eq_false_iff, Bool.and_eq_false_imp, decide_eq_true_eq,
    decide_eq_false_iff_not, Bool.or_eq_true, Bool.and_eq_true, and_imp] at hearly
  obtain ⟨⟨⟨⟨hsame, hstaging⟩, hreplica⟩, hactive⟩, hqueued⟩ := hearly
  simp only [updateJobTransferStatusInternal, Proc.bind_eq, select_bind, Proc.run_select,
    readJobAgain_of_find? _ hjob, hsame, Option.some.injEq]
  rw [if_neg (by simp), if_neg (fun h => hstaging h.1 h.2), if_neg (fun h => hreplica h.1 h.2.1 h.2.2),
    if_neg (fun h => hactive h.1 h.2)]
  split
  · rename_i h
    exact ⟨"", by rw [Proc.run_select, if_neg (hqueued h.1 h.2)]⟩
  · split
    · exact ⟨_, rfl⟩
    · exact ⟨_, rfl⟩

theorem storeFinishedJob_alone (n : JobCounts) (old : Option JobState × JobType) (se : String)
    (hjob : db.jobs.find? j = some job) (hlive : job.jobState.terminal = false) :
    ∃ job', ((storeFinishedJob node j n old se).alone db).jobs.find? j = some job' ∧
      job'.jobState = (n.outcome old.2).1 ∧ job'.reason = some (n.outcome old.2).2 ∧
      job'.jobFinished = some db.now := by
  have hne : ¬some job.jobState = some (n.outcome old.2).1 := by
    intro h
    rw [Option.some.injEq] at h
    simp [h, n.outcome_terminal] at hlive
  have hsel : ∀ reason se, (JobUpdate.terminate j (n.outcome old.2).1 reason se).selects job = true := by
    intro reason se
    have hid : job.jobId = j := Table.find?_some hjob
    cases hst : job.jobState <;> simp [hst, JobState.terminal] at hlive <;> simp [JobUpdate.selects, hst, hid]
  simp only [Op.alone, storeFinishedJob, Proc.bind_eq, select_bind, Proc.run_select, readJobAgain_of_find? _ hjob,
    if_neg hne, beginTx_bind, Proc.run_tx, updateJob_bind, Proc.run_update, commit_bind]
  split <;> simp [exec_job_find?, hjob, hsel, JobUpdate.sets]

theorem exec_job_live {u : JobUpdate} (hw : u.writes.terminal = false) (hs : u.stamps = false)
    (hjob : db.jobs.find? j = some job) (hlive : job.jobState.terminal = false) :
    ∃ job', ((Stmt.job u).exec db).2.jobs.find? j = some job' ∧ job'.jobState.terminal = false ∧
      job'.jobFinished = job.jobFinished := by
  refine ⟨_, by rw [exec_job_find?, hjob, Option.map_some], ?_⟩
  split
  · rw [u.sets_jobState, u.sets_jobFinished_of_not_stamps hs]
    exact ⟨hw, rfl⟩
  · exact ⟨hlive, rfl⟩

theorem storeJobState_alone {st : FileState} (hst : st = .active ∨ st = .staging ∨ st = .submitted)
    (hjob : db.jobs.find? j = some job) (hlive : job.jobState.terminal = false) :
    ∃ job', ((storeJobState j st).alone db).jobs.find? j = some job' ∧ job'.jobState.terminal = false ∧
      job'.jobFinished = job.jobFinished := by
  rcases hst with rfl | rfl | rfl <;> exact exec_job_live rfl rfl hjob hlive

theorem storeUnfinishedJob_alone (n : JobCounts) (hjob : db.jobs.find? j = some job)
    (hlive : job.jobState.terminal = false) :
    ∃ job', ((storeUnfinishedJob j state n (some job.jobState, job.type)).alone db).jobs.find? j = some job' ∧
      job'.jobState.terminal = false ∧ job'.jobFinished = job.jobFinished := by
  have hsame : ∃ job', db.jobs.find? j = some job' ∧ job'.jobState.terminal = false ∧
      job'.jobFinished = job.jobFinished := ⟨job, hjob, hlive, rfl⟩
  unfold storeUnfinishedJob
  split
  · rename_i hcond
    simp only [Op.alone, Proc.bind_eq, select_bind, Proc.run_select, readJobAgain_of_find? _ hjob]
    split
    · exact hsame
    · split
      · exact storeJobState_alone (by simp) hjob hlive
      · -- the state is only stored as given when the job was not being staged
        rename_i hstaging
        refine storeJobState_alone ?_ hjob hlive
        rcases hcond with h | h | h | h
        · exact .inl h
        · exact .inr (.inl h)
        · exact .inr (.inr h)
        · exact absurd h hstaging
  · split
    · simp only [Op.alone, Proc.bind_eq, select_bind, Proc.run_select, readJobAgain_of_find? _ hjob]
      split
      · exact hsame
      · exact exec_job_live rfl rfl hjob hlive
    · exact hsame

/-- What `updateJobStatus` stores for a live job, run alone and past its early returns. -/
theorem updateJob_alone (hjob : db.jobs.find? j = some job) (hlive : job.jobState.terminal = false)
    (hearly : job.returnsEarly state (db.filesOf j) = false) :
    ∃ job', ((updateJobTransferStatusInternal node j state).alone db).jobs.find? j = some job' ∧
      if (JobCounts.ofRows (db.filesOf j)).jobFinished job.type then
        job'.jobState = ((JobCounts.ofRows (db.filesOf j)).outcome job.type).1 ∧
        job'.reason = some ((JobCounts.ofRows (db.filesOf j)).outcome job.type).2 ∧
        job'.jobFinished = some db.now
      else job'.jobState.terminal = false ∧ job'.jobFinished = job.jobFinished := by
  obtain ⟨se, hrun⟩ := updateJob_run node hjob hearly
  have hcounts : ∀ f : JobCounts → Op Bool, ((countFiles j).bind f).run Stmt.exec db =
      (f (JobCounts.ofRows (db.filesOf j))).run Stmt.exec db := by
    intro f
    rw [Proc.run_bind, countFiles_run]
  rw [Op.alone, hrun, aggregateJob, Proc.bind_eq, hcounts]
  split
  · exact storeFinishedJob_alone node _ _ _ hjob hlive
  · exact storeUnfinishedJob_alone _ hjob hlive

theorem updateJob_alone_terminal (hjob : db.jobs.find? j = some job) (hterm : job.jobState.terminal = true) :
    ((updateJobTransferStatusInternal node j state).alone db).jobs.find? j = some job := by
  refine (updateJob_guarded node j state).run (I := fun db' => db'.jobs.find? j = some job) ?_ hjob
  intro s db' hs h
  cases s with
  | file u => exact h
  | job u =>
      rw [exec_job_find?, h, Option.map_some, if_neg]
      intro hsel
      rw [JobUpdate.selects_not_terminal hs hsel] at hterm
      cases hterm
  | _ => cases hs

/-- A replica that could not be archived fails the job. -/
theorem updateJob_alone_replica (hjob : db.jobs.find? j = some job) (hty : job.type = .multipleReplica)
    (harch : job.jobState = .archiving) :
    ∃ job', ((updateJobTransferStatusInternal node j .failed).alone db).jobs.find? j = some job' ∧
      job'.jobState = .failed ∧ job'.jobFinished = some db.now := by
  have hid : job.jobId = j := Table.find?_some hjob
  have hsame : sameState (some JobState.archiving) .failed = false := rfl
  simp [Op.alone, updateJobTransferStatusInternal, readJobAgain_of_find? _ hjob, harch, hsame, hty, exec_job_find?,
    hjob, JobUpdate.selects, hid, JobUpdate.sets]

theorem updateJob_alone_early (hjob : db.jobs.find? j = some job)
    (hearly : job.returnsEarly state (db.filesOf j) = true)
    (hreplica : ¬(job.type = .multipleReplica ∧ job.jobState = .archiving ∧ state = .failed)) :
    ∃ job', ((updateJobTransferStatusInternal node j state).alone db).jobs.find? j = some job' ∧
      job'.jobFinished = job.jobFinished := by
  have hsame : ∃ job', db.jobs.find? j = some job' ∧ job'.jobFinished = job.jobFinished := ⟨job, hjob, rfl⟩
  simp only [JobRow.returnsEarly, Bool.or_eq_true, Bool.and_eq_true, decide_eq_true_eq] at hearly
  simp only [Op.alone, updateJobTransferStatusInternal, Proc.bind_eq, select_bind, Proc.run_select,
    readJobAgain_of_find? _ hjob, Option.some.injEq]
  split
  · exact hsame
  · split
    · exact hsame
    · split
      · simp only [beginTx_bind, Proc.run_tx, updateJob_bind, Proc.run_update, commit_bind, Proc.pure_eq,
          Proc.run_ret, exec_job_find?, hjob, Option.map_some]
        refine ⟨_, rfl, ?_⟩
        split
        · rw [JobUpdate.sets_jobFinished_of_not_stamps rfl]
        · rfl
      · rename_i hstate hstaging hactive
        have hqueued : ((state = .finished ∨ state = .failed) ∧ job.type = .regular) ∧
            0 < (((db.filesOf j).find? fun r => r.fileState = .submitted).map (·.fileId)).getD 0 := by
          rcases hearly with (((h | h) | ⟨⟨h₁, h₂⟩, h₃⟩) | h) | h
          · exact absurd h hstate
          · exact absurd h hstaging
          · exact absurd ⟨h₁, h₂, h₃⟩ hreplica
          · exact absurd h hactive
          · exact h
        rw [if_pos hqueued.1, Proc.run_select, if_pos hqueued.2]
        exact hsame

end Fts3.MySql
