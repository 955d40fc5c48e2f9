import Fts3.MySql.Lemmas.Writes

/-!
# The sanity checks without interference

The loop of `fixJobNonTerminallAllFilesTerminal` does to a job what its step for that job does, and that
step is a function of the rows of the job.
-/

namespace Fts3.MySql

open Fts3.Sql

structure JobView where
  job : Option JobRow
  files : List FileRow
  dms : List DmRow
  now : Nat

def Db.view (j : String) (db : Db) : JobView where
  job := db.jobs.find? j
  files := db.filesOf j
  dms := db.dmsOf j
  now := db.now

@[simp] theorem Db.view_files (j : String) (db : Db) : (db.view j).files = db.filesOf j := rfl

@[simp] theorem Db.view_now (j : String) (db : Db) : (db.view j).now = db.now := rfl

/-! ## The states by name -/

section stateCount

variable (rows : List FileRow)

theorem stateCount_finished : stateCount rows "FINISHED" = rows.countP fun r => r.fileState = .finished :=
  List.countP_congr fun r _ => by cases r.fileState <;> simp [FileState.name]

theorem stateCount_failed : stateCount rows "FAILED" = rows.countP fun r => r.fileState = .failed :=
  List.countP_congr fun r _ => by cases r.fileState <;> simp [FileState.name]

theorem stateCount_active : stateCount rows "ACTIVE" = rows.countP fun r => r.fileState = .active :=
  List.countP_congr fun r _ => by cases r.fileState <;> simp [FileState.name]

theorem stateCount_submitted : stateCount rows "SUBMITTED" = rows.countP fun r => r.fileState = .submitted :=
  List.countP_congr fun r _ => by cases r.fileState <;> simp [FileState.name]

/-- No row is in a state called `CANCEL`. -/
theorem stateCount_cancel : stateCount rows "CANCEL" = 0 :=
  List.countP_eq_zero.mpr fun r _ => by cases r.fileState <;> simp [FileState.name]

end stateCount

theorem all_iff_countP_eq {p : FileRow → Bool} (rows : List FileRow) :
    rows.length = rows.countP p ↔ rows.all p = true := by
  rw [eq_comm, List.countP_eq_length, List.all_eq_true]

theorem countP_finished_add_failed (rows : List FileRow) :
    rows.countP (fun r => r.fileState = .finished) + rows.countP (fun r => r.fileState = .failed) =
      rows.countP fun r => r.fileState = .finished || r.fileState = .failed := by
  induction rows with
  | nil => rfl
  | cons r rows ih =>
      simp only [List.countP_cons]
      cases r.fileState <;> simp <;> omega

/-! ## Other jobs -/

def Stmt.Addresses (j : String) : Stmt → Prop
  | .file u => ∀ r, u.selects r = true → r.jobId = j
  | .job u => ∀ r, u.selects r = true → r.jobId = j
  | _ => False

theorem Stmt.Addresses.view {s : Stmt} {j k : String} (h : s.Addresses j) (hk : j ≠ k) (db : Db) :
    (s.exec db).2.view k = db.view k := by
  cases s with
  | file u =>
      have hfiles : ((Stmt.file u).exec db).2.filesOf k = db.filesOf k := by
        rw [exec_file_filesOf, List.map_congr_left (g := id), List.map_id]
        intro r hr
        have hr : r.jobId = k := by simpa [Db.filesOf, Table.select] using (List.mem_filter.mp hr).2
        rw [if_neg fun hsel => hk ((h r hsel).symm.trans hr)]
        rfl
      simp only [Db.view, hfiles]
      rfl
  | job u =>
      have hjobs : ((Stmt.job u).exec db).2.jobs.find? k = db.jobs.find? k := by
        rw [exec_job_find?]
        cases hr : db.jobs.find? k with
        | none => rfl
        | some r =>
            have hid : r.jobId = k := Table.find?_some hr
            rw [Option.map_some, if_neg fun hsel => hk ((h r hsel).symm.trans hid)]
      simp only [Db.view, hjobs]
      rfl
  | _ => cases h

theorem fixJobOfRow_addresses (job : JobRow) : (fixJobOfRow job).Issues (Stmt.Addresses job.jobId) := by
  intro db
  simp [fixJob, fixEmptyJob, fixNonTerminalJob, Stmt.Addresses, JobUpdate.selects, FileUpdate.selects]
  grind

theorem fixJobOfRow_frame {job : JobRow} {k : String} (hk : job.jobId ≠ k) (db : Db) :
    ((fixJobOfRow job).run Stmt.exec db).2.view k = db.view k :=
  (fixJobOfRow_addresses job).run (I := fun db' => db'.view k = db.view k)
    (fun _ db' hs hI => (hs.view hk db').trans hI) rfl

/-! ## One job -/

def fixTarget (rows : List FileRow) : JobState :=
  if rows.all fun r => r.fileState = .finished then .finished
  else if rows.all fun r => r.fileState = .failed then .failed
  else .finishedDirty

/-- The state in which the check terminates a job, if it does. -/
def JobRow.fixState? (job : JobRow) (rows : List FileRow) : Option JobState :=
  if rows.isEmpty then some .canceled
  else if job.type ≠ .multipleReplica then
    if rows.all (fun r => r.fileState = .finished || r.fileState = .failed) ∧ job.jobState ≠ fixTarget rows then
      some (fixTarget rows)
    else none
  else if rows.any fun r => r.fileState = .finished then some .finished
  else if rows.all (fun r => r.fileState = .failed) ∨ (job.jobState = .active ∨ job.jobState = .ready) ∧
      rows.all (fun r => r.fileState ≠ .active && r.fileState ≠ .submitted) then some .failed
  else none

/-- The jobs that the check terminates: those without files, those with only finished and failed files
whose state is not the one to store, and the multiple replica jobs with a finished replica, with only
failed ones, or that are running with none queued or running. -/
def JobRow.Fixable (job : JobRow) (rows : List FileRow) : Prop :=
  rows = [] ∨
  job.type ≠ .multipleReplica ∧ (∀ r ∈ rows, r.fileState = .finished ∨ r.fileState = .failed) ∧
    job.jobState ≠ fixTarget rows ∨
  job.type = .multipleReplica ∧ ((∃ r ∈ rows, r.fileState = .finished) ∨ (∀ r ∈ rows, r.fileState = .failed) ∨
    (job.jobState = .active ∨ job.jobState = .ready) ∧
      ∀ r ∈ rows, r.fileState ≠ .active ∧ r.fileState ≠ .submitted)

theorem JobRow.fixState?_ne_none {job : JobRow} {rows : List FileRow} :
    job.fixState? rows ≠ none ↔ job.Fixable rows := by
  unfold fixState? Fixable
  by_cases hempty : rows = []
  · simp [hempty]
  by_cases hty : job.type = .multipleReplica
  · by_cases hany : ∃ r ∈ rows, r.fileState = .finished
    · simp [hempty, hty, hany]
    · simp only [List.isEmpty_iff, hempty, if_false, hty, ne_eq, not_true_eq_false, List.any_eq_true,
        decide_eq_true_eq, hany, List.all_eq_true, false_and, false_or, true_and]
      split <;> simp_all
  · simp [hempty, hty]

/-- The check takes the queued and running replicas back when another one has finished. -/
def JobRow.fixFiles (job : JobRow) (now : Nat) (rows : List FileRow) : List FileRow :=
  if job.type = .multipleReplica ∧ (rows.any fun r => r.fileState = .finished) then
    rows.map fun r => if (FileUpdate.fixMultireplicaFinished job.jobId).selects r then
      (FileUpdate.fixMultireplicaFinished job.jobId).sets now r else r
  else rows

def JobRow.FixedTo (job job' : JobRow) (now : Nat) : Option JobState → Prop
  | none => job' = job
  | some st => job'.jobState = st ∧ job'.jobFinished = some now

section job

variable {db : Db} {job : JobRow}

theorem view_exec_job (u : JobUpdate) (hjob : db.jobs.find? job.jobId = some job) :
    ((Stmt.job u).exec db).2.view job.jobId =
      { db.view job.jobId with job := some (if u.selects job then u.sets db.now job else job) } := by
  simp only [Db.view, exec_job_find?, hjob]
  rfl

def JobView.Fixes (v v' : JobView) (job : JobRow) : Prop :=
  ∃ job', v' = { v with job := some job', files := job.fixFiles v.now v.files } ∧
    job.FixedTo job' v.now (job.fixState? v.files)

theorem fixesJob_of_update {u : JobUpdate} (st? : Option JobState)
    (hjob : db.jobs.find? job.jobId = some job)
    (hfiles : job.fixFiles db.now (db.filesOf job.jobId) = db.filesOf job.jobId)
    (hst : job.fixState? (db.filesOf job.jobId) = st?)
    (hfix : job.FixedTo (if u.selects job then u.sets db.now job else job) db.now st?) :
    (db.view job.jobId).Fixes (((Stmt.job u).exec db).2.view job.jobId) job := by
  refine ⟨_, ?_, hst ▸ hfix⟩
  rw [view_exec_job u hjob]
  exact congrArg (fun fs => JobView.mk _ fs _ _) hfiles.symm

theorem fixesJob_refl (hjob : db.jobs.find? job.jobId = some job)
    (hfiles : job.fixFiles db.now (db.filesOf job.jobId) = db.filesOf job.jobId)
    (hst : job.fixState? (db.filesOf job.jobId) = none) : (db.view job.jobId).Fixes (db.view job.jobId) job := by
  refine ⟨job, ?_, hst ▸ rfl⟩
  simp [Db.view, hjob, hfiles]

theorem fixNonTerminalJob_eq (j : String) (rows : List FileRow) :
    ∃ reason, fixNonTerminalJob j rows.length (stateCount rows "CANCEL") (stateCount rows "FINISHED")
        (stateCount rows "FAILED") =
      Proc.update (.job (.fixNonTerminalJob j (fixTarget rows) reason)) fun _ => .ret () := by
  simp only [fixNonTerminalJob, stateCount_cancel, stateCount_finished, stateCount_failed, Nat.lt_irrefl,
    if_false, all_iff_countP_eq, fixTarget]
  split
  · exact ⟨_, rfl⟩
  · split <;> exact ⟨_, rfl⟩

theorem fixNonTerminalJob_fixedTo (st : JobState) (reason : Option String) (now : Nat) :
    job.FixedTo (if (JobUpdate.fixNonTerminalJob job.jobId st reason).selects job then
      (JobUpdate.fixNonTerminalJob job.jobId st reason).sets now job else job) now
      (if job.jobState ≠ st then some st else none) := by
  by_cases hst : job.jobState = st
  · simp [JobUpdate.selects, hst, JobRow.FixedTo]
  · simp [JobUpdate.selects, hst, JobRow.FixedTo, JobUpdate.sets]

theorem fixFiles_of_not_finished {now : Nat} {rows : List FileRow}
    (h : ¬(job.type = .multipleReplica ∧ rows.any (fun r => r.fileState = .finished) = true)) :
    job.fixFiles now rows = rows := by
  rw [JobRow.fixFiles, if_neg h]

theorem fixEmptyJob_fixes (hjob : db.jobs.find? job.jobId = some job) (hempty : db.filesOf job.jobId = []) :
    (db.view job.jobId).Fixes (((fixEmptyJob job.jobId).run Stmt.exec db).2.view job.jobId) job := by
  refine fixesJob_of_update (some .canceled) hjob ?_ ?_ ?_
  · exact fixFiles_of_not_finished (by simp [hempty])
  · simp [JobRow.fixState?, hempty]
  · simp [JobUpdate.selects, JobRow.FixedTo, JobUpdate.sets]

theorem fixNonTerminalJob_fixes (hjob : db.jobs.find? job.jobId = some job)
    (hne : db.filesOf job.jobId ≠ []) (hty : job.type ≠ .multipleReplica)
    (hall : (db.filesOf job.jobId).all (fun r => r.fileState = .finished || r.fileState = .failed) = true) :
    (db.view job.jobId).Fixes (((fixNonTerminalJob job.jobId (db.filesOf job.jobId).length
      (stateCount (db.filesOf job.jobId) "CANCEL") (stateCount (db.filesOf job.jobId) "FINISHED")
      (stateCount (db.filesOf job.jobId) "FAILED")).run Stmt.exec db).2.view job.jobId) job := by
  obtain ⟨reason, heq⟩ := fixNonTerminalJob_eq job.jobId (db.filesOf job.jobId)
  rw [heq]
  refine fixesJob_of_update _ hjob ?_ ?_ (fixNonTerminalJob_fixedTo (fixTarget (db.filesOf job.jobId)) reason _)
  · exact fixFiles_of_not_finished fun h => hty h.1
  · simp [JobRow.fixState?, hne, hty, hall]

theorem fixMultireplicaFinished_fixes (hjob : db.jobs.find? job.jobId = some job)
    (hty : job.type = .multipleReplica)
    (hany : (db.filesOf job.jobId).any (fun r => r.fileState = .finished) = true) :
    (db.view job.jobId).Fixes (((Stmt.job (.fixMultireplicaFinished job.jobId)).exec
      ((Stmt.file (.fixMultireplicaFinished job.jobId)).exec db).2).2.view job.jobId) job := by
  have hne : db.filesOf job.jobId ≠ [] := by
    intro h
    simp [h] at hany
  refine ⟨(JobUpdate.fixMultireplicaFinished job.jobId).sets db.now job, ?_, ?_⟩
  · rw [view_exec_job _ (by rw [exec_file_jobs]; exact hjob)]
    have hsel : (JobUpdate.fixMultireplicaFinished job.jobId).selects job = true := decide_eq_true rfl
    rw [if_pos hsel, JobRow.fixFiles, if_pos ⟨hty, hany⟩, Db.view_files, Db.view_now, ← exec_file_filesOf]
    rfl
  · simp [JobRow.fixState?, hne, hty, hany, JobRow.FixedTo, JobUpdate.sets]

theorem fixMultireplicaFailed_fixes (hjob : db.jobs.find? job.jobId = some job)
    (hst : job.fixState? (db.filesOf job.jobId) = some .failed)
    (hany : ¬(db.filesOf job.jobId).any (fun r => r.fileState = .finished) = true) :
    (db.view job.jobId).Fixes (((Stmt.job (.fixMultireplicaFailed job.jobId)).exec db).2.view job.jobId) job := by
  refine fixesJob_of_update _ hjob (fixFiles_of_not_finished fun h => hany h.2) hst ?_
  simp [JobUpdate.selects, JobRow.FixedTo, JobUpdate.sets]

theorem fixJobOfRow_fixes (hjob : db.jobs.find? job.jobId = some job) :
    (db.view job.jobId).Fixes (((fixJobOfRow job).run Stmt.exec db).2.view job.jobId) job := by
  have hrun : (fixJobOfRow job).run Stmt.exec db =
      (fixJob job.jobId job.type job.jobState (db.filesOf job.jobId)).run Stmt.exec db := rfl
  rw [hrun]
  unfold fixJob
  extract_lets filesInJob count
  by_cases hempty : db.filesOf job.jobId = []
  · rw [if_pos (by simp [filesInJob, hempty])]
    exact fixEmptyJob_fixes hjob hempty
  rw [if_neg (by simpa [filesInJob] using hempty)]
  by_cases hty : job.type = .multipleReplica
  · rw [if_neg (by simp [hty])]
    by_cases hany : (db.filesOf job.jobId).any (fun r => r.fileState = .finished) = true
    · rw [if_pos (by simpa [count, stateCount_finished, Nat.one_le_iff_ne_zero] using hany)]
      exact fixMultireplicaFinished_fixes hjob hty hany
    rw [if_neg (by simpa [count, stateCount_finished] using hany)]
    have hfail : filesInJob ≤ count "FAILED" + count "CANCEL" ↔
        (db.filesOf job.jobId).all (fun r => r.fileState = .failed) = true := by
      have hle := (db.filesOf job.jobId).countP_le_length (p := fun r => r.fileState = .failed)
      rw [← all_iff_countP_eq]
      simp only [count, filesInJob, stateCount_failed, stateCount_cancel]
      omega
    have hidle : count "ACTIVE" + count "SUBMITTED" = 0 ↔
        (db.filesOf job.jobId).all (fun r => r.fileState ≠ .active && r.fileState ≠ .submitted) = true := by
      simp [count, stateCount_active, stateCount_submitted, List.countP_eq_zero, ← forall_and]
    simp only [hfail, hidle]
    split
    · rename_i hall
      refine fixMultireplicaFailed_fixes hjob ?_ hany
      rw [JobRow.fixState?, if_neg (by simpa using hempty), if_neg (by simp [hty]), if_neg hany,
        if_pos (.inl hall)]
    · rename_i hall
      split
      · rename_i hcond
        refine fixMultireplicaFailed_fixes hjob ?_ hany
        rw [JobRow.fixState?, if_neg (by simpa using hempty), if_neg (by simp [hty]), if_neg hany,
          if_pos (.inr hcond)]
      · rename_i hcond
        refine fixesJob_refl hjob (fixFiles_of_not_finished fun h => hany h.2) ?_
        rw [JobRow.fixState?, if_neg (by simpa using hempty), if_neg (by simp [hty]), if_neg hany,
          if_neg (not_or.mpr ⟨hall, hcond⟩)]
  · rw [if_pos hty]
    have hall : filesInJob = count "FINISHED" + count "FAILED" + count "CANCEL" ↔
        (db.filesOf job.jobId).all (fun r => r.fileState = .finished || r.fileState = .failed) = true := by
      rw [← all_iff_countP_eq, ← countP_finished_add_failed]
      simp only [count, filesInJob, stateCount_finished, stateCount_failed, stateCount_cancel, Nat.add_zero]
    simp only [hall]
    split
    · rename_i h
      exact fixNonTerminalJob_fixes hjob hempty hty h
    · rename_i h
      refine fixesJob_refl hjob (fixFiles_of_not_finished fun h => hty h.1) ?_
      simp [JobRow.fixState?, hempty, hty, h]

/-! ## All jobs -/

theorem fixJobNonTerminallAllFilesTerminal_run (db : Db) :
    (fixJobNonTerminallAllFilesTerminal.alone db) =
      ((List.forM (db.jobs.select fun j => j.jobFinished.isNone) fixJobOfRow).run Stmt.exec db).2 := by
  simp only [Op.alone, fixJobNonTerminallAllFilesTerminal, Proc.bind_eq, beginTx_bind, select_bind, Proc.run_tx,
    Proc.run_select, Proc.run_bind]
  rfl

/-- The check does to an unfinished job what its step for it does. -/
theorem fixJobs_fixes (hjob : db.jobs.find? job.jobId = some job) (hfin : job.jobFinished = none) :
    (db.view job.jobId).Fixes ((fixJobNonTerminallAllFilesTerminal.alone db).view job.jobId) job := by
  have hnodup : ((db.jobs.select fun j => j.jobFinished.isNone).map JobRow.jobId).Nodup :=
    db.jobs.nodup.sublist (List.filter_sublist.map _)
  have hmem : job ∈ db.jobs.select fun j => j.jobFinished.isNone :=
    List.mem_filter.mpr ⟨Table.mem_of_find? hjob, by simp [hfin]⟩
  obtain ⟨db₁, hview, hrun⟩ := Proc.run_forM_of_mem (Db.view job.jobId) hnodup hmem rfl
    (fun x s hx => fixJobOfRow_frame hx s) db
  rw [fixJobNonTerminallAllFilesTerminal_run, hrun, ← hview]
  refine fixJobOfRow_fixes ?_
  have : (db₁.view job.jobId).job = some job := by rw [hview]; exact hjob
  exact this

theorem fixJobs_none {j : String} (hjob : db.jobs.find? j = none) :
    (fixJobNonTerminallAllFilesTerminal.alone db).jobs.find? j = none := by
  have hissues : fixJobNonTerminallAllFilesTerminal.Issues fun s => ∃ j, s.Addresses j := fun _ =>
    (Proc.issues_forM _ _ fun job _ => (fixJobOfRow_addresses job).mono fun _ h => ⟨_, h⟩).bind fun _ => trivial
  refine hissues.run (I := fun db' => db'.jobs.find? j = none) ?_ hjob
  rintro s db' ⟨i, hs⟩ h
  cases s with
  | file u => exact h
  | job u => rw [exec_job_find?, h]; rfl
  | _ => cases hs

theorem fixJobs_finished (hjob : db.jobs.find? job.jobId = some job) (hfin : job.jobFinished ≠ none) :
    (fixJobNonTerminallAllFilesTerminal.alone db).view job.jobId = db.view job.jobId := by
  rw [fixJobNonTerminallAllFilesTerminal_run]
  refine Proc.run_forM_of_ne (Db.view job.jobId) _ (fun x hx hid => ?_)
    (fun x s hx => fixJobOfRow_frame hx s) db
  obtain ⟨hmem, hnone⟩ := List.mem_filter.mp hx
  have hx : db.jobs.find? job.jobId = some x := Table.find?_eq_some_iff.mpr ⟨hmem, hid⟩
  rw [hjob] at hx
  cases hx
  exact hfin (by simpa using hnone)

end job

/-! ## Files of finished jobs -/

def FileRow.forceFailed (now : Nat) (r : FileRow) : FileRow :=
  if r.fileState ∈ [.active, .submitted, .staging, .started] then
    (FileUpdate.fixJobTerminalFileNonTerminal r.jobId).sets now r
  else r

theorem FileRow.forceFailed_idem (now : Nat) (r : FileRow) :
    (r.forceFailed now).forceFailed now = r.forceFailed now := by
  by_cases h : r.fileState ∈ [.active, .submitted, .staging, .started]
  · have hfailed : (r.forceFailed now).fileState = .failed := by
      rw [forceFailed, if_pos h]
      rfl
    rw [forceFailed, if_neg (by simp [hfailed])]
  · have hsame : r.forceFailed now = r := by rw [forceFailed, if_neg h]
    rw [hsame, hsame]

theorem forceFail_filesOf (db : Db) (i j : String) :
    ((Stmt.file (.fixJobTerminalFileNonTerminal i)).exec db).2.filesOf j =
      if i = j then (db.filesOf j).map (FileRow.forceFailed db.now) else db.filesOf j := by
  rw [exec_file_filesOf]
  split
  · rename_i hij
    subst hij
    refine List.map_congr_left fun r hr => ?_
    have hid : r.jobId = i := by simpa using (List.mem_filter.mp hr).2
    simp only [FileUpdate.selects, hid, Bool.and_true, decide_true, decide_eq_true_eq, FileRow.forceFailed]
  · rename_i hij
    rw [List.map_congr_left (g := id), List.map_id]
    intro r hr
    have hid : r.jobId = j := by simpa using (List.mem_filter.mp hr).2
    rw [if_neg]
    · rfl
    · simp only [FileUpdate.selects, hid, Bool.and_eq_true, decide_eq_true_eq]
      exact fun h => hij h.2.symm

/-- The loop of the check; a job that is listed more than once is updated to the same end. -/
theorem forceFail_loop (ids : List String) (j : String) (db : Db) :
    ((ids.forM fun i => (do let _ ← updateFile (.fixJobTerminalFileNonTerminal i); pure () : Op Unit)).run Stmt.exec
        db).2.filesOf j =
      if j ∈ ids then (db.filesOf j).map (FileRow.forceFailed db.now) else db.filesOf j := by
  induction ids generalizing db with
  | nil => rfl
  | cons i ids ih =>
      rw [Proc.run_forM_cons, ih]
      have hrow : ∀ rows : List FileRow, (rows.map (FileRow.forceFailed db.now)).map (FileRow.forceFailed db.now) =
          rows.map (FileRow.forceFailed db.now) := by
        intro rows
        rw [List.map_map]
        exact List.map_congr_left fun r _ => r.forceFailed_idem db.now
      have hexec : ((do let _ ← updateFile (.fixJobTerminalFileNonTerminal i); pure () : Op Unit).run Stmt.exec
          db).2 = ((Stmt.file (.fixJobTerminalFileNonTerminal i)).exec db).2 := rfl
      have hnow : ((Stmt.file (.fixJobTerminalFileNonTerminal i)).exec db).2.now = db.now := rfl
      rw [hexec, hnow, forceFail_filesOf]
      by_cases hij : i = j
      · subst hij
        simp [hrow]
      · simp [hij, Ne.symm hij]

theorem fixJobTerminalFileNonTerminal_jobs (db : Db) :
    (fixJobTerminalFileNonTerminal.alone db).jobs = db.jobs := by
  have hissues : fixJobTerminalFileNonTerminal.Issues fun s => ∃ u, s = .file u := by
    refine fun _ => (Proc.issues_forM _ _ fun j _ => ?_).bind fun _ => trivial
    simp
  refine hissues.run (I := fun db' => db'.jobs = db.jobs) ?_ rfl
  rintro s db' ⟨u, rfl⟩ h
  exact h

/-- The check fails the files of a finished job that it knows how to find. -/
theorem fixJobTerminalFileNonTerminal_filesOf {db : Db} {job : JobRow}
    (hjob : db.jobs.find? job.jobId = some job) (hfin : job.jobFinished ≠ none) :
    (fixJobTerminalFileNonTerminal.alone db).filesOf job.jobId =
      (db.filesOf job.jobId).map (FileRow.forceFailed db.now) := by
  have hrun : fixJobTerminalFileNonTerminal.alone db = ((List.forM (joinJobs db (fun j => j.jobFinished.isSome)
      FileRow.jobId (db.files.select fun r => r.fileState ∈ [.submitted, .active, .staging, .started])) fun i =>
        (do let _ ← updateFile (.fixJobTerminalFileNonTerminal i); pure () : Op Unit)).run Stmt.exec db).2 := by
    simp only [Op.alone, fixJobTerminalFileNonTerminal, Proc.bind_eq, select_bind, Proc.run_select, beginTx_bind,
      Proc.run_tx, Proc.run_bind]
    rfl
  rw [hrun, forceFail_loop]
  split
  · rfl
  · rename_i hno
    -- a job that is not listed has no file to fail
    rw [List.map_congr_left (g := id), List.map_id]
    intro r hr
    obtain ⟨hmem, hid⟩ := List.mem_filter.mp hr
    have hid : r.jobId = job.jobId := by simpa using hid
    refine if_neg fun hst => hno ?_
    simp only [joinJobs, List.mem_flatMap, List.mem_map, List.mem_filter, Table.select]
    refine ⟨job, ⟨Table.mem_of_find? hjob, by simpa [Option.isSome_iff_ne_none] using hfin⟩, r, ⟨⟨hmem, ?_⟩, ?_⟩, rfl⟩
    · simp only [List.mem_cons, List.not_mem_nil, or_false, decide_eq_true_eq] at hst ⊢
      grind
    · simpa using hid

end Fts3.MySql
