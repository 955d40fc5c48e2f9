import Fts3.MySql.Lemmas.Writes

/-!
# Terminating a reuse process

`terminateReuseProcess` fails what is left of a job. Without a job id it looks the job up by the process, but selects the
files to be failed by the id that it was given.
-/

namespace Fts3.MySql

open Fts3.Sql

/-! ## The files of a job are failed -/

def FileRow.terminated (message : String) (now : Nat) (r : FileRow) : FileRow :=
  { r with fileState := .failed, finishTime := some now, destSurlUuid := none, reason := some message }

/-- Every file of the job that is not over is failed, and no other row changes. -/
structure FailsFilesOf (j message : String) (db db' : Db) : Prop where
  files : ∀ f, db'.files.find? f = (db.files.find? f).map fun r =>
    if r.jobId = j ∧ r.fileState.terminal = false then r.terminated message db.now else r
  others : { db' with files := db.files } = db

section fail

variable {db : Db} {j message : String}

theorem exec_terminateReuseProcess_find? (f f' : Nat) (message : String) (db : Db) :
    ((Stmt.file (.terminateReuseProcess f message)).exec db).2.files.find? f' =
      (db.files.find? f').map fun r => if f' = f then r.terminated message db.now else r := by
  rw [exec_file_find?]
  cases hr : db.files.find? f' with
  | none => rfl
  | some r =>
      have hid : r.fileId = f' := Table.find?_some hr
      simp only [Option.map_some, FileUpdate.selects, hid, decide_eq_true_eq]
      rfl

/-- One turn of the loop of `failFiles`. -/
def failFile (message : String) (f : Nat) : Op PUnit := do
  let _ ← updateFile (.terminateReuseProcess f message)
  pure ()

theorem failFiles_run (db : Db) : (failFiles j message).alone db =
    ((List.forM (((db.filesOf j).filter fun r => !r.fileState.terminal).map (·.fileId)) (failFile message)).run
      Stmt.exec db).2 := by
  simp only [failFiles, Op.alone, Proc.bind_eq, select_bind, beginTx_bind, Proc.run_select, Proc.run_tx, Proc.run_bind]
  rfl

/-- What the loop does to one file: its row and the time that is stored in it. -/
def Db.fileAt (f : Nat) (db : Db) : Option FileRow × Nat := (db.files.find? f, db.now)

theorem failFile_fileAt (f' f : Nat) (message : String) (db : Db) : (((failFile message f').run Stmt.exec db).2.fileAt f) =
    ((db.files.find? f).map fun r => if f = f' then r.terminated message db.now else r, db.now) :=
  Prod.ext (exec_terminateReuseProcess_find? f' f message db) rfl

theorem failFile_frame {f' f : Nat} (hne : f' ≠ f) (message : String) (db : Db) :
    (((failFile message f').run Stmt.exec db).2.fileAt f) = db.fileAt f := by
  rw [failFile_fileAt, Db.fileAt]
  simp [hne.symm]

theorem mem_failed {f : Nat} : f ∈ ((db.filesOf j).filter fun r => !r.fileState.terminal).map (·.fileId) ↔
    ∃ r, db.files.find? f = some r ∧ r.jobId = j ∧ r.fileState.terminal = false := by
  simp only [List.mem_map, List.mem_filter, mem_filesOf, Bool.not_eq_true']
  constructor
  · rintro ⟨r, ⟨⟨hr, hj⟩, hst⟩, rfl⟩
    exact ⟨r, hr, hj, hst⟩
  · rintro ⟨r, hr, hj, hst⟩
    cases Table.find?_some hr
    exact ⟨r, ⟨⟨hr, hj⟩, hst⟩, rfl⟩

theorem nodup_failed (db : Db) (j : String) :
    ((((db.filesOf j).filter fun r => !r.fileState.terminal).map (·.fileId)).map id).Nodup := by
  rw [List.map_id]
  exact db.files.nodup.sublist ((List.filter_sublist.trans List.filter_sublist).map _)

theorem failFiles_files (j message : String) (db : Db) (f : Nat) :
    ((failFiles j message).alone db).files.find? f = (db.files.find? f).map fun r =>
      if r.jobId = j ∧ r.fileState.terminal = false then r.terminated message db.now else r := by
  rw [failFiles_run]
  by_cases hmem : f ∈ ((db.filesOf j).filter fun r => !r.fileState.terminal).map (·.fileId)
  · obtain ⟨db₁, hview, hrun⟩ := Proc.run_forM_of_mem (Db.fileAt f) (nodup_failed db j) hmem rfl
      (fun f' db hne => failFile_frame hne message db) db
    obtain ⟨r, hr, hj, hst⟩ := mem_failed.mp hmem
    have hr₁ : db₁.files.find? f = some r := (congrArg Prod.fst hview).trans hr
    have hnow₁ : db₁.now = db.now := congrArg Prod.snd hview
    have hfiles := congrArg Prod.fst (hrun.trans (failFile_fileAt f f message db₁))
    rw [hr₁, hnow₁] at hfiles
    rw [hr, Option.map_some, if_pos ⟨hj, hst⟩]
    exact hfiles.trans (by simp)
  · have hview := Proc.run_forM_of_ne (Db.fileAt f) _ (fun f' hf' (h : id f' = f) => hmem (h ▸ hf'))
      (fun f' db hne => failFile_frame hne message db) db
    have hfiles := congrArg Prod.fst hview
    refine hfiles.trans ?_
    rw [Db.fileAt]
    cases hr : db.files.find? f with
    | none => rfl
    | some r =>
        rw [Option.map_some, if_neg fun h => hmem (mem_failed.mpr ⟨r, hr, h⟩)]

theorem failFiles_others (j message : String) (db : Db) :
    { (failFiles j message).alone db with files := db.files } = db := by
  have hissues : (failFiles j message).Issues fun s => ∃ u, s = .file u := by
    intro db
    refine (Proc.issues_forM _ _ fun f _ => ?_).bind fun _ => trivial
    exact ⟨⟨_, rfl⟩, fun _ => trivial⟩
  refine hissues.run (I := fun db' => { db' with files := db.files } = db) ?_ rfl
  rintro s db' ⟨u, rfl⟩ h
  exact h

theorem failsFilesOf_failFiles (j message : String) (db : Db) : FailsFilesOf j message db ((failFiles j message).alone db) :=
  ⟨failFiles_files j message db, failFiles_others j message db⟩

end fail

/-! ## The job is looked up by the process -/

/-- The job that the call is about: the one that it was given, or that of an `ACTIVE` file of the process. -/
def Db.reuseJob (db : Db) (jobId : String) (pid : Int) : String :=
  if jobId = "" then ((db.files.rows.find? fun r => r.pid = some pid && r.fileState = .active).map (·.jobId)).getD ""
  else jobId

/-- A job is failed by the call if its files run in one process, or anyway with `force`. -/
def Db.Fails (db : Db) (force : Bool) (j : String) : Prop :=
  force = true ∨ ∃ job, db.jobs.find? j = some job ∧ (job.jobType = some .sessionReuse ∨ job.jobType = some .multiHop)

section terminate

variable {db : Db} {j message : String} {pid : Int} {force : Bool}

theorem alone_ite {c : Prop} [Decidable c] (p : Op Unit) (db : Db) :
    Op.alone (if c then p else .ret ()) db = if c then p.alone db else db := by
  split <;> rfl

theorem terminateReuseProcess_run (jobId : String) (pid : Int) (message : String) (force : Bool) (db : Db) :
    (terminateReuseProcess jobId pid message force).alone db =
      if force || (match db.jobs.find? (db.reuseJob jobId pid) with
        | some job => job.jobType = some .sessionReuse || job.jobType = some .multiHop
        | none => false)
      then (failFiles jobId message).alone db else db := by
  unfold terminateReuseProcess Db.reuseJob
  by_cases hj : jobId = "" <;> cases force with
  | true =>
      simp only [hj, if_true, if_false]
      rfl
  | false =>
      simp only [hj, if_true, if_false, Bool.false_or, Bool.false_eq_true]
      exact alone_ite _ db

theorem fails_iff : db.Fails force j ↔
    (force || (match db.jobs.find? j with
      | some job => job.jobType = some .sessionReuse || job.jobType = some .multiHop
      | none => false)) = true := by
  unfold Db.Fails
  cases db.jobs.find? j with
  | none => simp
  | some job => simp

theorem terminateReuseProcess_of_fails (jobId : String) (h : db.Fails force (db.reuseJob jobId pid)) :
    (terminateReuseProcess jobId pid message force).alone db = (failFiles jobId message).alone db := by
  rw [terminateReuseProcess_run, if_pos (fails_iff.mp h)]

theorem terminateReuseProcess_of_not_fails (jobId : String) (h : ¬db.Fails force (db.reuseJob jobId pid)) :
    (terminateReuseProcess jobId pid message force).alone db = db := by
  rw [terminateReuseProcess_run, if_neg fun hf => h (fails_iff.mpr hf)]

/-- All the `ACTIVE` files of the process are of one job. -/
structure RunsJob (pid : Int) (j : String) (db : Db) : Prop where
  runs : ∃ r ∈ db.files.rows, r.pid = some pid ∧ r.fileState = .active
  job : ∀ r ∈ db.files.rows, r.pid = some pid → r.fileState = .active → r.jobId = j

theorem reuseJob_of_runsJob (h : RunsJob pid j db) : db.reuseJob "" pid = j := by
  rw [Db.reuseJob, if_pos rfl]
  cases hfind : db.files.rows.find? fun r => r.pid = some pid && r.fileState = .active with
  | none =>
      obtain ⟨r, hr, hpid, hst⟩ := h.runs
      have hnone := List.find?_eq_none.mp hfind r hr
      simp [hpid, hst] at hnone
  | some r =>
      have hsome := List.find?_some hfind
      simp only [Bool.and_eq_true, decide_eq_true_eq] at hsome
      exact h.job r (List.mem_of_find?_eq_some hfind) hsome.1 hsome.2

theorem reuseJob_of_ne (hj : j ≠ "") (db : Db) (pid : Int) : db.reuseJob j pid = j := if_neg hj

/-- The files of a job that runs are not those of no job, and so stay as they are. -/
theorem not_failsFilesOf_of_runsJob (h : RunsJob pid j db) (hj : j ≠ "") :
    (failFiles "" message).alone db ≠ (failFiles j message).alone db := by
  obtain ⟨r, hr, hpid, hst⟩ := h.runs
  have hfind := Table.find?_key hr
  have hrj := h.job r hr hpid hst
  intro heq
  have hfiles : ((failFiles "" message).alone db).files.find? r.fileId =
      ((failFiles j message).alone db).files.find? r.fileId := by
    rw [heq]
  rw [failFiles_files, failFiles_files, hfind, Option.map_some, Option.map_some, if_neg (by simp [hrj, hj]),
    if_pos ⟨hrj, by rw [hst]; rfl⟩] at hfiles
  have hstate := congrArg FileRow.fileState (Option.some.inj hfiles)
  rw [hst] at hstate
  cases hstate

end terminate

/-- Without the job id the call does what it does with it: nothing, or it fails the files of the job. -/
structure SameEffect (pid : Int) (message : String) (force : Bool) (j : String) (db : Db) : Prop where
  same : (terminateReuseProcess "" pid message force).alone db = (terminateReuseProcess j pid message force).alone db
  effect : (terminateReuseProcess "" pid message force).alone db = db ∨
    FailsFilesOf j message db ((terminateReuseProcess "" pid message force).alone db)

/-- A process is terminated without the job id as with it where there is nothing to be failed, and only there. -/
theorem terminateReuseProcess_by_pid_iff {pid : Int} {j : String} {db : Db} (h : RunsJob pid j db) (message : String)
    (force : Bool) : SameEffect pid message force j db ↔ j = "" ∨ ¬db.Fails force j := by
  have hjob := reuseJob_of_runsJob h
  by_cases hj : j = ""
  · subst hj
    refine ⟨fun _ => .inl rfl, fun _ => ⟨rfl, ?_⟩⟩
    by_cases hfails : db.Fails force ""
    · right
      rw [terminateReuseProcess_of_fails "" (hjob.symm ▸ hfails)]
      exact failsFilesOf_failFiles "" message db
    · left
      exact terminateReuseProcess_of_not_fails "" (hjob.symm ▸ hfails)
  · have hjob' := reuseJob_of_ne hj db pid
    constructor
    · intro hsame
      right
      intro hfails
      have heq := hsame.same
      rw [terminateReuseProcess_of_fails "" (hjob.symm ▸ hfails),
        terminateReuseProcess_of_fails j (hjob'.symm ▸ hfails)] at heq
      exact not_failsFilesOf_of_runsJob h hj heq
    · rintro (hj' | hfails)
      · exact absurd hj' hj
      · have hnothing : (terminateReuseProcess "" pid message force).alone db = db :=
          terminateReuseProcess_of_not_fails "" (hjob.symm ▸ hfails)
        refine ⟨?_, .inl hnothing⟩
        rw [hnothing, terminateReuseProcess_of_not_fails j (hjob'.symm ▸ hfails)]

/-- Two files of a job run in the process 7. -/
def reusingDb (ty : JobType) : Db where
  files := .ofRows [
    { fileId := 1, jobId := "j", fileState := .active, pid := some 7 },
    { fileId := 2, jobId := "j", fileState := .submitted }]
  jobs := .ofRows [{ jobId := "j", jobState := .active, jobType := some ty }]
  now := 100

theorem reusingDb_runsJob (ty : JobType) : RunsJob 7 "j" (reusingDb ty) := by
  have hjob : ∀ r ∈ (reusingDb .regular).files.rows, r.pid = some 7 → r.fileState = .active → r.jobId = "j" := by
    decide
  exact ⟨⟨_, List.mem_cons_self, rfl, rfl⟩, hjob⟩

/-- The files of a regular job are not failed. -/
theorem terminateReuseProcess_of_regular : SameEffect 7 "killed" false "j" (reusingDb .regular) := by
  refine (terminateReuseProcess_by_pid_iff (reusingDb_runsJob .regular) "killed" false).mpr (.inr ?_)
  rintro (h | ⟨job, hjob, hty⟩)
  · cases h
  · cases hjob
    simp at hty

/-- Those of a job with session reuse should be, and stay as they are. -/
theorem terminateReuseProcess_of_sessionReuse : RunsJob 7 "j" (reusingDb .sessionReuse) ∧
    ¬SameEffect 7 "killed" false "j" (reusingDb .sessionReuse) ∧
    ((terminateReuseProcess "" 7 "killed" false).alone (reusingDb .sessionReuse)).fileState? 1 = some .active ∧
    ((terminateReuseProcess "j" 7 "killed" false).alone (reusingDb .sessionReuse)).fileState? 1 = some .failed := by
  have hstays : ((terminateReuseProcess "" 7 "killed" false).alone (reusingDb .sessionReuse)).fileState? 1 = some .active := by
    decide +kernel
  have hfails : ((terminateReuseProcess "j" 7 "killed" false).alone (reusingDb .sessionReuse)).fileState? 1 = some .failed := by
    decide +kernel
  refine ⟨reusingDb_runsJob .sessionReuse, fun h => ?_, hstays, hfails⟩
  rw [h.same, hfails] at hstays
  cases hstays

end Fts3.MySql
