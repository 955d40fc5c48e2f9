import Fts3.MySql.Lemmas.Completion

/-!
# The end of a job with concurrent callers

Any number of callers store the status of files of one job and then that of the job, statement by statement
in any order. When all of them have returned and all files are terminal, so is the job.
-/

namespace Fts3.MySql

open Fts3.Sql

/-! ## One caller -/

/-- A guarded `UPDATE` on `t_file` that makes a file terminal only for a caller with a terminal state. -/
def Stmt.Reports (state : FileState) : Stmt → Prop
  | .file u => Stmt.Guarded (.file u) ∧ ∀ st, u.writes? = some st → st.terminal = true → state.terminal = true
  | _ => False

theorem Stmt.Reports.guarded {state : FileState} {s : Stmt} (h : s.Reports state) : s.Guarded := by
  cases s with
  | file u => exact h.1
  | _ => cases h

theorem updateFile_reports (node : Node) (a : TransferStatus) :
    (updateFileTransferStatusInternal node a).Issues (Stmt.Reports a.newFileState) := by
  refine issues_updateFileTransferStatusInternal ?_ ?_ ?_ ?_
  · intro j f uuid
    refine ⟨⟨trivial, rfl⟩, fun st hst hterm => ?_⟩
    cases hst
    cases hterm
  · intro _ f
    refine ⟨⟨trivial, rfl⟩, fun st hst hterm => ?_⟩
    cases hst
    cases hterm
  · intro j
    exact ⟨⟨trivial, rfl⟩, fun st hst => by cases hst⟩
  · intro u hu hreq _
    refine ⟨⟨hu, rfl⟩, fun st hst hterm => ?_⟩
    cases hst
    rcases hu.2 with h | ⟨-, h⟩
    · rw [← hreq, ← h]
      exact hterm
    · rw [h] at hterm
      cases hterm

theorem Caller.guarded (c : Caller) : c.prog.Issues Stmt.Guarded :=
  ((updateFile_reports c.node c.status).mono fun _ h => h.guarded).bind fun _ =>
    updateJob_guarded c.node c.status.jobId c.status.newFileState

theorem Stmt.Reports.terminal {state : FileState} {s : Stmt} {j : String} {db : Db} (h : s.Reports state)
    (hbefore : ¬FilesTerminal j db) (hafter : FilesTerminal j (s.exec db).2) : state.terminal = true := by
  cases s with
  | file u =>
      by_contra hstate
      refine hbefore fun r hr => ?_
      rw [FilesTerminal, exec_file_filesOf, List.forall_mem_map] at hafter
      have hterm := hafter r hr
      split at hterm
      · rw [u.sets_fileState] at hterm
        cases hw : u.writes? with
        | none =>
            rw [hw] at hterm
            exact hterm
        | some st =>
            rw [hw] at hterm
            exact absurd (h.2 st hw hterm) hstate
      · exact hterm
  | _ => cases h

section caller

variable {j : String} {ty : JobType} {db : Db} {c : Caller}

theorem Caller.terminates {α : Type} {p : Op α} (hp : p.Issues (Stmt.Reports c.status.newFileState))
    (hj : c.status.jobId = j) (hstate : c.status.newFileState.terminal = true) (hdb : HasType j ty db)
    (hfiles : FilesTerminal j db) :
    Op.Terminates j (p.bind fun _ => updateJobTransferStatusInternal c.node c.status.jobId c.status.newFileState)
      db := by
  rw [hj]
  exact Proc.Ensures.bind (A := fun db => HasType j ty db ∧ FilesTerminal j db) hp
    (fun _ db hs => hs.guarded.progress j db) (fun _ _ h hA => ⟨h.hasType hA.1, h.filesTerminal hA.2⟩)
    (fun _ _ hA => updateJob_terminates_job hstate hA.1 hA.2) ⟨hdb, hfiles⟩

theorem Caller.followed {C : Act Sel Stmt → Db → Db → Prop} (hj : c.status.jobId = j) (hdb : HasType j ty db) :
    c.prog.Keeps Stmt.exec (Progress j) C (Followed j) db := by
  refine (updateFile_reports c.node c.status).keeps_bind (I := HasType j ty)
    (fun _ db hs => hs.guarded.progress j db) (fun _ _ h => h.hasType) ?_ ?_ hdb
  · intro u db₁ p' hu hp' hdb₁ hbefore hafter
    exact Caller.terminates hp' hj (hu.terminal hbefore hafter) ((hu.guarded.progress j db₁).hasType hdb₁) hafter
  · intro _ db₁ hdb₁
    rw [hj]
    exact updateJob_followed hdb₁

theorem Caller.finishes {C : Act Sel Stmt → Db → Db → Prop} {P : Db → JobRow → Prop} (hj : c.status.jobId = j)
    (h : ∀ db, HasType j ty db → (updateJobTransferStatusInternal c.node j c.status.newFileState).Keeps Stmt.exec
      (Progress j) C (fun db db' _ => Finishes P j db db') db) (hdb : HasType j ty db) :
    c.prog.Keeps Stmt.exec (Progress j) C (fun db db' _ => Finishes P j db db') db := by
  refine (updateFile_reports c.node c.status).keeps_bind (I := HasType j ty)
    (fun _ db hs => hs.guarded.progress j db) (fun _ _ h => h.hasType) ?_ ?_ hdb
  · intro u db₁ p' hu _ _
    cases u with
    | file u => exact finishes_file u db₁
    | _ => cases hu
  · intro _ db₁ hdb₁
    rw [hj]
    exact h db₁ hdb₁

end caller

/-! ## All callers -/

section callers

variable {j : String} {ty : JobType} {db : Db} {callers : List Caller} {schedule : List Nat}

theorem Callers.progress (j : String) : ∀ e ∈ Callers.steps db callers schedule, Progress j e.pre e.post := by
  intro e he
  have hexec := Pool.trace_executes _ schedule e he
  have hissues : (Callers.init db callers).Issues Stmt.Guarded := by
    refine Pool.issues_start fun p hp => ?_
    obtain ⟨c, -, rfl⟩ := List.mem_map.mp hp
    exact c.guarded
  have hguard := hissues.trace schedule e he
  unfold Event.Executes at hexec
  split at hexec
  · rename_i u hu
    rw [hexec.2]
    exact (hguard u hu).progress j e.pre
  · rw [hexec]
    exact .refl _

/-- When all callers have returned and all files are terminal, the job is. -/
theorem Callers.completes (hj : ∀ c ∈ callers, c.status.jobId = j) (hdb : HasType j ty db)
    (hstart : FilesTerminal j db → JobTerminal j db ∨ ∃ c ∈ callers, c.status.newFileState.terminal = true)
    (hdone : (Callers.after db callers schedule).Done)
    (hfiles : FilesTerminal j (Callers.after db callers schedule).store) :
    JobTerminal j (Callers.after db callers schedule).store := by
  refine Pool.Keeps.completes (C := fun _ _ _ => True) Progress.refl Progress.trans (fun _ _ h => h.jobTerminal)
    ?_ ?_ schedule (Callers.progress j) (fun _ _ => trivial) hdone hfiles
  · refine Pool.keeps_start Progress.refl fun p hp => ?_
    obtain ⟨c, hc, rfl⟩ := List.mem_map.mp hp
    exact Caller.followed (hj c hc) hdb
  · intro hA
    rcases hstart hA with h | ⟨c, hc, hstate⟩
    · exact .inl h
    · obtain ⟨i, hi⟩ := List.mem_iff_getElem?.mp hc
      refine .inr ⟨i, ⟨c.prog, db⟩, ?_, .refl _, ?_⟩
      · simp [Callers.init, Pool.start, hi]
      · exact Caller.terminates (updateFile_reports c.node c.status) (hj c hc) hstate hdb hA

/-- What is true of a job when it becomes terminal, and stays true, is true of it at the end. -/
theorem Callers.finishes {C : Act Sel Stmt → Db → Db → Prop} {P : Db → JobRow → Prop}
    (hkeeps : ∀ c ∈ callers, c.prog.Keeps Stmt.exec (Progress j) C (fun db db' _ => Finishes P j db db') db)
    (hstable : ∀ db db' job, Progress j db db' → P db job → P db' job)
    (hC : ∀ e ∈ Callers.steps db callers schedule, C e.act e.last e.pre)
    (hstart : ∀ job, db.jobs.find? j = some job → job.jobState.terminal = true → P db job) :
    ∀ job, (Callers.after db callers schedule).store.jobs.find? j = some job → job.jobState.terminal = true →
      P (Callers.after db callers schedule).store job := by
  have hpool : (Callers.init db callers).Keeps Stmt.exec (Progress j) C fun db db' _ => Finishes P j db db' := by
    refine Pool.keeps_start Progress.refl fun p hp => ?_
    obtain ⟨c, hc, rfl⟩ := List.mem_map.mp hp
    exact hkeeps c hc
  have hsteps := hpool.trace Progress.refl Progress.trans schedule (Callers.progress j) hC
  refine Pool.run_rel (R := fun db db' : Db =>
      (∀ job, db.jobs.find? j = some job → job.jobState.terminal = true → P db job) →
      ∀ job, db'.jobs.find? j = some job → job.jobState.terminal = true → P db' job)
    (fun _ => id) (fun h₁ h₂ => h₂ ∘ h₁) schedule ?_ hstart
  intro e he hpre job hjob hterm
  rcases hsteps e he with heq | hfin
  · rw [heq] at hjob ⊢
    exact hpre job hjob hterm
  · rcases hfin job hjob hterm with hsame | hP
    · exact hstable _ _ job (Callers.progress j e he) (hpre job hsame hterm)
    · exact hP

end callers

/-! ## No lost completion -/

/-- When all callers have returned and all files are terminal, the job is terminal with `job_finished` set. -/
def NoLostCompletion (db : Db) (j : String) (callers : List Caller) (schedule : List Nat) : Prop :=
  (Callers.after db callers schedule).Done →
    (∀ r ∈ (Callers.after db callers schedule).store.filesOf j, r.fileState.terminal = true) →
    ∃ job, (Callers.after db callers schedule).store.jobs.find? j = some job ∧ job.jobState.terminal = true ∧
      job.jobFinished ≠ none

/-- A caller with a terminal state that has read `STAGING` and found no file being staged does not find the
job in another live state when it reads it again. -/
def staysStaged (j : String) (act : Act Sel Stmt) (db : Db) : Bool :=
  match act with
  | .select (.currentStateAgain i state (some .staging)) =>
      !(i = j && state.terminal) || (db.jobState? j).all fun st => st = .staging || st.terminal
  | _ => true

theorem staysStaged_spec {j : String} {state : FileState} {db : Db} {job : JobRow}
    (h : staysStaged j (.select (.currentStateAgain j state (some .staging))) db = true)
    (hstate : state.terminal = true) (hjob : db.jobs.find? j = some job) :
    job.jobState = .staging ∨ job.jobState.terminal = true := by
  simpa [staysStaged, hstate, Db.jobState?, hjob] using h

theorem updateJob_stamps {node : Node} {j : String} {state : FileState} {ty : JobType} {db : Db}
    (hdb : HasType j ty db) :
    (updateJobTransferStatusInternal node j state).Keeps Stmt.exec (Progress j)
      (fun act _ db => staysStaged j act db = true)
      (fun db db' _ => Finishes (fun _ job => job.jobFinished ≠ none) j db db') db := by
  have hterminate : ∀ db st reason se, Finishes (fun _ job => job.jobFinished ≠ none) j db
      ((Stmt.job (.terminate j st reason se)).exec db).2 := by
    intro db st reason se
    refine finishes_terminate ?_
    rintro job _ - rfl
    exact Option.some_ne_none db.now
  refine updateJob_keeps (fun _ _ _ _ _ _ _ _ _ => hterminate _ _ _ _) (fun _ _ => finishes_of_live rfl _) ?_ hdb
  intro old se db' hdb' _
  refine aggregateJob_keeps ?_ ?_ hdb'
  · intro n db₁ hdb₁
    exact storeFinishedJob_keeps (fun _ _ _ _ _ => hterminate _ _ _ _) (fun _ _ _ _ => finishes_file _ _) hdb₁
  · intro n db₁ hdb₁
    exact storeUnfinishedJob_keeps (fun _ _ _ h hstate hjob => staysStaged_spec h hstate hjob) hdb₁

/-- In a run in which no caller finds a job that it has read as being staged in another live state, no
completion is lost. -/
theorem no_lost_completion (db : Db) (job : JobRow) (callers : List Caller) (schedule : List Nat)
    (hjob : db.jobs.find? job.jobId = some job) (hstamped : job.jobState.terminal = true → job.jobFinished ≠ none)
    (hcallers : callers ≠ []) (hj : ∀ c ∈ callers, c.status.jobId = job.jobId)
    (hstate : ∀ c ∈ callers, c.status.newFileState.terminal = true)
    (h : ∀ e ∈ Callers.steps db callers schedule, staysStaged job.jobId e.act e.pre = true) :
    NoLostCompletion db job.jobId callers schedule := by
  intro hdone hfiles
  have hdb : HasType job.jobId job.type db := ⟨job, hjob, rfl⟩
  obtain ⟨c, hc⟩ := List.exists_mem_of_ne_nil callers hcallers
  obtain ⟨job', hjob', hterm⟩ := Callers.completes hj hdb (fun _ => .inr ⟨c, hc, hstate c hc⟩) hdone hfiles
  refine ⟨job', hjob', hterm, ?_⟩
  refine Callers.finishes (P := fun _ job => job.jobFinished ≠ none)
    (fun c hc => Caller.finishes (hj c hc) (fun _ hdb => updateJob_stamps hdb) hdb) (fun _ _ _ _ hP => hP) h ?_
    job' hjob' hterm
  intro job₀ hjob₀ hterm₀
  obtain rfl : job = job₀ := Option.some.inj (hjob.symm.trans hjob₀)
  exact hstamped hterm₀

def stagedDb : Db where
  files := .ofRows [{ fileId := 1, jobId := "j", fileState := .active, fileIndex := some 0 },
    { fileId := 2, jobId := "j", fileState := .active, fileIndex := some 1 },
    { fileId := 3, jobId := "j", fileState := .active, fileIndex := some 2 }]
  jobs := .ofRows [{ jobId := "j", jobState := .staging, jobType := some .regular }]

def finishedByThree : List Caller :=
  [⟨{ hostname := "a" }, { jobId := "j", fileId := 1, newFileState := .finished }⟩,
    ⟨{ hostname := "b" }, { jobId := "j", fileId := 2, newFileState := .finished }⟩,
    ⟨{ hostname := "c" }, { jobId := "j", fileId := 3, newFileState := .finished }⟩]

/-- The first node is interrupted before it reads the job again. -/
def interrupted : List Nat :=
  List.replicate 13 0 ++ List.replicate 17 1 ++ List.replicate 4 0 ++ List.replicate 6 2

def inTurn : List Nat :=
  List.replicate 17 0 ++ List.replicate 17 1 ++ List.replicate 17 2

theorem no_lost_completion_inTurn :
    (Callers.after stagedDb finishedByThree inTurn).Done ∧ NoLostCompletion stagedDb "j" finishedByThree inTurn :=
  ⟨by decide, no_lost_completion stagedDb { jobId := "j", jobState := .staging, jobType := some .regular }
    finishedByThree inTurn rfl (by decide) (by decide) (by decide) (by decide) (by decide)⟩

theorem lost_completion_interrupted : ¬NoLostCompletion stagedDb "j" finishedByThree interrupted := by
  intro h
  obtain ⟨job, hjob, -, hfin⟩ := h (by decide) (by decide)
  have hnone : ((Callers.after stagedDb finishedByThree interrupted).store.jobs.find? "j").map (·.jobFinished) =
      some none := by decide
  rw [hjob] at hnone
  exact hfin (by simpa using hnone)

/-! ## Agreement of the job with its files -/

/-- When all callers have returned and all files are terminal, the state of the job is the one that
`updateJobStatus` computes from them. -/
def JobAgrees (db : Db) (j : String) (callers : List Caller) (schedule : List Nat) : Prop :=
  (Callers.after db callers schedule).Done →
    (∀ r ∈ (Callers.after db callers schedule).store.filesOf j, r.fileState.terminal = true) →
    ∃ job, (Callers.after db callers schedule).store.jobs.find? j = some job ∧
      job.jobState = ((JobCounts.ofRows ((Callers.after db callers schedule).store.filesOf j)).outcome job.type).1

/-- No file index of the job becomes canceled between the second and the last count of a caller. -/
def countsTogether (j : String) (act : Act Sel Stmt) (last db : Db) : Bool :=
  match act with
  | .select (.count i c) =>
      !(i = j && c ∉ [.inJob, .notCanceled]) ||
        classSize (db.filesOf j) .canceled = classSize (last.filesOf j) .canceled
  | _ => true

/-- No caller with `FAILED` finds the job as a multiple replica job that is being archived. -/
def noArchiveFailure (j : String) (act : Act Sel Stmt) (db : Db) : Bool :=
  match act with
  | .select (.currentState i .failed) =>
      !(i = j) || (db.jobs.find? j).all fun job => !(job.type = .multipleReplica && job.jobState = .archiving)
  | _ => true

def undisturbed (j : String) (act : Act Sel Stmt) (last db : Db) : Bool :=
  countsTogether j act last db && staysStaged j act db && noArchiveFailure j act db

/-- The state of a finished job is that of its files, and no index is ongoing. -/
def AgreesWithFiles (j : String) (db : Db) (job : JobRow) : Prop :=
  classSize (db.filesOf j) .ongoing = 0 ∧ job.jobState = classOutcome (db.filesOf j) job.type

section agrees

variable {node : Node} {j : String} {state : FileState} {ty : JobType} {db : Db}

theorem undisturbed_staysStaged {act : Act Sel Stmt} {last : Db} (h : undisturbed j act last db = true) :
    staysStaged j act db = true := by
  simp only [undisturbed, Bool.and_eq_true] at h
  exact h.1.2

theorem countsTogether_spec {c : Count} {last : Db} (h : undisturbed j (.select (.count j c)) last db = true)
    (hc : c ∉ [Count.inJob, .notCanceled]) :
    classSize (db.filesOf j) .canceled = classSize (last.filesOf j) .canceled := by
  simp only [undisturbed, countsTogether, hc, Bool.and_eq_true] at h
  simpa using h.1.1

theorem AgreesWithFiles.progress {db' : Db} {job : JobRow} (h : AgreesWithFiles j db job) (hp : Progress j db db') :
    AgreesWithFiles j db' job := by
  refine ⟨(hp.files.classSize_eq h.1 .ongoing).trans h.1, ?_⟩
  rw [hp.files.classOutcome_eq h.1]
  exact h.2

theorem aggregateJob_agrees (hty : ty ≠ .multiHop) (old : Option JobState × JobType) (se : String)
    (hold : old.2 = ty) (hdb : HasType j ty db) :
    (aggregateJob node j state old se).Keeps Stmt.exec (Progress j)
      (fun act last db => undisturbed j act last db = true)
      (fun db db' _ => Finishes (AgreesWithFiles j) j db db') db := by
  simp only [aggregateJob, countFiles, selectCount, Proc.bind_eq, Proc.pure_eq, select_bind, Proc.select_bind,
    Proc.ret_bind]
  intro db₁ h₁ _ db₂ h₂ _ db₃ h₃ hC₃ db₄ h₄ hC₄ db₅ h₅ hC₅ db₆ h₆ hC₆
  have h₃₆ := (h₄.trans h₅).trans h₆
  have h₂₆ := h₃.trans h₃₆
  have h₁₆ := h₂.trans h₂₆
  have hdb₆ := (h₁.trans h₁₆).hasType hdb
  dsimp only
  split
  · rename_i hover
    have hcanceled : classSize (db₂.filesOf j) .canceled = classSize (db₆.filesOf j) .canceled :=
      calc classSize (db₂.filesOf j) .canceled = classSize (db₃.filesOf j) .canceled :=
            (countsTogether_spec hC₃ (by simp)).symm
        _ = classSize (db₄.filesOf j) .canceled := (countsTogether_spec hC₄ (by simp)).symm
        _ = classSize (db₅.filesOf j) .canceled := (countsTogether_spec hC₅ (by simp)).symm
        _ = classSize (db₆.filesOf j) .canceled := (countsTogether_spec hC₆ (by simp)).symm
    obtain ⟨hongoing, hout⟩ := JobCounts.outcome_of_torn hover (hold ▸ hty) rfl h₁₆.files rfl h₂₆.files rfl
      h₃₆.files rfl hcanceled
    refine storeFinishedJob_keeps ?_ (fun _ _ _ _ => finishes_file _ _) hdb₆
    intro db' reason se' _ hp
    refine finishes_terminate ?_
    rintro job _ hjob rfl
    obtain ⟨job₁, hjob₁, hty₁⟩ := hp.hasType hdb₆
    obtain rfl : job = job₁ := Option.some.inj (hjob.symm.trans hjob₁)
    refine ⟨(hp.files.classSize_eq hongoing .ongoing).trans hongoing, ?_⟩
    rw [JobUpdate.sets_jobState, JobUpdate.sets_type, exec_job_filesOf, hp.files.classOutcome_eq hongoing, hty₁,
      ← hold]
    exact hout
  · exact storeUnfinishedJob_keeps (fun _ _ _ h hstate hjob => staysStaged_spec (undisturbed_staysStaged h) hstate hjob) hdb₆

theorem noArchiveFailure_spec {last : Db} {job : JobRow}
    (h : undisturbed j (.select (.currentState j .failed)) last db = true) (hjob : db.jobs.find? j = some job) :
    ¬(job.type = .multipleReplica ∧ job.jobState = .archiving) := by
  simp only [undisturbed, noArchiveFailure, hjob, Bool.and_eq_true] at h
  rw [not_and_or]
  simpa using h.2

theorem updateJob_agrees (hty : ty ≠ .multiHop) (hdb : HasType j ty db) :
    (updateJobTransferStatusInternal node j state).Keeps Stmt.exec (Progress j)
      (fun act last db => undisturbed j act last db = true)
      (fun db db' _ => Finishes (AgreesWithFiles j) j db db') db := by
  refine updateJob_keeps ?_ (fun _ _ => finishes_of_live rfl _)
    (fun old se _ hdb' hold => aggregateJob_agrees hty old se hold hdb') hdb
  rintro - db₀ db₁ hC ⟨job, hjob, hreplica⟩
  exact absurd hreplica (noArchiveFailure_spec hC hjob)

end agrees

/-- The job is live while one of its files is, or it is in the state of its files. -/
def InStep (db : Db) (job : JobRow) : Prop :=
  if job.jobState.terminal then AgreesWithFiles job.jobId db job
  else ∃ r ∈ db.filesOf job.jobId, r.fileState.terminal = false

/-- In an undisturbed run the job ends in the state of its files. -/
theorem job_agrees_with_files (db : Db) (job : JobRow) (callers : List Caller) (schedule : List Nat)
    (hjob : db.jobs.find? job.jobId = some job) (hty : job.type ≠ .multiHop) (hstart : InStep db job)
    (hj : ∀ c ∈ callers, c.status.jobId = job.jobId)
    (h : ∀ e ∈ Callers.steps db callers schedule, undisturbed job.jobId e.act e.last e.pre = true) :
    JobAgrees db job.jobId callers schedule := by
  intro hdone hfiles
  have hdb : HasType job.jobId job.type db := ⟨job, hjob, rfl⟩
  have hterminal : FilesTerminal job.jobId db → JobTerminal job.jobId db := by
    intro hA
    unfold InStep at hstart
    split at hstart
    · exact ⟨job, hjob, ‹_›⟩
    · obtain ⟨r, hr, hlive⟩ := hstart
      rw [hA r hr] at hlive
      cases hlive
  obtain ⟨job', hjob', hterm⟩ := Callers.completes hj hdb (fun hA => .inl (hterminal hA)) hdone hfiles
  refine ⟨job', hjob', ?_⟩
  have hagree : AgreesWithFiles job.jobId (Callers.after db callers schedule).store job' := by
    refine Callers.finishes (fun c hc => Caller.finishes (hj c hc) (fun _ hdb => updateJob_agrees hty hdb) hdb)
      (fun _ _ _ hp hP => hP.progress hp) h ?_ job' hjob' hterm
    intro job₀ hjob₀ hterm₀
    obtain rfl : job = job₀ := Option.some.inj (hjob.symm.trans hjob₀)
    rwa [InStep, if_pos hterm₀] at hstart
  rw [(JobCounts.ofRows_outcome (.inl hagree.1)).1]
  exact hagree.2

def runningDb : Db where
  files := .ofRows [{ fileId := 1, jobId := "j", fileState := .active, fileIndex := some 0 },
    { fileId := 2, jobId := "j", fileState := .active, fileIndex := some 1 }]
  jobs := .ofRows [{ jobId := "j", jobState := .active, jobType := some .regular }]

def canceledByTwo : List Caller :=
  [⟨{ hostname := "a" }, { jobId := "j", fileId := 1, newFileState := .canceled }⟩,
    ⟨{ hostname := "b" }, { jobId := "j", fileId := 2, newFileState := .canceled }⟩]

def beforeTheCounts : List Nat :=
  List.replicate 5 0 ++ List.replicate 5 1 ++ List.replicate 11 0 ++ List.replicate 11 1

/-- The second node stores its file after the second count of the first one. -/
def betweenTheCounts : List Nat :=
  List.replicate 8 0 ++ List.replicate 5 1 ++ List.replicate 8 0 ++ List.replicate 11 1

theorem job_agrees_beforeTheCounts :
    (Callers.after runningDb canceledByTwo beforeTheCounts).Done ∧
      JobAgrees runningDb "j" canceledByTwo beforeTheCounts :=
  ⟨by decide, job_agrees_with_files runningDb { jobId := "j", jobState := .active, jobType := some .regular }
    canceledByTwo beforeTheCounts rfl (by decide) ⟨_, .head _, rfl⟩ (by decide) (by decide)⟩

theorem job_disagrees_betweenTheCounts : ¬JobAgrees runningDb "j" canceledByTwo betweenTheCounts := by
  intro h
  obtain ⟨job, hjob, hst⟩ := h (by decide) (by decide)
  have hstored : ((Callers.after runningDb canceledByTwo betweenTheCounts).store.jobs.find? "j").map
      (fun job => (job.jobState, job.type)) = some (.failed, .regular) := by decide
  have hcanceled : ((JobCounts.ofRows ((Callers.after runningDb canceledByTwo betweenTheCounts).store.filesOf
      "j")).outcome .regular).1 = .canceled := by decide
  rw [hjob, Option.map_some, Option.some.injEq, Prod.mk.injEq] at hstored
  rw [hstored.1, hstored.2, hcanceled] at hst
  cases hst

end Fts3.MySql
