import Fts3.MySql.Lemmas.Progress

/-!
# `updateJobStatus` among other callers

What `updateJobTransferStatusInternal` does while other callers make progress on the job between any two of
its statements.
-/

namespace Fts3.MySql

open Fts3.Sql

variable {node : Node} {j : String} {state : FileState} {ty : JobType} {db : Db}

theorem sameState_terminal {st : JobState} (h : sameState (some st) state = true) (hstate : state.terminal = true) :
    st.terminal = true := by
  cases state <;> simp [sameState, FileState.toJobState?] at h <;> cases hstate <;> rw [h] <;> rfl

/-! ## Once all files are terminal -/

def Op.Terminates {β : Type} (j : String) (p : Op β) (db : Db) : Prop :=
  p.Ensures Stmt.exec (Progress j) (JobTerminal j) db

theorem terminates_of_jobTerminal {β : Type} {p : Op β} (hp : p.Issues Stmt.Guarded) (h : JobTerminal j db) :
    p.Terminates j db :=
  hp.ensures (fun _ db hs => hs.progress j db) (fun _ _ h => h.jobTerminal) h

theorem storeFinishedJob_terminates (n : JobCounts) (old : Option JobState × JobType) (se : String)
    (hdb : HasType j ty db) : (storeFinishedJob node j n old se).Terminates j db := by
  simp only [storeFinishedJob, Proc.bind_eq, select_bind, beginTx_bind, updateJob_bind, commit_bind]
  intro db₁ h₁
  obtain ⟨job₁, hjob₁, -⟩ := h₁.hasType hdb
  simp only [readJobAgain_of_find? _ hjob₁, Option.some.injEq]
  split
  · rename_i hst
    exact ⟨job₁, hjob₁, by rw [hst]; exact n.outcome_terminal old.2⟩
  · intro db₂ h₂ db₃ h₃
    obtain ⟨job₃, hjob₃, -⟩ := (h₂.trans h₃).hasType (h₁.hasType hdb)
    refine terminates_of_jobTerminal ?_ (exec_terminate_terminal _ _ hjob₃ (n.outcome_terminal old.2))
    simp [Stmt.Guarded, Stmt.Issued, FileUpdate.unguarded]

/-- The counts of terminal files are the same at all moments. -/
theorem aggregateJob_terminates (old : Option JobState × JobType) (se : String) (hdb : HasType j ty db)
    (hfiles : FilesTerminal j db) : (aggregateJob node j state old se).Terminates j db := by
  simp only [aggregateJob, countFiles, selectCount, Proc.bind_eq, Proc.pure_eq, select_bind, Proc.select_bind,
    Proc.ret_bind]
  intro db₁ h₁ db₂ h₂ db₃ h₃ db₄ h₄ db₅ h₅ db₆ h₆
  have h₂ := h₁.trans h₂
  have h₃ := h₂.trans h₃
  have h₄ := h₃.trans h₄
  have h₅ := h₄.trans h₅
  have h₆ := h₅.trans h₆
  simp only [h₁.files.countIndexes_eq hfiles, h₂.files.countIndexes_eq hfiles, h₃.files.countIndexes_eq hfiles,
    h₄.files.countIndexes_eq hfiles, h₅.files.countIndexes_eq hfiles, h₆.files.countIndexes_eq hfiles]
  rw [if_pos]
  · exact storeFinishedJob_terminates _ old se (h₆.hasType hdb)
  · exact (JobCounts.ofRows_jobFinished (db.filesOf j) old.2).mpr (terminates_of_terminal hfiles old.2)

/-- `updateJobStatus` with a terminal state ends with the job terminal once all of its files are. -/
theorem updateJob_terminates_job (hstate : state.terminal = true) (hdb : HasType j ty db)
    (hfiles : FilesTerminal j db) : (updateJobTransferStatusInternal node j state).Terminates j db := by
  simp only [updateJobTransferStatusInternal, Proc.bind_eq, select_bind, beginTx_bind, updateJob_bind, commit_bind]
  intro db₁ h₁
  have hdb₁ := h₁.hasType hdb
  have hfiles₁ := h₁.filesTerminal hfiles
  obtain ⟨job₁, hjob₁, -⟩ := hdb₁
  simp only [readJobAgain_of_find? _ hjob₁, Option.some.injEq]
  split
  · rename_i hsame
    exact ⟨job₁, hjob₁, sameState_terminal hsame hstate⟩
  · rw [if_neg (by rintro ⟨-, rfl⟩; cases hstate)]
    split
    · intro db₂ h₂ db₃ h₃ db₄ h₄
      obtain ⟨job₄, hjob₄, -⟩ := ((h₂.trans h₃).trans h₄).hasType (h₁.hasType hdb)
      refine terminates_of_jobTerminal ?_ (exec_terminate_terminal _ _ hjob₄ rfl)
      simp
    · rw [if_neg (by rintro ⟨rfl, -⟩; cases hstate)]
      split
      · intro db₂ h₂
        have hnone : (db₂.filesOf j).find? (fun r => r.fileState = .submitted) = none := by
          rw [List.find?_eq_none]
          intro r hr hst
          have hterm := h₂.filesTerminal hfiles₁ r hr
          rw [decide_eq_true_eq] at hst
          rw [hst] at hterm
          cases hterm
        simp only [hnone, Option.map_none, Option.getD_none, gt_iff_lt, Nat.lt_irrefl, if_false]
        exact aggregateJob_terminates _ _ ((h₁.trans h₂).hasType hdb) (h₂.filesTerminal hfiles₁)
      · split
        · exact fun db₂ h₂ => aggregateJob_terminates _ _ ((h₁.trans h₂).hasType hdb) (h₂.filesTerminal hfiles₁)
        · exact aggregateJob_terminates _ _ (h₁.hasType hdb) hfiles₁

/-! ## Statement by statement -/

section keeps

variable {C : Act Sel Stmt → Db → Db → Prop}

section generic

variable {G : Db → Db → Op Bool → Prop}

theorem storeFinishedJob_keeps {n : JobCounts} {old : Option JobState × JobType} {se : String}
    (hterm : ∀ db' reason se p, Progress j db db' →
      G db' ((Stmt.job (.terminate j (n.outcome old.2).1 reason se)).exec db').2 p)
    (hcancel : ∀ db' p, JobTerminal j db' → p.Issues Stmt.Guarded →
      G db' ((Stmt.file (.cancelUnusedMultihopFiles j)).exec db').2 p)
    (hdb : HasType j ty db) : (storeFinishedJob node j n old se).Keeps Stmt.exec (Progress j) C G db := by
  simp only [storeFinishedJob, Proc.bind_eq, select_bind, beginTx_bind, updateJob_bind, commit_bind,
    updateFile_bind]
  intro db₁ h₁ _
  obtain ⟨job₁, hjob₁, -⟩ := h₁.hasType hdb
  simp only [readJobAgain_of_find? _ hjob₁, Option.some.injEq]
  split
  · trivial
  · intro db₂ h₂ _ db₃ h₃ _
    have hprog := (h₁.trans h₂).trans h₃
    obtain ⟨job₃, hjob₃, -⟩ := hprog.hasType hdb
    refine ⟨hterm db₃ _ _ _ hprog, fun db₄ h₄ _ => ?_⟩
    have hjob₄ := h₄.jobTerminal (exec_terminate_terminal _ _ hjob₃ (n.outcome_terminal old.2))
    split
    · intro db₅ h₅ _ db₆ h₆ _
      refine ⟨hcancel db₆ _ (h₆.jobTerminal (h₅.jobTerminal hjob₄)) ?_, fun _ _ _ => trivial⟩
      trivial
    · trivial

/-- The counts write nothing. -/
theorem aggregateJob_keeps {old : Option JobState × JobType} {se : String}
    (hfinished : ∀ n db', HasType j ty db' →
      (storeFinishedJob node j n old se).Keeps Stmt.exec (Progress j) C G db')
    (hunfinished : ∀ n db', HasType j ty db' →
      (storeUnfinishedJob j state n old).Keeps Stmt.exec (Progress j) C G db')
    (hdb : HasType j ty db) : (aggregateJob node j state old se).Keeps Stmt.exec (Progress j) C G db := by
  have hcounts : (countFiles j).Issues fun _ => False := by simp [countFiles, selectCount]
  refine hcounts.keeps_bind (I := HasType j ty) (by simp) (fun _ _ h => h.hasType) (by simp) ?_ hdb
  intro n db' hdb'
  split
  · exact hfinished n db' hdb'
  · exact hunfinished n db' hdb'

theorem updateJob_keeps
    (hreplica : state = .failed → ∀ db₀ db₁, C (.select (.currentState j .failed)) db₀ db₁ →
      (∃ job, db₁.jobs.find? j = some job ∧ job.type = .multipleReplica ∧ job.jobState = .archiving) →
      ∀ db₂ reason se p, G db₂ ((Stmt.job (.terminate j .failed reason se)).exec db₂).2 p)
    (hactive : ∀ db₂ p, G db₂ ((Stmt.job (.activate j .active)).exec db₂).2 p)
    (hagg : ∀ old se db', HasType j ty db' → old.2 = ty →
      (aggregateJob node j state old se).Keeps Stmt.exec (Progress j) C G db')
    (hdb : HasType j ty db) :
    (updateJobTransferStatusInternal node j state).Keeps Stmt.exec (Progress j) C G db := by
  simp only [updateJobTransferStatusInternal, Proc.bind_eq, select_bind, beginTx_bind, updateJob_bind, commit_bind]
  intro db₁ h₁ hC
  have hdb₁ := h₁.hasType hdb
  obtain ⟨job₁, hjob₁, hty⟩ := hdb₁
  simp only [readJobAgain_of_find? _ hjob₁, Option.some.injEq]
  split
  · trivial
  · split
    · trivial
    · split
      · rename_i hcond
        obtain ⟨hrep, harch, rfl⟩ := hcond
        intro db₂ h₂ _ db₃ h₃ _ db₄ h₄ _
        exact ⟨hreplica rfl db db₁ hC ⟨job₁, hjob₁, hrep, harch⟩ _ _ _ _, fun _ _ _ => trivial⟩
      · split
        · intro db₂ h₂ _ db₃ h₃ _
          exact ⟨hactive _ _, fun _ _ _ => trivial⟩
        · split
          · intro db₂ h₂ _
            dsimp only
            split
            · trivial
            · exact hagg _ _ _ ((h₁.trans h₂).hasType hdb) hty
          · split
            · exact fun db₂ h₂ _ => hagg _ _ _ ((h₁.trans h₂).hasType hdb) hty
            · exact hagg _ _ _ (h₁.hasType hdb) hty

end generic

/-! ## The caller that makes the last file terminal -/

/-- An `UPDATE` that makes the last file of the job terminal is followed by the end of the job. -/
def Followed (j : String) (db db' : Db) (rest : Op Bool) : Prop :=
  ¬FilesTerminal j db → FilesTerminal j db' → rest.Terminates j db'

theorem followed_job (u : JobUpdate) (db : Db) (rest : Op Bool) : Followed j db ((Stmt.job u).exec db).2 rest :=
  fun hbefore hafter => absurd hafter hbefore

theorem storeUnfinishedJob_issues_job (n : JobCounts) (old : Option JobState × JobType) :
    (storeUnfinishedJob j state n old).Issues fun s => ∃ u, s = .job u := by
  have hstore : ∀ st, (storeJobState j st).Issues fun s => ∃ u, s = .job u := by
    intro st
    unfold storeJobState
    split <;> simp
  simp [storeUnfinishedJob, hstore]

theorem aggregateJob_followed (old : Option JobState × JobType) (se : String) (hdb : HasType j ty db) :
    (aggregateJob node j state old se).Keeps Stmt.exec (Progress j) C (Followed j) db := by
  refine aggregateJob_keeps ?_ ?_ hdb
  · intro n db' hdb'
    refine storeFinishedJob_keeps (fun _ _ _ _ _ => followed_job _ _ _) ?_ hdb'
    exact fun _ _ hjob hp _ _ => terminates_of_jobTerminal hp hjob
  · intro n db' _
    refine (storeUnfinishedJob_issues_job n old).keeps ?_ db'
    rintro _ db₁ p ⟨u, rfl⟩
    exact followed_job u db₁ p

theorem updateJob_followed (hdb : HasType j ty db) :
    (updateJobTransferStatusInternal node j state).Keeps Stmt.exec (Progress j) C (Followed j) db :=
  updateJob_keeps (fun _ _ _ _ _ _ _ _ _ => followed_job _ _ _) (fun _ _ => followed_job _ _ _)
    (fun old se _ hdb' _ => aggregateJob_followed old se hdb') hdb

/-! ## How the job becomes terminal -/

/-- A job that is terminal after the `UPDATE` was the same before, or has become terminal with `P`. -/
def Finishes (P : Db → JobRow → Prop) (j : String) (db db' : Db) : Prop :=
  ∀ job, db'.jobs.find? j = some job → job.jobState.terminal = true → db.jobs.find? j = some job ∨ P db' job

section finishes

variable {P : Db → JobRow → Prop}

theorem finishes_file (u : FileUpdate) (db : Db) : Finishes P j db ((Stmt.file u).exec db).2 :=
  fun _ hjob _ => .inl hjob

theorem exec_job_cases {u : JobUpdate} {job' : JobRow} (h : ((Stmt.job u).exec db).2.jobs.find? j = some job') :
    db.jobs.find? j = some job' ∨
      ∃ job, db.jobs.find? j = some job ∧ u.selects job = true ∧ job' = u.sets db.now job := by
  rw [exec_job_find?, Option.map_eq_some_iff] at h
  obtain ⟨job, hjob, hite⟩ := h
  split at hite
  · rename_i hsel
    exact .inr ⟨job, hjob, hsel, hite.symm⟩
  · exact .inl (hite ▸ hjob)

theorem finishes_of_live {u : JobUpdate} (h : u.writes.terminal = false) (db : Db) :
    Finishes P j db ((Stmt.job u).exec db).2 := by
  intro job' hjob' hterm
  rcases exec_job_cases hjob' with hsame | ⟨job, -, -, rfl⟩
  · exact .inl hsame
  · rw [u.sets_jobState, h] at hterm
    cases hterm

theorem finishes_of_jobTerminal {u : JobUpdate} (hg : u.unguarded = false) (h : JobTerminal j db) :
    Finishes P j db ((Stmt.job u).exec db).2 := by
  intro job' hjob' _
  obtain ⟨job, hjob, hterm⟩ := h
  rcases exec_job_cases hjob' with hsame | ⟨job₁, hjob₁, hsel, -⟩
  · exact .inl hsame
  · obtain rfl : job = job₁ := Option.some.inj (hjob.symm.trans hjob₁)
    rw [JobUpdate.selects_not_terminal hg hsel] at hterm
    cases hterm

theorem finishes_terminate {st : JobState} {reason : String} {se : Option String}
    (h : ∀ job job', db.jobs.find? j = some job → job' = (JobUpdate.terminate j st reason se).sets db.now job →
      P ((Stmt.job (.terminate j st reason se)).exec db).2 job') :
    Finishes P j db ((Stmt.job (.terminate j st reason se)).exec db).2 := by
  intro job' hjob' _
  rcases exec_job_cases hjob' with hsame | ⟨job, hjob, -, rfl⟩
  · exact .inl hsame
  · exact .inr (h job _ hjob rfl)

theorem toJobState?_live {st : FileState} {st' : JobState} (h : st.toJobState? = some st')
    (hst : st.terminal = false) : st'.terminal = false := by
  cases st <;> simp [FileState.toJobState?] at h <;> subst h <;> first | rfl | cases hst

theorem storeJobState_keeps {st : FileState} (h : st.terminal = false ∨ JobTerminal j db) :
    (storeJobState j st).Keeps Stmt.exec (Progress j) C (fun db db' _ => Finishes P j db db') db := by
  unfold storeJobState
  split
  · trivial
  · rename_i st' hst'
    intro db₁ h₁ _ db₂ h₂ _
    refine ⟨?_, fun _ _ _ => trivial⟩
    rcases h with h | h
    · exact finishes_of_live (toJobState?_live hst' h) db₂
    · exact finishes_of_jobTerminal rfl (h₂.jobTerminal (h₁.jobTerminal h))

theorem storeUnfinishedJob_keeps {n : JobCounts} {old : Option JobState × JobType}
    (hC : ∀ db₀ db₁ job, C (.select (.currentStateAgain j state (some .staging))) db₀ db₁ →
      state.terminal = true → db₁.jobs.find? j = some job → job.jobState = .staging ∨ job.jobState.terminal = true)
    (hdb : HasType j ty db) :
    (storeUnfinishedJob j state n old).Keeps Stmt.exec (Progress j) C (fun db db' _ => Finishes P j db db') db := by
  unfold storeUnfinishedJob
  split
  · rename_i hcond
    simp only [Proc.bind_eq, select_bind]
    intro db₁ h₁ hC₁
    obtain ⟨job₁, hjob₁, -⟩ := h₁.hasType hdb
    simp only [readJobAgain_of_find? _ hjob₁, Option.some.injEq]
    split
    · trivial
    · split
      · exact storeJobState_keeps (.inl rfl)
      · rename_i hstaging
        refine storeJobState_keeps ?_
        cases hterm : state.terminal with
        | false => exact .inl rfl
        | true =>
            -- only a job that was being staged gets here with a terminal state
            have hold : old.1 = some .staging ∧ n.staging = 0 := by
              rcases hcond with rfl | rfl | rfl | h
              · cases hterm
              · cases hterm
              · cases hterm
              · exact h
            rw [hold.1] at hC₁
            rcases hC db db₁ job₁ hC₁ hterm hjob₁ with h | h
            · exact absurd ⟨h, hold.2⟩ hstaging
            · exact .inr ⟨job₁, hjob₁, h⟩
  · split
    · simp only [Proc.bind_eq, select_bind, beginTx_bind, updateJob_bind, commit_bind]
      intro db₁ h₁ _
      dsimp only
      split
      · trivial
      · intro db₂ h₂ _ db₃ h₃ _
        exact ⟨finishes_of_live rfl db₃, fun _ _ _ => trivial⟩
    · trivial

end finishes

end keeps

end Fts3.MySql
