import Fts3.MySql.Lemmas.Staging

/-!
# Stranded replicas

Every way in which a live replica can fail is to bring the next one into use. The end of a transfer does, and
so do the recoveries; the end of a staging request does not.
-/

namespace Fts3.MySql

open Fts3.Sql

/-! ## Staging -/

section staging

variable {node : Node} {j : String} {db : Db}

/-- The job can do without the file: it is not a replica that is being staged, no replica is `NOT_USED`, or
another replica is live. -/
def CanSpare (j : String) (f : Nat) (db : Db) : Prop :=
  (∀ r ∈ db.filesOf j, r.fileId = f → r.fileState ∉ [.staging, .started]) ∨
    (∀ r ∈ db.filesOf j, r.fileState ≠ .notUsed) ∨ ∃ r ∈ db.filesOf j, r.fileId ≠ f ∧ r.fileState.serves = true

/-- A staging request that fails is tried again, or the job can do without the file. -/
def SparesReplica (j : String) (i : MinFileStatus FileState) (db : Db) : Prop :=
  i.state = .failed → retriesStaging i db = true ∨ CanSpare j i.fileId db

theorem stagingTerminal_not_stranded {f : Nat} {st : FileState} (reason : String) (hst : st ≠ .notUsed)
    (hspare : CanSpare j f db) (h : ¬Stranded j db) :
    ¬Stranded j ((Stmt.file (.stagingTerminal f st reason)).exec db).2 := by
  have hsel : ∀ r, (FileUpdate.stagingTerminal f st reason).selects r = true →
      r.fileId = f ∧ r.fileState ∈ [.staging, .started] := by
    intro r hr
    simpa [FileUpdate.selects] using hr
  rcases hspare with hnot | hused | ⟨r, hr, hne, hserves⟩
  · exact FileUpdate.Serves.not_stranded (fun r hr hs => absurd (hsel r hs).2 (hnot r hr (hsel r hs).1)) h
  · rintro ⟨-, -, r', hr', hst'⟩
    rw [exec_file_filesOf] at hr'
    obtain ⟨r, hr, rfl⟩ := List.mem_map.mp hr'
    split at hst'
    · exact hst hst'
    · exact hused r hr hst'
  · refine not_stranded_of_serves (r := r) ?_ hserves
    rw [exec_file_filesOf]
    refine List.mem_map.mpr ⟨r, hr, ?_⟩
    rw [if_neg fun hs => hne (hsel r hs).1]

theorem stagingFailed_not_stranded {i : MinFileStatus FileState} (hst : i.state = .failed)
    (hi : retriesStaging i db = true ∨ CanSpare j i.fileId db) (h : ¬Stranded j db) :
    ¬Stranded j ((stagingFailed i).alone db) := by
  simp only [stagingFailed, Op.alone, Proc.bind_eq, Proc.run_bind, resetForRetryStaging_run]
  by_cases hretry : retriesStaging i db = true
  · have hreset : ¬Stranded j ((Stmt.file (retryStagingUpdate i db)).exec db).2 :=
      FileUpdate.Serves.not_stranded (serves_of_writes rfl rfl) h
    simp only [hretry, if_true]
    split
    · exact hreset
    · exact hreset
  · simp only [hretry]
    exact stagingTerminal_not_stranded i.reason (by rw [hst]; decide) (hi.resolve_left hretry) h

theorem stagingEnded_serves {i : MinFileStatus FileState} (hst : i.state.serves = true) (hashedId : Nat) :
    (stagingEnded node i hashedId).Issues (Stmt.Serves fun _ => False) :=
  issues_stagingEnded node i hashedId (fun _ => trivial) trivial fun _ => .inl hst

theorem storeStagingState_not_stranded {i : MinFileStatus FileState} (hashedId : Nat)
    (hst : i.state.serves = true ∨ i.state = .failed) (hi : SparesReplica j i db) (h : ¬Stranded j db) :
    ¬Stranded j ((storeStagingState node (i, hashedId)).alone db) := by
  simp only [storeStagingState]
  split
  · exact Op.not_stranded (F := fun _ => False) (by simp [Stmt.Serves]) (fun _ _ h => h) h
  · rename_i hfail
    exact stagingFailed_not_stranded hfail (hi hfail) h
  · rename_i hfail
    exact Op.not_stranded (stagingEnded_serves (hst.resolve_right hfail) hashedId) (fun _ _ h => h) h

/-- Each event of the batch spares the job, in the database that the events before it leave. -/
def StagingSpares (node : Node) (j : String) : List (MinFileStatus FileState × Nat) → Db → Prop
  | [], _ => True
  | i :: ops, db => SparesReplica j i.1 db ∧ StagingSpares node j ops ((storeStagingState node i).alone db)

theorem storeStagingStates_not_stranded {ops : List (MinFileStatus FileState × Nat)}
    (hst : ∀ i ∈ ops, i.1.state.serves = true ∨ i.1.state = .failed) (hops : StagingSpares node j ops db)
    (h : ¬Stranded j db) : ¬Stranded j (Op.alone (ops.forM (storeStagingState node)) db) := by
  induction ops generalizing db with
  | nil => exact h
  | cons i ops ih =>
      rw [Op.alone, Proc.run_forM_cons]
      refine ih (fun i hi => hst i (by simp [hi])) hops.2 ?_
      exact storeStagingState_not_stranded i.2 (hst i (by simp)) hops.1 h

theorem updateStagingState_not_stranded {ops : List (MinFileStatus FileState × Nat)}
    (hst : ∀ i ∈ ops, i.1.state.serves = true ∨ i.1.state = .failed) (hops : StagingSpares node j ops db)
    (h : ¬Stranded j db) : ¬Stranded j ((updateStagingStateInternal node ops).alone db) := by
  have hstore := storeStagingStates_not_stranded hst hops h
  have hjobs : Proc.Issues (Stmt.Serves fun _ => False) (ops.forM fun i => (updateJobTransferStatusInternal node
      i.1.jobId (if i.1.state = .submitted then .active else i.1.state)).bind fun _ => (.ret () : Op Unit)) :=
    Proc.issues_forM ops _ fun i _ => (updateJob_serves node i.1.jobId _).bind fun _ => trivial
  have hend := Op.not_stranded hjobs (fun _ _ h => h) hstore
  simp only [updateStagingStateInternal, Proc.bind_eq, beginTx_bind, commit_bind, Op.alone, Proc.run_tx,
    Proc.run_bind]
  exact hend

end staging

/-! ## Archiving -/

section archiving

variable {node : Node} {j : String} {db : Db} {ops : List (MinFileStatus FileState)}

/-- When the archiving of a replica fails, its job fails with it, as a job that is `ARCHIVING` does, or can do
without it. -/
def ArchivingSpares (j : String) (ops : List (MinFileStatus FileState)) (db : Db) : Prop :=
  (∃ i ∈ ops, i.state = .failed ∧ i.jobId = j) →
    db.jobState? j = some .archiving ∨ (∀ r ∈ db.filesOf j, r.fileState ≠ .notUsed) ∨
      ∃ r ∈ db.filesOf j, r.fileState.serves = true ∧ ∀ i ∈ ops, i.fileId ≠ r.fileId

/-- What `updateArchivingState` issues. -/
def Stmt.Archives (ops : List (MinFileStatus FileState)) : Stmt → Prop
  | .file (.updateArchivingState f st _) => ∃ i ∈ ops, i.fileId = f ∧ i.state = st
  | .file (.cancelUnusedMultihopFiles _) => True
  | .job u => u.unguarded = false
  | _ => False

theorem updateArchivingState_archives :
    (updateArchivingStateInternal node ops).Issues (Stmt.Archives ops) := by
  refine (Proc.issues_forM ops _ fun i hi => ?_).bind fun _ => Proc.issues_forM ops _ fun i _ => ?_
  · exact ⟨⟨i, hi, rfl, rfl⟩, fun _ => trivial⟩
  · exact (issues_updateJobTransferStatusInternal (P := Stmt.Archives ops) (fun _ _ _ _ => rfl) rfl (fun _ => rfl)
      rfl trivial node i.state).bind fun _ => trivial

theorem archives_keeps_used {s : Stmt} (hst : ∀ i ∈ ops, i.state ≠ .notUsed) (hs : s.Archives ops)
    (h : ∀ r ∈ db.filesOf j, r.fileState ≠ .notUsed) : ∀ r ∈ (s.exec db).2.filesOf j, r.fileState ≠ .notUsed := by
  cases s with
  | file u =>
      intro r' hr'
      rw [exec_file_filesOf] at hr'
      obtain ⟨r, hr, rfl⟩ := List.mem_map.mp hr'
      split
      · cases u with
        | updateArchivingState f st reason =>
            obtain ⟨i, hi, -, rfl⟩ := hs
            exact hst i hi
        | cancelUnusedMultihopFiles j' => exact FileState.noConfusion
        | _ => cases hs
      · exact h r hr
  | job u => exact h
  | _ => cases hs

theorem archives_keeps_serving {s : Stmt} (hs : s.Archives ops)
    (h : ∃ r ∈ db.filesOf j, r.fileState.serves = true ∧ ∀ i ∈ ops, i.fileId ≠ r.fileId) :
    ∃ r ∈ (s.exec db).2.filesOf j, r.fileState.serves = true ∧ ∀ i ∈ ops, i.fileId ≠ r.fileId := by
  cases s with
  | file u =>
      obtain ⟨r, hr, hserves, hne⟩ := h
      refine ⟨r, ?_, hserves, hne⟩
      rw [exec_file_filesOf]
      refine List.mem_map.mpr ⟨r, hr, if_neg fun hsel => ?_⟩
      cases u with
      | updateArchivingState f st reason =>
          obtain ⟨i, hi, rfl, -⟩ := hs
          simp only [FileUpdate.selects, decide_eq_true_eq] at hsel
          exact hne i hi hsel.symm
      | cancelUnusedMultihopFiles j' =>
          simp only [FileUpdate.selects, Bool.and_eq_true, decide_eq_true_eq] at hsel
          rw [hsel.2] at hserves
          cases hserves
      | _ => cases hs
  | job u => exact h
  | _ => cases hs

/-- A multiple replica job that is being archived, or is over. -/
def ArchivedJob (j : String) (db : Db) : Prop :=
  ∃ job, db.jobs.find? j = some job ∧ job.type = .multipleReplica ∧
    (job.jobState = .archiving ∨ job.jobState.terminal = true)

def Stmt.KeepsArchiving (j : String) : Stmt → Prop
  | .file _ => True
  | .job (.terminate _ st _ _) => st.terminal = true
  | .job (.setArchiving _) => True
  | .job (.activate j' _) | .job (.setState j' _) => j' ≠ j
  | _ => False

theorem ArchivedJob.exec {s : Stmt} (h : ArchivedJob j db) (hs : s.KeepsArchiving j) :
    ArchivedJob j (s.exec db).2 := by
  cases s with
  | file u => exact h
  | job u =>
      obtain ⟨job, hjob, hty, hst⟩ := h
      have hid : job.jobId = j := Table.find?_some hjob
      rw [ArchivedJob, exec_job_find?, hjob]
      refine ⟨_, rfl, ?_⟩
      dsimp only
      split
      · rename_i hsel
        refine ⟨by rw [u.sets_type, hty], ?_⟩
        cases u with
        | terminate j' st reason se => exact .inr hs
        | setArchiving j' => exact .inl rfl
        | activate j' st =>
            simp only [JobUpdate.selects, Bool.and_eq_true, decide_eq_true_eq] at hsel
            exact absurd (hsel.1.symm.trans hid) hs
        | setState j' st =>
            simp only [JobUpdate.selects, Bool.and_eq_true, decide_eq_true_eq] at hsel
            exact absurd (hsel.1.symm.trans hid) hs
        | _ => cases hs
      · exact ⟨hty, hst⟩
  | _ => cases hs

theorem aggregateJob_keepsArchiving {st : FileState} (hst : st = .finished ∨ st = .failed)
    {old : Option JobState × JobType} (hold : old.1 ≠ some .staging) (se : String) :
    (aggregateJob node j st old se).Issues (Stmt.KeepsArchiving j) := by
  have hunf : ∀ n, (storeUnfinishedJob j st n old).Issues (Stmt.KeepsArchiving j) := by
    intro n
    unfold storeUnfinishedJob
    rw [if_neg]
    · simp [Stmt.KeepsArchiving]
    · rcases hst with rfl | rfl <;> simp [hold]
  have hfin : ∀ n, (storeFinishedJob node j n old se).Issues (Stmt.KeepsArchiving j) := by
    intro n
    simp [storeFinishedJob, Stmt.KeepsArchiving, n.outcome_terminal]
  simp only [aggregateJob, countFiles, selectCount, Proc.bind_eq, Proc.pure_eq, select_bind, Proc.select_bind,
    Proc.issues_select, Proc.ret_bind, Proc.issues_ite]
  exact fun _ _ _ _ _ _ => ⟨fun _ => hfin _, fun _ => hunf _⟩

theorem updateJob_keepsArchiving {st : FileState} (hst : st = .finished ∨ st = .failed) {j' : String}
    (h : ArchivedJob j db) : ArchivedJob j ((updateJobTransferStatusInternal node j' st).alone db) := by
  by_cases hj : j' = j
  · subst hj
    obtain ⟨job, hjob, hty, hjst⟩ := id h
    have hread : readJobAgain j' (none, node.uninitialized) db = (some job.jobState, .multipleReplica) := by
      simp [readJobAgain, readJob, hjob, hty]
    have hold : some job.jobState ≠ some .staging := by
      rcases hjst with hjst | hjst
      · rw [hjst]
        decide
      · intro hs
        rw [Option.some.inj hs] at hjst
        cases hjst
    have hagg : ∀ se, (aggregateJob node j' st (some job.jobState, .multipleReplica) se).Issues
        (Stmt.KeepsArchiving j') := fun se => aggregateJob_keepsArchiving hst hold se
    simp only [updateJobTransferStatusInternal, Op.alone, Proc.bind_eq, select_bind, Proc.run_select, hread]
    refine Proc.Issues.run (P := Stmt.KeepsArchiving j') ?_ (fun _ _ hs h => h.exec hs) h
    simp [hagg, Stmt.KeepsArchiving, JobState.terminal]
  · have hissues := issues_updateJobTransferStatusInternal (P := Stmt.KeepsArchiving j) (fun _ _ _ h => h) hj
      (fun _ => hj) trivial trivial node st
    exact hissues.run (fun _ _ hs h => h.exec hs) h

/-- FTS-1882: the job fails when the archiving of its replica does. -/
theorem updateJob_failed_not_open (h : ArchivedJob j db) :
    ¬OpenReplicaJob j ((updateJobTransferStatusInternal node j .failed).alone db) := by
  obtain ⟨job, hjob, hty, hjst⟩ := h
  rcases hjst with hjst | hjst
  · have hread : readJobAgain j (none, node.uninitialized) db = (some .archiving, .multipleReplica) := by
      simp [readJobAgain, readJob, hjob, hty, hjst]
    simp only [updateJobTransferStatusInternal, Op.alone, Proc.bind_eq, select_bind, Proc.run_select, hread]
    rintro ⟨job', hjob', -, hlive⟩
    simp only [sameState, FileState.toJobState?, Option.isSome_some, Bool.true_and, reduceCtorEq,
      Option.some.injEq, decide_false, Bool.false_eq_true, if_false, false_and, and_self, if_true,
      Proc.run_select, beginTx_bind, Proc.run_tx, updateJob_bind, Proc.run_update, commit_bind, Proc.pure_eq,
      Proc.run_ret, exec_job_find?, hjob, Option.map_some] at hjob'
    rw [← hjob', if_pos] at hlive
    · cases hlive
    · have hid : job.jobId = j := Table.find?_some hjob
      simp [JobUpdate.selects, hid, hjst]
  · refine Op.not_open (updateJob_serves node j .failed) ?_
    rintro ⟨job', hjob', -, hlive⟩
    rw [hjob] at hjob'
    rw [Option.some.inj hjob', hlive] at hjst
    cases hjst

theorem storeJobs_not_open (hst : ∀ i ∈ ops, i.state = .finished ∨ i.state = .failed)
    (hfail : ∃ i ∈ ops, i.state = .failed ∧ i.jobId = j) (h : ArchivedJob j db) :
    ¬OpenReplicaJob j (Op.alone (ops.forM fun i =>
      (updateJobTransferStatusInternal node i.jobId i.state).bind fun _ => .ret ()) db) := by
  induction ops generalizing db with
  | nil => exact absurd hfail (by simp)
  | cons i ops ih =>
      rw [Op.alone, Proc.run_forM_cons]
      by_cases hi : i.state = .failed ∧ i.jobId = j
      · refine Op.not_open (F := fun _ => False) (Proc.issues_forM ops _ fun i _ =>
          (updateJob_serves node i.jobId i.state).bind fun _ => trivial) ?_
        rw [hi.1, hi.2, Proc.run_bind]
        exact updateJob_failed_not_open h
      · refine ih (fun i hi => hst i (by simp [hi])) ?_ ?_
        · obtain ⟨i', hi', hfail'⟩ := hfail
          rcases List.mem_cons.mp hi' with rfl | hmem
          · exact absurd hfail' hi
          · exact ⟨i', hmem, hfail'⟩
        · rw [Proc.run_bind]
          exact updateJob_keepsArchiving (hst i (by simp)) h

theorem updateArchivingState_foreign (hst : ∀ i ∈ ops, i.state = .finished ∨ i.state = .failed)
    (hfile : ∀ i ∈ ops, FileOf i.jobId i.fileId db) (hno : ¬∃ i ∈ ops, i.state = .failed ∧ i.jobId = j)
    (h : ¬Stranded j db) : ¬Stranded j ((updateArchivingStateInternal node ops).alone db) := by
  refine Op.not_stranded (F := fun f => ∃ i ∈ ops, i.state = .failed ∧ i.fileId = f) ?_ ?_ h
  · refine (Proc.issues_forM ops _ fun i hi => ?_).bind fun _ => Proc.issues_forM ops _ fun i _ => ?_
    · refine ⟨?_, fun _ => trivial⟩
      rcases hst i hi with hfin | hfail
      · left
        rw [hfin]
        rfl
      · exact .inr ⟨i, hi, hfail, rfl⟩
    · refine ((updateJob_serves node i.jobId i.state).mono fun s hs => ?_).bind fun _ => trivial
      exact hs.mono fun _ => False.elim
  · rintro r hr ⟨i, hi, hfail, hid⟩
    obtain ⟨hfind, hrj⟩ := mem_filesOf.mp hr
    exact hno ⟨i, hi, hfail, (hfile i hi r (hid ▸ hfind)).symm.trans hrj⟩

theorem updateArchivingState_not_stranded (hst : ∀ i ∈ ops, i.state = .finished ∨ i.state = .failed)
    (hfile : ∀ i ∈ ops, FileOf i.jobId i.fileId db) (hops : ArchivingSpares j ops db) (h : ¬Stranded j db) :
    ¬Stranded j ((updateArchivingStateInternal node ops).alone db) := by
  by_cases hfail : ∃ i ∈ ops, i.state = .failed ∧ i.jobId = j
  · have hissues : (updateArchivingStateInternal node ops).Issues (Stmt.Archives ops) :=
      updateArchivingState_archives
    rcases hops hfail with harch | hused | hserves
    · by_cases hopen : OpenReplicaJob j db
      · obtain ⟨job, hjob, hty, -⟩ := hopen
        simp only [updateArchivingStateInternal, Proc.bind_eq, beginTx_bind, commit_bind, Op.alone, Proc.run_tx,
          Proc.run_bind]
        intro hpost
        refine storeJobs_not_open hst hfail ?_ hpost.1
        refine Proc.Issues.run (P := fun s => ∃ u, s = .file u) (Proc.issues_forM ops _ fun i _ => ?_) ?_ ?_
        · exact ⟨⟨_, rfl⟩, fun _ => trivial⟩
        · rintro s db ⟨u, rfl⟩ h
          exact h
        · simp only [Db.jobState?, hjob, Option.map_some, Option.some.injEq] at harch
          exact ⟨job, hjob, hty, .inl harch⟩
      · have hserves : (updateArchivingStateInternal node ops).Issues (Stmt.Serves fun _ => True) := by
          refine hissues.mono fun s hs => ?_
          unfold Stmt.Archives at hs
          split at hs
          · exact .inr trivial
          · trivial
          · exact hs
          · exact hs.elim
        exact fun hpost => Op.not_open hserves hopen hpost.1
    · intro hpost
      obtain ⟨r, hr, hr'⟩ := hpost.2.2
      refine hissues.run (I := fun db => ∀ r ∈ db.filesOf j, r.fileState ≠ .notUsed) (fun s db hs h =>
        archives_keeps_used (fun i hi hnot => ?_) hs h) hused r hr hr'
      rcases hst i hi with h | h
      · rw [h] at hnot
        cases hnot
      · rw [h] at hnot
        cases hnot
    · obtain ⟨r, hr, hserving, -⟩ := hissues.run (I := fun db => ∃ r ∈ db.filesOf j, r.fileState.serves = true ∧
        ∀ i ∈ ops, i.fileId ≠ r.fileId) (fun s db hs h => archives_keeps_serving hs h) hserves
      exact not_stranded_of_serves hr hserving
  · exact updateArchivingState_foreign hst hfile hfail h

end archiving

/-! ## Forks, retries and recoveries -/

section others

variable {node : Node} {j : String} {db : Db}

theorem forkFailed_not_stranded (j' : String) (h : ¬Stranded j db) :
    ¬Stranded j ((forkFailed node j').alone db) := by
  simp only [forkFailed, Op.alone, Proc.bind_eq, beginTx_bind, updateFile_bind, updateJob_bind, Proc.run_tx,
    Proc.run_update]
  intro hpost
  have hpost : Stranded j ((Stmt.job (.forkFailed j')).exec ((Stmt.file (.forkFailed j' node.hostname)).exec db).2).2 :=
    hpost
  obtain ⟨job', hjob', hty', hlive'⟩ := hpost.1
  rw [exec_job_find?, Option.map_eq_some_iff] at hjob'
  obtain ⟨job, hjob, rfl⟩ := hjob'
  have hid : job.jobId = j := Table.find?_some hjob
  by_cases hj : j' = j
  · rw [if_pos (by simp [JobUpdate.selects, hid, hj])] at hlive'
    cases hlive'
  · have hfile : ¬Stranded j ((Stmt.file (.forkFailed j' node.hostname)).exec db).2 := by
      refine FileUpdate.Serves.not_stranded (fun r hr hsel => ?_) h
      simp only [FileUpdate.selects, Bool.and_eq_true, decide_eq_true_eq] at hsel
      exact absurd (hsel.1.symm.trans (mem_filesOf.mp hr).2) hj
    have hsel : ¬(JobUpdate.forkFailed j').selects job = true := by
      simp only [JobUpdate.selects, decide_eq_true_eq]
      exact fun h => hj (h.symm.trans hid)
    rw [if_neg hsel] at hty' hlive'
    exact hfile ⟨⟨job, hjob, hty', hlive'⟩, hpost.2⟩

theorem setRetryTransfer_not_stranded (j' : String) (f : Nat) (n : Int) (reason log : String) (timedOut : Bool)
    (h : ¬Stranded j db) : ¬Stranded j ((setRetryTransfer node j' f n reason log timedOut).alone db) := by
  refine Op.not_stranded (F := fun _ => False) ?_ (fun _ _ h => h) h
  simp [setRetryTransfer, Stmt.Serves, JobUpdate.unguarded]

/-- The files of a recovery, one after the other. -/
theorem recoverFiles_not_stranded {γ : Type} {xs : List γ} {g : γ → FileRow} {f : γ → Op PUnit}
    (hf : ∀ x ∈ xs, ∀ db, PositiveIds j db → FileOf (g x).jobId (g x).fileId db → ¬Stranded j db →
      ¬Stranded j ((f x).alone db))
    (hids : PositiveIds j db) (hrows : ∀ x ∈ xs, g x ∈ db.files.rows) (h : ¬Stranded j db) :
    ¬Stranded j (Op.alone (xs.forM f) db) := by
  refine (Op.alone_forM (I := fun db => (PositiveIds j db ∧ ∀ x ∈ xs, FileOf (g x).jobId (g x).fileId db) ∧
    ¬Stranded j db) (fun x hx db hdb => ?_) ⟨⟨hids, fun x hx r hr => ?_⟩, h⟩).2
  · obtain ⟨⟨hids, hfiles⟩, h⟩ := hdb
    exact ⟨⟨hids.alone _, fun y hy => (hfiles y hy).alone _⟩, hf x hx db hids (hfiles x hx) h⟩
  · rw [Table.find?_key (hrows x hx)] at hr
    rw [Option.some.inj hr]

theorem recoverFromDeadHosts_not_stranded (hlist : node.ListsLinks) (hids : PositiveIds j db)
    (h : ¬Stranded j db) : ¬Stranded j ((recoverFromDeadHosts node).alone db) := by
  simp only [recoverFromDeadHosts, Op.alone, Proc.bind_eq, select_bind, Proc.run_select]
  refine (Op.alone_forM (I := fun db => PositiveIds j db ∧ ¬Stranded j db) (fun deadHost _ db hdb => ?_) ⟨hids, h⟩).2
  refine ⟨hdb.1.alone _, ?_⟩
  simp only [Op.alone, Proc.run_select]
  refine recoverFiles_not_stranded (fun r _ db hids hfile h => ?_) hdb.1 (fun r hr => (List.mem_filter.mp hr).1) hdb.2
  exact recoverFile_not_stranded hlist hids (.inr rfl) hfile _ h

theorem recoverStalledStaging_not_stranded (hlist : node.ListsLinks) (hids : PositiveIds j db)
    (h : ¬Stranded j db) : ¬Stranded j ((recoverStalledStaging node).alone db) := by
  simp only [recoverStalledStaging, Op.alone, Proc.bind_eq, select_bind, Proc.run_select, beginTx_bind, Proc.run_tx,
    Proc.run_bind]
  refine recoverFiles_not_stranded (g := Prod.fst) (fun x _ db hids hfile h => ?_) hids (fun x hx => ?_) h
  · split
    · rw [Op.alone_bind]
      refine Op.not_stranded (F := fun _ => False) ⟨trivial, fun _ => trivial⟩ (fun _ _ h => h) ?_
      exact recoverFile_not_stranded hlist hids (.inl rfl) hfile _ h
    · exact h
  · obtain ⟨r, hr, hx⟩ := List.mem_filterMap.mp hx
    split at hx
    · obtain ⟨job, -, rfl⟩ := Option.map_eq_some_iff.mp hx
      exact hr
    · cases hx

end others

/-! ## Runs -/

/-- The operations that end a replica or bring one into use, with what their callers give them. -/
inductive ReplicaCall where
  | updateTransferStatus (node : Node) (a : TransferStatus)
  | updateJobStatus (node : Node) (jobId : String) (state : FileState)
  | updateStagingState (node : Node) (ops : List (MinFileStatus FileState × Nat))
  | updateArchivingState (node : Node) (ops : List (MinFileStatus FileState))
  | setRetryTransfer (node : Node) (jobId : String) (fileId : Nat) (retryNo : Int) (reason logFile : String)
      (timedOut : Bool)
  | forkFailed (node : Node) (jobId : String)
  | recoverFromDeadHosts (node : Node)
  | recoverStalledStaging (node : Node)
  | tick (seconds : Nat)

namespace ReplicaCall

def prog : ReplicaCall → Op Unit
  | updateTransferStatus node a => do
      let _ ← updateFileTransferStatusInternal node a
      pure ()
  | updateJobStatus node jobId state => do
      let _ ← updateJobTransferStatusInternal node jobId state
      pure ()
  | updateStagingState node ops => updateStagingStateInternal node ops
  | updateArchivingState node ops => updateArchivingStateInternal node ops
  | setRetryTransfer node jobId fileId retryNo reason logFile timedOut =>
      MySql.setRetryTransfer node jobId fileId retryNo reason logFile timedOut
  | forkFailed node jobId => MySql.forkFailed node jobId
  | recoverFromDeadHosts node => MySql.recoverFromDeadHosts node
  | recoverStalledStaging node => MySql.recoverStalledStaging node
  | tick seconds => do
      let _ ← execute (.tick seconds)
      pure ()

/-- What the callers keep to: a status comes with the job of its file, a transfer is reported in a state that
serves or as `FAILED` or `CANCELED`, a staging request in a state that serves or as `FAILED`, and archiving as
`FINISHED` or `FAILED`. -/
def Sound (db : Db) : ReplicaCall → Prop
  | updateTransferStatus node a => node.ListsLinks ∧ FileOf a.jobId a.fileId db ∧
      (a.newFileState.serves = true ∨ a.newFileState = .failed ∨ a.newFileState = .canceled)
  | updateStagingState _ ops => ∀ i ∈ ops, i.1.state.serves = true ∨ i.1.state = .failed
  | updateArchivingState _ ops =>
      (∀ i ∈ ops, i.state = .finished ∨ i.state = .failed) ∧ ∀ i ∈ ops, FileOf i.jobId i.fileId db
  | recoverFromDeadHosts node | recoverStalledStaging node => node.ListsLinks
  | _ => True

/-- The branches that end a replica and look for no other one are not taken, or do no harm. -/
def Spares (j : String) (db : Db) : ReplicaCall → Prop
  | updateStagingState node ops => StagingSpares node j ops db
  | updateArchivingState _ ops => ArchivingSpares j ops db
  | _ => True

theorem Sound.alone {db : Db} {c : ReplicaCall} (h : c.Sound db) (p : Op Unit) : c.Sound (p.alone db) := by
  cases c with
  | updateTransferStatus node a => exact ⟨h.1, h.2.1.alone p, h.2.2⟩
  | updateArchivingState node ops => exact ⟨h.1, fun i hi => (h.2 i hi).alone p⟩
  | _ => exact h

/-- Run the calls, one after the other. -/
def runAll (db : Db) (calls : List ReplicaCall) : Db :=
  calls.foldl (fun db c => c.prog.alone db) db

def AllSpare (j : String) : List ReplicaCall → Db → Prop
  | [], _ => True
  | c :: calls, db => c.Spares j db ∧ AllSpare j calls (c.prog.alone db)

theorem not_stranded {j : String} {db : Db} {c : ReplicaCall} (hids : PositiveIds j db) (hsound : c.Sound db)
    (hspares : c.Spares j db) (h : ¬Stranded j db) : ¬Stranded j (c.prog.alone db) := by
  cases c with
  | updateTransferStatus node a =>
      have hstatus := updateTransferStatus_not_stranded hsound.1 hids hsound.2.1 hsound.2.2 h
      rw [prog, Proc.bind_eq, Op.alone_bind]
      exact hstatus
  | updateJobStatus node jobId state =>
      have hjob := updateJob_serves node jobId state
      exact Op.not_stranded (hjob.bind fun _ => trivial) (fun _ _ h => h) h
  | updateStagingState node ops => exact updateStagingState_not_stranded hsound hspares h
  | updateArchivingState node ops => exact updateArchivingState_not_stranded hsound.1 hsound.2 hspares h
  | setRetryTransfer node jobId fileId retryNo reason logFile timedOut =>
      exact setRetryTransfer_not_stranded jobId fileId retryNo reason logFile timedOut h
  | forkFailed node jobId => exact forkFailed_not_stranded jobId h
  | recoverFromDeadHosts node => exact recoverFromDeadHosts_not_stranded hsound hids h
  | recoverStalledStaging node => exact recoverStalledStaging_not_stranded hsound hids h
  | tick seconds => exact h

end ReplicaCall

/-- As long as no staging request ends the last live replica of the job, and no replica fails to be archived
while its job is in another state, the job is never stranded. -/
theorem no_replica_stranded {j : String} {db : Db} {calls : List ReplicaCall} (hids : PositiveIds j db)
    (hstart : ¬Stranded j db) (hsound : ∀ c ∈ calls, c.Sound db) (hspares : ReplicaCall.AllSpare j calls db)
    (n : Nat) : ¬Stranded j (ReplicaCall.runAll db (calls.take n)) := by
  induction calls generalizing db n with
  | nil =>
      rw [List.take_nil]
      exact hstart
  | cons c calls ih =>
      cases n with
      | zero => exact hstart
      | succ n =>
          have hc := ReplicaCall.not_stranded hids (hsound c (by simp)) hspares.1 hstart
          exact ih (hids.alone _) hc (fun c' hc' => (hsound c' (by simp [hc'])).alone _) hspares.2 n

def stagedReplicas : Db where
  files := .ofRows [{ fileId := 1, jobId := "j", fileState := .staging, fileIndex := some 0 },
    { fileId := 2, jobId := "j", fileState := .notUsed, fileIndex := some 0 }]
  jobs := .ofRows [{ jobId := "j", jobState := .staging, jobType := some .multipleReplica }]

theorem stagedReplicas_not_stranded : ¬Stranded "j" stagedReplicas := by
  intro h
  exact absurd (h.2.1 _ (.head _)) (by decide)

/-- The replica is staged, and then its transfer fails. -/
def failsAfterStaging : List ReplicaCall :=
  [.updateStagingState { hostname := "a" } [({ jobId := "j", fileId := 1, state := .finished }, 7)],
    .updateTransferStatus { hostname := "a" } { jobId := "j", fileId := 1, newFileState := .failed }]

theorem no_replica_stranded_failsAfterStaging :
    (∀ n, ¬Stranded "j" (ReplicaCall.runAll stagedReplicas (failsAfterStaging.take n))) ∧
    (ReplicaCall.runAll stagedReplicas failsAfterStaging).fileState? 2 = some .submitted := by
  refine ⟨no_replica_stranded (by unfold PositiveIds; decide) stagedReplicas_not_stranded ?_ ?_, by decide⟩
  · simp only [failsAfterStaging, List.forall_mem_cons, List.not_mem_nil, false_implies, implies_true, and_true]
    refine ⟨by simp [ReplicaCall.Sound, FileState.serves], fun _ _ => Iff.rfl, fun r hr => ?_, by decide⟩
    obtain rfl := Option.some.inj hr
    rfl
  · refine ⟨⟨fun h => ?_, trivial⟩, trivial, trivial⟩
    cases h

/-- The staging of the first replica fails. -/
def failsInStaging : List ReplicaCall :=
  [.updateStagingState { hostname := "a" } [({ jobId := "j", fileId := 1, state := .failed }, 7)]]

theorem replica_stranded_failsInStaging :
    PositiveIds "j" stagedReplicas ∧ ¬Stranded "j" stagedReplicas ∧
    (∀ c ∈ failsInStaging, c.Sound stagedReplicas) ∧
    Stranded "j" (ReplicaCall.runAll stagedReplicas failsInStaging) := by
  refine ⟨by unfold PositiveIds; decide, stagedReplicas_not_stranded, ?_, ⟨_, rfl, rfl, by decide⟩, by decide, by decide⟩
  simp only [failsInStaging, List.forall_mem_cons, List.not_mem_nil, false_implies, implies_true, and_true]
  simp [ReplicaCall.Sound]

end Fts3.MySql
