import Fts3.MySql.Api

/-!
# What the operations can issue

The arguments with which the operations issue their statements, whatever their queries answer.
-/

namespace Fts3.MySql

open Fts3.Sql

/-- The compare-and-set is only issued for a state that is not refused, and what it stores is what was
requested or, for a finished transfer, `ARCHIVING`. -/
def StatusUpdate.Issued (a : StatusUpdate) : Prop :=
  refused a.oldState a.requested a.processId = false ∧
    (a.newState = a.requested ∨ a.requested = .finished ∧ a.newState = .archiving)

def Stmt.Issued : Stmt → Prop
  | .file (.updateFileTransferStatus a) => a.Issued
  | .job (.terminate _ st _ _) => st.terminal = true
  | .job (.activate _ st) => st = .active
  | .job (.deletionsTerminal _ st _) => st.terminal = true
  | .job (.updateFileStateToQosTerminal _ st _) => st.terminal = true
  | .job (.fixNonTerminalJob _ st _) => st.terminal = true
  | _ => True

/-- Every issued statement but the `UPDATE` of the multihop repair. -/
def Stmt.Routine : Stmt → Prop
  | .file (.fixFilesInNotUsedState _ _) => False
  | s => s.Issued

theorem Stmt.Routine.issued {s : Stmt} (h : s.Routine) : s.Issued := by
  unfold Routine at h
  split at h
  · cases h
  · exact h

/-- Every issued statement but those that use the next hop and the compare-and-set for a finished transfer. -/
def Stmt.Plain : Stmt → Prop
  | .file (.useNextHop _) | .file (.fixFilesInNotUsedState _ _) => False
  | .file (.updateFileTransferStatus a) => a.Issued ∧ a.requested ≠ .finished
  | s => s.Issued

theorem Stmt.Plain.routine {s : Stmt} (h : s.Plain) : s.Routine := by
  unfold Plain at h
  split at h
  · cases h
  · cases h
  · exact h.1
  · rename_i hhop hfix hcas
    unfold Routine
    split
    · rename_i j i
      exact hfix j i rfl
    · exact h

@[simp] theorem issues_commit {P : Stmt → Prop} : commit.Issues P ↔ True := Iff.rfl

@[simp] theorem issues_fetch {P : Stmt → Prop} {β : Type} (q : Sel) (g : Db → β) :
    (select q g).Issues P ↔ True := by
  simp [select, Proc.query]

/-! ## The status of a file -/

section file

variable {P : Stmt → Prop}

theorem issues_queuedPerLink (vo : String) (links : List (String × String)) :
    (queuedPerLink vo links).Issues P := by
  induction links with
  | nil => trivial
  | cons l links ih =>
      simp only [queuedPerLink, Proc.bind_eq, select_bind, Proc.issues_select, Proc.issues_ite]
      exact fun db => ⟨fun _ => trivial, fun _ => ih.bind fun _ => trivial⟩

theorem issues_getBestNextReplica (node : Node) (j vo : String) : (getBestNextReplica node j vo).Issues P := by
  simp only [getBestNextReplica, Proc.bind_eq, select_bind, Proc.issues_select]
  intro db
  refine (issues_queuedPerLink vo _).bind fun pair => ?_
  split <;> simp

theorem issues_useFileReplica (node : Node) (j : String) (f : Nat) (uuid : Option String)
    (h : ∀ f', P (.file (.useFileReplica j f' uuid))) : (useFileReplica node j f uuid).Issues P := by
  simp only [useFileReplica, Proc.bind_eq, select_bind, Proc.issues_select, Proc.issues_ite]
  intro db
  refine ⟨fun _ => trivial, fun _ db₁ db₂ => ⟨fun _ => ?_, fun _ => ?_⟩⟩
  · refine (issues_getBestNextReplica node j _).bind fun best => ?_
    simp [h]
  · simp [h]

theorem issues_useNextHop (j : String) (h : ∀ f', P (.file (.useNextHop f'))) : (useNextHop j).Issues P := by
  simp [useNextHop, getNextHop, h]

theorem issues_afterFileUpdate (node : Node) (j : String) (f : Nat) (job : JobInfo) (st : FileState)
    (uuid : Option String) (hrep : ∀ f', P (.file (.useFileReplica j f' uuid)))
    (hhop : st = .finished → ∀ f', P (.file (.useNextHop f'))) (hnull : P (.file (.setNullDestSURLMultiHop j))) :
    (afterFileUpdate node j f job st uuid).Issues P := by
  unfold afterFileUpdate
  extract_lets jobAlive
  split
  · split
    · exact (issues_useFileReplica node j f uuid hrep).bind fun _ => issues_commit.mpr trivial
    · trivial
  · split
    · rename_i hfin
      exact (issues_useNextHop j (hhop hfin.2)).bind fun _ => issues_commit.mpr trivial
    · simp [setNullDestSURLMultiHop, hnull]
  · trivial

/-- What `storeFileState` binds to its `UPDATE`. -/
def TransferStatus.update (a : TransferStatus) (node : Node) (f : Nat) (job : JobInfo) (stored : Option FileState)
    (archiving : Bool) : StatusUpdate where
  fileId := f
  oldState := stored
  requested := a.newFileState
  newState := if archiving then .archiving else a.newFileState
  errorReason := a.errorReason
  time := job.now
  hostname := node.hostname
  filesize := a.filesize
  duration := a.duration
  throughput := a.throughput
  retry := a.retry
  fileMetadata := a.fileMetadata
  processId := a.processId

theorem storeFileState_eq (node : Node) (a : TransferStatus) (j : String) (f : Nat) (job : JobInfo)
    (stored : Option FileState) (uuid : Option String) (archiving : Bool) :
    storeFileState node a j f job stored uuid archiving =
      .update (.file (.updateFileTransferStatus (a.update node f job stored archiving))) fun affected =>
        if affected = 0 then rollback.bind fun _ => .ret (false, stored)
        else commit.bind fun _ =>
          (afterFileUpdate node j f job (a.update node f job stored archiving).newState uuid).bind fun _ =>
            .ret (true, none) := rfl

theorem issues_fileToUpdate (a : TransferStatus) : (fileToUpdate a).Issues P := by
  unfold fileToUpdate
  split <;> simp

section status

variable {node : Node} {a : TransferStatus} (hrep : ∀ j f uuid, P (.file (.useFileReplica j f uuid)))
  (hhop : a.newFileState = .finished → ∀ f, P (.file (.useNextHop f)))
  (hnull : ∀ j, P (.file (.setNullDestSURLMultiHop j)))

include hrep hhop hnull

section state

variable {f : Nat} (hcas : ∀ u : StatusUpdate, u.fileId = f → u.Issued → u.requested = a.newFileState →
    u.processId = a.processId → P (.file (.updateFileTransferStatus u)))

include hcas

theorem issues_storeFileState {j : String} {job : JobInfo}
    {stored : Option FileState} {uuid : Option String} {archiving : Bool}
    (href : refused stored a.newFileState a.processId = false)
    (harch : archiving = true → a.newFileState = .finished) :
    (storeFileState node a j f job stored uuid archiving).Issues P := by
  rw [storeFileState_eq, Proc.issues_update]
  refine ⟨hcas _ rfl ⟨href, ?_⟩ rfl rfl, fun n => ?_⟩
  · cases archiving with
    | false => exact .inl rfl
    | true => exact .inr ⟨harch rfl, rfl⟩
  · simp only [Proc.issues_ite]
    refine ⟨fun _ => trivial, fun _ => ?_⟩
    refine (issues_afterFileUpdate node j f job _ uuid (hrep j · uuid) (fun hfin => hhop ?_) (hnull j)).bind
      fun _ => trivial
    cases archiving with
    | false => exact hfin
    | true => exact harch rfl

theorem issues_updateFileState (j : String) : (updateFileState node a j f).Issues P := by
  simp only [updateFileState, Proc.bind_eq, select_bind, Proc.issues_select, Proc.issues_ite]
  refine fun db db₁ => ⟨fun _ => trivial, fun href => ?_⟩
  rw [Bool.not_eq_true] at href
  refine ⟨fun hf => ?_, fun _ => ?_⟩
  · refine Proc.Issues.bind ?_ fun archiving => issues_storeFileState hrep hhop hnull hcas href fun _ => hf
    simp only [isArchivingTransfer, getNextHop]
    split <;> simp
  · exact issues_storeFileState hrep hhop hnull hcas href (by simp)

end state

/-- `updateTransferStatus` issues its compare-and-set, and the statements that make room for the next
replica or hop. -/
theorem issues_updateFileTransferStatusInternal
    (hcas : ∀ u : StatusUpdate, u.Issued → u.requested = a.newFileState → u.processId = a.processId →
      P (.file (.updateFileTransferStatus u))) : (updateFileTransferStatusInternal node a).Issues P :=
  (issues_fileToUpdate a).bind fun ids => issues_updateFileState hrep hhop hnull (fun u _ => hcas u) ids.1

end status

theorem updateFileTransferStatusInternal_routine (node : Node) (a : TransferStatus) :
    (updateFileTransferStatusInternal node a).Issues Stmt.Routine :=
  issues_updateFileTransferStatusInternal (fun _ _ _ => trivial) (fun _ _ => trivial) (fun _ => trivial)
    fun _ hu _ _ => hu

theorem updateFileTransferStatusInternal_plain (node : Node) {a : TransferStatus} (h : a.newFileState ≠ .finished) :
    (updateFileTransferStatusInternal node a).Issues Stmt.Plain :=
  issues_updateFileTransferStatusInternal (fun _ _ _ => trivial) (fun hfin => absurd hfin h) (fun _ => trivial)
    fun _ hu hreq _ => ⟨hu, hreq ▸ h⟩

end file

/-! ## The status of a job -/

theorem JobCounts.outcome_terminal (n : JobCounts) (ty : JobType) : (n.outcome ty).1.terminal = true := by
  unfold outcome
  split
  · split <;> rfl
  · repeat' split
    all_goals rfl

section job

variable {P : Stmt → Prop} {j : String}
  (hterm : ∀ st reason se, st.terminal = true → P (.job (.terminate j st reason se)))
  (hactive : P (.job (.activate j .active))) (hset : ∀ st, P (.job (.setState j st)))
  (harch : P (.job (.setArchiving j))) (hcancel : P (.file (.cancelUnusedMultihopFiles j)))

include hterm hset harch hcancel

theorem issues_aggregateJob (node : Node) (st : FileState) (old : Option JobState × JobType) (se : String) :
    (aggregateJob node j st old se).Issues P := by
  have hstore : ∀ st, (storeJobState j st).Issues P := by
    intro st
    unfold storeJobState
    split <;> simp [hset]
  have hfin : ∀ n, (storeFinishedJob node j n old se).Issues P := by
    intro n
    simp [storeFinishedJob, hterm, hcancel, n.outcome_terminal]
  have hunf : ∀ n, (storeUnfinishedJob j st n old).Issues P := by
    intro n
    simp only [storeUnfinishedJob, Proc.bind_eq, select_bind, Proc.issues_ite, Proc.issues_select]
    simp [hstore, harch]
  simp only [aggregateJob, countFiles, selectCount, Proc.bind_eq, Proc.pure_eq, select_bind, Proc.select_bind,
    Proc.issues_select, Proc.ret_bind, Proc.issues_ite]
  exact fun _ _ _ _ _ _ => ⟨fun _ => hfin _, fun _ => hunf _⟩

include hactive

/-- `updateJobStatus` issues its `UPDATE`s of the job, and the one that cancels the unused hops. -/
theorem issues_updateJobTransferStatusInternal (node : Node) (st : FileState) :
    (updateJobTransferStatusInternal node j st).Issues P := by
  have hagg := issues_aggregateJob hterm hset harch hcancel node st
  have hfailed : ∀ reason se, P (.job (.terminate j .failed reason se)) := fun _ _ => hterm _ _ _ rfl
  simp [updateJobTransferStatusInternal, hagg, hfailed, hactive]

end job

theorem updateJobTransferStatusInternal_plain (node : Node) (j : String) (st : FileState) :
    (updateJobTransferStatusInternal node j st).Issues Stmt.Plain :=
  issues_updateJobTransferStatusInternal (P := Stmt.Plain) (fun _ _ _ h => h) rfl (fun _ => trivial) trivial trivial node st

/-! ## The other operations -/

theorem updateFileStatusReuse_plain (node : Node) (j : String) (st : FileState) :
    (updateFileStatusReuse node j st).Issues Stmt.Plain := by
  simp only [updateFileStatusReuse, Proc.bind_eq, beginTx_bind, updateFile_bind, Proc.issues_tx,
    Proc.issues_update]
  refine ⟨trivial, fun n => ?_⟩
  split <;> simp [Stmt.Plain, Stmt.Issued]

theorem failFiles_plain (j message : String) : (failFiles j message).Issues Stmt.Plain := by
  refine fun db => (Proc.issues_forM _ _ fun f _ => ?_).bind fun _ => issues_commit.mpr trivial
  simp [Stmt.Plain, Stmt.Issued]

theorem terminateReuseProcess_plain (j : String) (pid : Int) (message : String) (force : Bool) :
    (terminateReuseProcess j pid message force).Issues Stmt.Plain := by
  simp [terminateReuseProcess, failFiles_plain]

theorem setRetryTransfer_plain (node : Node) (j : String) (f : Nat) (n : Int) (reason log : String)
    (timedOut : Bool) : (setRetryTransfer node j f n reason log timedOut).Issues Stmt.Plain := by
  simp [setRetryTransfer, Stmt.Plain, Stmt.Issued]

theorem cancelExpiredJob_plain (node : Node) (message : String) (job : JobRow) :
    (cancelExpiredJob node message job).Issues Stmt.Plain := by
  refine ⟨trivial, fun _ => ?_⟩
  exact (updateJobTransferStatusInternal_plain node job.jobId .canceled).bind fun _ => trivial

theorem cancelOwnTimeout_plain (node : Node) (vo : String) :
    (cancelOwnTimeout node vo).Issues Stmt.Plain := fun _ =>
  (Proc.issues_forM _ _ fun job _ => cancelExpiredJob_plain node _ job).bind fun _ => trivial

theorem cancelGlobalTimeout_plain (node : Node) (maxTime : Nat) (vo : String) :
    (cancelGlobalTimeout node maxTime vo).Issues Stmt.Plain := fun _ =>
  (Proc.issues_forM _ _ fun job _ => cancelExpiredJob_plain node _ job).bind fun _ => trivial

theorem cancelExpiredJobsForVo_plain (node : Node) (maxTime : Nat) (vo : String) :
    (cancelExpiredJobsForVo node maxTime vo).Issues Stmt.Plain := by
  have hown : ∀ jobs : List String, Proc.Issues Stmt.Plain
      ((cancelOwnTimeout node vo).bind fun js => .ret (jobs ++ js)) := fun jobs =>
    (cancelOwnTimeout_plain node vo).bind fun _ => trivial
  simp only [cancelExpiredJobsForVo, Proc.bind_eq, Proc.issues_ite]
  exact ⟨fun _ => (cancelGlobalTimeout_plain node maxTime vo).bind hown, fun _ => hown []⟩

theorem issues_jobRetries {P : Stmt → Prop} (j : String) : (jobRetries j).Issues P := by
  simp [jobRetries]

theorem resetForRetryDelete_plain (f : Nat) (j : String) (retry : Bool) :
    (resetForRetryDelete f j retry).Issues Stmt.Plain := by
  unfold resetForRetryDelete
  split
  · refine (issues_jobRetries j).bind fun n => ?_
    simp [Stmt.Plain, Stmt.Issued]
  · trivial

theorem updateArchivingStateInternal_plain (node : Node) (ops : List (MinFileStatus FileState)) :
    (updateArchivingStateInternal node ops).Issues Stmt.Plain := by
  refine (Proc.issues_forM ops _ fun i _ => ?_).bind fun _ => Proc.issues_forM ops _ fun i _ => ?_
  · simp [Stmt.Plain, Stmt.Issued]
  · exact (updateJobTransferStatusInternal_plain node i.jobId i.state).bind fun _ => trivial

theorem issues_stagingFailed {P : Stmt → Prop} (i : MinFileStatus FileState)
    (hreset : ∀ n t, P (.file (.resetForRetryStaging i.fileId i.jobId n t)))
    (hinsert : ∀ row, P (.insertRetryError row))
    (hterm : P (.file (.stagingTerminal i.fileId i.state i.reason))) : (stagingFailed i).Issues P := by
  have hretry : (resetForRetryStaging i.fileId i.jobId i.retry).Issues P := by
    unfold resetForRetryStaging
    split
    · refine (issues_jobRetries i.jobId).bind fun n => ?_
      simp [hreset]
    · trivial
  refine hretry.bind fun times => ?_
  cases times <;> simp [hinsert, hterm]

theorem issues_stagingEnded {P : Stmt → Prop} (node : Node) (i : MinFileStatus FileState) (hashedId : Nat)
    (hhop : ∀ f, P (.file (.useNextHop f))) (hsub : P (.file (.stagingSubmitted i.fileId hashedId)))
    (hterm : ∀ reason, P (.file (.stagingTerminal i.fileId i.state reason))) :
    (stagingEnded node i hashedId).Issues P := by
  have hstore : ∀ st reason, (st ≠ .submitted → st = i.state) → Proc.Issues P
      (if st = .submitted then do
        let _ ← updateFile (.stagingSubmitted i.fileId hashedId)
        pure ()
      else do
        let _ ← updateFile (.stagingTerminal i.fileId st reason)
        pure () : Op Unit) := by
    intro st reason hst
    split
    · simp [hsub]
    · rename_i hne
      simp [hst hne, hterm]
  simp only [stagingEnded, Proc.bind_eq, select_bind, Proc.issues_select]
  intro db
  by_cases hin : db.files.matched (fun r =>
    decide (r.fileId = i.fileId) && r.sourceSurl.isSome && decide (r.sourceSurl = r.destSurl)) = 0
  · rw [if_pos hin]
    refine hstore _ _ fun hne => ?_
    split at hne
    · cases hne rfl
    · rename_i hfin
      exact if_neg hfin
  · simp only [hin, false_and, if_false]
    intro db₁
    dsimp only
    split
    · exact (issues_useNextHop i.jobId hhop).bind fun _ => hstore _ _ fun _ => rfl
    · exact hstore _ _ fun _ => rfl

theorem stagingEnded_routine (node : Node) (i : MinFileStatus FileState) (h : Nat) :
    (stagingEnded node i h).Issues Stmt.Routine :=
  issues_stagingEnded node i h (fun _ => trivial) trivial fun _ => trivial

theorem updateStagingStateInternal_routine (node : Node) (ops : List (MinFileStatus FileState × Nat)) :
    (updateStagingStateInternal node ops).Issues Stmt.Routine := by
  refine (Proc.issues_forM ops _ fun i _ => ?_).bind fun _ => Proc.issues_forM ops _ fun i _ => ?_
  · obtain ⟨i, hashed⟩ := i
    simp only
    split
    · simp [Stmt.Routine, Stmt.Issued]
    · exact issues_stagingFailed i (fun _ _ => trivial) (fun _ => trivial) trivial
    · exact stagingEnded_routine node i hashed
  · exact ((updateJobTransferStatusInternal_plain node i.1.jobId _).mono fun _ h => h.routine).bind fun _ => trivial

theorem storeDeletion_plain (node : Node) (i : MinFileStatus DmState) :
    (storeDeletion node i).Issues Stmt.Plain := by
  unfold storeDeletion
  split
  · simp [Stmt.Plain, Stmt.Issued]
  · refine (resetForRetryDelete_plain i.fileId i.jobId i.retry).bind fun retried => ?_
    simp [Stmt.Plain, Stmt.Issued]
  · simp [Stmt.Plain, Stmt.Issued]

theorem storeDeletionJob_plain (j : String) : (storeDeletionJob j).Issues Stmt.Plain := by
  simp [storeDeletionJob, Stmt.Plain, Stmt.Issued, JobState.terminal]

theorem updateDeletionsStateInternal_plain (node : Node) (ops : List (MinFileStatus DmState)) :
    (updateDeletionsStateInternal node ops).Issues Stmt.Plain :=
  (Proc.issues_forM ops _ fun i _ => storeDeletion_plain node i).bind fun _ =>
    (Proc.issues_forM _ _ fun j _ => storeDeletionJob_plain j).bind fun _ => trivial

theorem qosJobState_terminal {rows : List FileRow} {st : JobState} (h : qosJobState rows = some st) :
    st.terminal = true := by
  simp only [qosJobState] at h
  split at h
  · cases h; rfl
  · split at h
    · cases h; rfl
    · split at h
      · cases h; rfl
      · cases h

theorem storeQosJob_plain (j : String) (t : Nat) : (storeQosJob j t).Issues Stmt.Plain := by
  simp only [storeQosJob, Proc.bind_eq, select_bind, Proc.issues_select]
  intro db
  split
  · rename_i st h
    exact ⟨qosJobState_terminal h, fun _ => trivial⟩
  · trivial

theorem updateFileStateToQosTerminal_plain (node : Node) (j : String) (f : Nat) (st : FileState)
    (reason : String) : (updateFileStateToQosTerminal node j f st reason).Issues Stmt.Plain := by
  have htail : ∀ t, Proc.Issues Stmt.Plain ((storeQosJob j t).bind fun _ => commit) := fun t =>
    (storeQosJob_plain j t).bind fun _ => issues_commit.mpr trivial
  simp [updateFileStateToQosTerminal, Stmt.Plain, Stmt.Issued, htail]

theorem failTransfersWithFailedTokenExchange_plain (node : Node) (failed : List (String × String)) :
    (failTransfersWithFailedTokenExchange node failed).Issues Stmt.Plain := by
  refine Proc.issues_forM failed _ fun e _ db => Proc.issues_forM _ _ fun r _ => ?_
  refine (updateFileTransferStatusInternal_plain node (by simp)).bind fun _ => ?_
  exact (updateJobTransferStatusInternal_plain node r.jobId .failed).bind fun _ => trivial

theorem storeInitialStates_plain (files : List (Nat × String)) :
    (storeInitialStates files).Issues Stmt.Plain := by
  induction files with
  | nil => trivial
  | cons f files ih =>
      obtain ⟨f, st⟩ := f
      unfold storeInitialStates
      split
      · trivial
      · exact ⟨trivial, fun _ => ih⟩

theorem storeLogFiles_plain (messages : List MessageLog) : (storeLogFiles messages).Issues Stmt.Plain := by
  induction messages with
  | nil => trivial
  | cons m messages ih => exact ⟨trivial, fun _ => ih.bind fun _ => trivial⟩

/-! ## The sanity checks -/

theorem fixJob_plain (j : String) (ty : JobType) (st : JobState) (rows : List FileRow) :
    (fixJob j ty st rows).Issues Stmt.Plain := by
  simp [fixJob, fixEmptyJob, fixNonTerminalJob, Stmt.Plain, Stmt.Issued, JobState.terminal]

theorem recoverFile_plain (node : Node) {st : FileState} (hst : st ≠ .finished) (message : String) (r : FileRow) :
    (recoverFile node st message r).Issues Stmt.Plain := by
  refine (updateFileTransferStatusInternal_plain node hst).bind fun _ => ?_
  exact (updateJobTransferStatusInternal_plain node r.jobId st).bind fun _ => trivial

theorem fixJobOfRow_plain (job : JobRow) : (fixJobOfRow job).Issues Stmt.Plain := fun _ =>
  fixJob_plain job.jobId job.type job.jobState _

theorem fixJobNonTerminallAllFilesTerminal_plain :
    fixJobNonTerminallAllFilesTerminal.Issues Stmt.Plain := fun _ =>
  (Proc.issues_forM _ _ fun job _ => fixJobOfRow_plain job).bind fun _ => trivial

theorem recoverFromDeadHosts_plain (node : Node) : (recoverFromDeadHosts node).Issues Stmt.Plain := fun _ =>
  Proc.issues_forM _ _ fun _ _ _ => Proc.issues_forM _ _ fun r _ => recoverFile_plain node (by decide) _ r

theorem recoverStalledStaging_plain (node : Node) : (recoverStalledStaging node).Issues Stmt.Plain := by
  refine fun _ => (Proc.issues_forM _ _ fun r _ => ?_).bind fun _ => trivial
  simp only [Proc.issues_ite]
  refine ⟨fun _ => (recoverFile_plain node (by decide) _ r.1).bind fun _ => ?_, fun _ => trivial⟩
  simp [Stmt.Plain, Stmt.Issued]

theorem recoverStalledArchiving_plain (node : Node) :
    (recoverStalledArchiving node).Issues Stmt.Plain := by
  refine fun _ => (Proc.issues_forM _ _ fun r _ => ?_).bind fun _ => trivial
  simp only [Proc.issues_ite]
  refine ⟨fun _ => (recoverFile_plain node (by decide) _ r.1).bind fun _ => ?_, fun _ => trivial⟩
  simp [Stmt.Plain, Stmt.Issued]

theorem fixJobTerminalFileNonTerminal_plain : fixJobTerminalFileNonTerminal.Issues Stmt.Plain := by
  refine fun _ => (Proc.issues_forM _ _ fun j _ => ?_).bind fun _ => trivial
  simp [Stmt.Plain, Stmt.Issued]

theorem fixDeleteInconsistencies_plain : fixDeleteInconsistencies.Issues Stmt.Plain := by
  refine fun _ => (Proc.issues_forM _ _ fun j _ => ?_).bind fun _ => trivial
  simp [Stmt.Plain, Stmt.Issued]

theorem checkSanityState_plain (node : Node) : (checkSanityState node).Issues Stmt.Plain := by
  simp only [checkSanityState, Proc.issues_ite]
  refine ⟨fun _ => trivial, fun _ => ?_⟩
  exact fixJobNonTerminallAllFilesTerminal_plain.bind fun _ =>
    fixJobTerminalFileNonTerminal_plain.bind fun _ => fixDeleteInconsistencies_plain.bind fun _ =>
    (recoverFromDeadHosts_plain node).bind fun _ => (recoverStalledStaging_plain node).bind fun _ =>
      recoverStalledArchiving_plain node

theorem fixStuckHop_issued (j : String) : (fixStuckHop j).Issues Stmt.Issued := by
  simp only [fixStuckHop, Proc.bind_eq, select_bind, Proc.issues_select]
  intro db
  split <;> simp [Stmt.Issued]

theorem multihopSanitySate_issued (node : Node) : (multihopSanitySate node).Issues Stmt.Issued := by
  simp only [multihopSanitySate, Proc.issues_ite]
  exact ⟨fun _ => trivial, fun _ _ =>
    (Proc.issues_forM _ _ fun j _ => fixStuckHop_issued j).bind fun _ => trivial⟩

theorem updateHeartBeatInternal_plain (node : Node) (service : String) :
    (updateHeartBeatInternal node service).Issues Stmt.Plain := by
  simp only [updateHeartBeatInternal, Proc.bind_eq, beginTx_bind, execute_bind, select_bind, commit_bind,
    Proc.issues_tx, Proc.issues_update, Proc.issues_select]
  refine ⟨trivial, fun _ db => ?_⟩
  split <;> simp [Stmt.Plain, Stmt.Issued]

/-! ## All calls -/

def Call.repairs : Call → Bool
  | .multihopSanitySate _ => true
  | _ => false

/-- The calls that may use the next hop, or finish a transfer. -/
def Call.advances : Call → Bool
  | .updateTransferStatus _ _ | .updateStagingState _ _ | .multihopSanitySate _ => true
  | _ => false

theorem prog_plain {c : Call} (hc : c.advances = false) : c.prog.Issues Stmt.Plain := by
  cases c with
  | updateJobStatus node j st =>
      exact (updateJobTransferStatusInternal_plain node j st).bind fun _ => trivial
  | updateFileStatusReuse node j st =>
      exact (updateFileStatusReuse_plain node j st).bind fun _ => trivial
  | terminateReuseProcess j pid message force =>
      exact (terminateReuseProcess_plain j pid message force).bind fun _ => trivial
  | setPidForJob j pid => exact ⟨trivial, fun _ => trivial⟩
  | forkFailed node j => exact ⟨trivial, fun _ => ⟨trivial, fun _ => trivial⟩⟩
  | setRetryTransfer node j f n reason log timedOut =>
      exact (setRetryTransfer_plain node j f n reason log timedOut).bind fun _ => trivial
  | updateFileTransferProgressVector messages =>
      refine Proc.Issues.bind ((Proc.issues_forM messages _ fun m _ => ?_).bind fun _ => trivial) fun _ => trivial
      simp [Stmt.Plain, Stmt.Issued]
  | getCancelJob node =>
      refine Proc.Issues.bind (fun _ => (Proc.issues_forM _ _ fun r _ => ?_).bind fun _ => trivial) fun _ => trivial
      simp [Stmt.Plain, Stmt.Issued]
  | cancelExpiredJobsForVo node t vo =>
      exact (cancelExpiredJobsForVo_plain node t vo).bind fun _ => trivial
  | updateProtocol messages =>
      refine Proc.Issues.bind ((Proc.issues_forM messages _ fun m _ => ?_).bind fun _ => trivial) fun _ => trivial
      simp [Stmt.Plain, Stmt.Issued]
  | transferLogFileVector messages =>
      exact Proc.Issues.bind ((storeLogFiles_plain messages).bind fun _ => trivial) fun _ => trivial
  | backup b js => simp [Call.prog, backupBulk, Proc.ite_bind, Stmt.Plain, Stmt.Issued]
  | setArchivingStartTime jobs =>
      refine Proc.Issues.bind ((Proc.issues_forM jobs _ fun m _ => ?_).bind fun _ => trivial) fun _ => trivial
      simp [Stmt.Plain, Stmt.Issued]
  | updateArchivingState node ops =>
      exact (updateArchivingStateInternal_plain node ops).bind fun _ => trivial
  | getArchivingFilesForCanceling node =>
      refine Proc.Issues.bind (fun _ => (Proc.issues_forM _ _ fun r _ => ?_).bind fun _ => trivial) fun _ => trivial
      simp [Stmt.Plain, Stmt.Issued]
  | updateBringOnlineToken jobs token =>
      refine Proc.Issues.bind ((Proc.issues_forM jobs _ fun m _ => ?_).bind fun _ => trivial) fun _ => trivial
      simp [Stmt.Plain, Stmt.Issued]
  | getAlreadyStartedStaging node => exact ⟨trivial, fun _ _ => trivial⟩
  | getStagingFilesForCanceling node =>
      refine Proc.Issues.bind (fun _ => (Proc.issues_forM _ _ fun r _ => ?_).bind fun _ => trivial) fun _ => trivial
      simp [Stmt.Plain, Stmt.Issued]
  | updateDeletionsState node ops =>
      exact (updateDeletionsStateInternal_plain node ops).bind fun _ => trivial
  | requeueStartedDeletes node => exact ⟨trivial, fun _ => trivial⟩
  | updateFileStateToQosRequestSubmitted node j f =>
      simp [Call.prog, updateFileStateToQosRequestSubmitted, Proc.ite_bind, Stmt.Plain, Stmt.Issued]
  | updateFileStateToQosTerminal node j f st reason =>
      exact (updateFileStateToQosTerminal_plain node j f st reason).bind fun _ => trivial
  | failTransfersWithFailedTokenExchange node failed =>
      exact (failTransfersWithFailedTokenExchange_plain node failed).bind fun _ => trivial
  | updateTokenPrepFiles => exact Proc.Issues.bind (fun _ => storeInitialStates_plain _) fun _ => trivial
  | checkSanityState node => exact (checkSanityState_plain node).bind fun _ => trivial
  | updateHeartBeat node service =>
      exact (updateHeartBeatInternal_plain node service).bind fun _ => trivial
  | tick d => simp [Call.prog, Stmt.Plain, Stmt.Issued]
  | _ => cases hc

theorem prog_routine {c : Call} (hc : c.repairs = false) : c.prog.Issues Stmt.Routine := by
  cases hadv : c.advances with
  | false => exact (prog_plain hadv).mono fun _ h => h.routine
  | true =>
      cases c with
      | updateTransferStatus node a =>
          exact (updateFileTransferStatusInternal_routine node a).bind fun _ => trivial
      | updateStagingState node ops =>
          exact (updateStagingStateInternal_routine node ops).bind fun _ => trivial
      | multihopSanitySate node => cases hc
      | _ => cases hadv

theorem prog_issued (c : Call) : c.prog.Issues Stmt.Issued := by
  cases hc : c.repairs with
  | false => exact (prog_routine hc).mono fun _ h => h.issued
  | true =>
      cases c with
      | multihopSanitySate node => exact (multihopSanitySate_issued node).bind fun _ => trivial
      | _ => cases hc

/-- The steps of a run are statements as they are issued and executed. -/
theorem steps_spec {db : Db} {calls : List Call} {schedule : List Nat} {e : Step}
    (he : e ∈ System.steps db calls schedule) :
    e.Executes Stmt.exec ∧ ∀ u, e.act = .update u → u.Issued := by
  refine ⟨Pool.trace_executes _ schedule e he, ?_⟩
  refine Pool.Issues.trace (Pool.issues_start ?_) schedule e he
  intro p hp
  obtain ⟨c, -, rfl⟩ := List.mem_map.mp hp
  exact prog_issued c

theorem after_rel {R : Db → Db → Prop} (hrefl : ∀ db, R db db)
    (htrans : ∀ {db₁ db₂ db₃}, R db₁ db₂ → R db₂ db₃ → R db₁ db₃) {db : Db} {calls : List Call}
    {schedule₁ schedule₂ : List Nat}
    (h : ∀ e ∈ System.steps db calls (schedule₁ ++ schedule₂), R e.pre e.post) :
    R (System.after db calls schedule₁).store (System.after db calls (schedule₁ ++ schedule₂)).store := by
  rw [System.after, System.after, Pool.run_append]
  refine Pool.run_rel hrefl htrans schedule₂ fun e he => h e ?_
  rw [System.steps, Pool.trace_append]
  exact List.mem_append_right _ he

end Fts3.MySql
