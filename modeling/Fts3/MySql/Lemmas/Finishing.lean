import Fts3.MySql.Lemmas.Writes
import Fts3.MySql.TokenPrep
import Fts3.Sql.Memory

/-!
# Who finishes a file

The calls that may store `FINISHED` for a file, whatever else runs at the same time.
-/

namespace Fts3.MySql

open Fts3.Sql

/-! ## The statements -/

/-- The statement does not store `FINISHED` for the file `f`. -/
def Stmt.Unfinishing (f : Nat) : Stmt → Prop
  | .file (.updateFileStatusReuse _ st _) => st ≠ .finished
  | .file (.updateFileTransferStatus a) => a.fileId = f → a.newState ≠ .finished
  | .file (.updateArchivingState f' st _) => f' = f → st ≠ .finished
  | .file (.updateFileStateToQosTerminal f' st _ _ _ _) => f' = f → st ≠ .finished
  | .file (.stagingTerminal f' st _) => f' = f → st ≠ .finished
  | .file (.updateTokenPrepFiles f' st) => f' = f → st ≠ .finished
  | _ => True

theorem FileUpdate.sets_unfinished {u : FileUpdate} {f now : Nat} {r : FileRow} (h : Stmt.Unfinishing f (.file u))
    (hf : r.fileId = f) (hsel : u.selects r = true) (hst : r.fileState ≠ .finished) :
    (u.sets now r).fileState ≠ .finished := by
  rw [u.sets_fileState]
  cases u with
  | updateFileStatusReuse j st host => exact h
  | updateFileTransferStatus a =>
      simp only [selects, Bool.and_eq_true, decide_eq_true_eq] at hsel
      exact h (hsel.1.symm.trans hf)
  | updateArchivingState f' st reason =>
      simp only [selects, decide_eq_true_eq] at hsel
      exact h (hsel.symm.trans hf)
  | updateFileStateToQosTerminal f' st start finish duration host =>
      simp only [selects, decide_eq_true_eq] at hsel
      exact h (hsel.symm.trans hf)
  | stagingTerminal f' st reason =>
      simp only [selects, Bool.and_eq_true, decide_eq_true_eq] at hsel
      exact h (hsel.1.symm.trans hf)
  | updateTokenPrepFiles f' st =>
      simp only [selects, Bool.and_eq_true, decide_eq_true_eq] at hsel
      exact h (hsel.1.symm.trans hf)
  | _ =>
      first
        | exact hst
        | simp [writes?]

theorem FileUpdate.sets_initialState (u : FileUpdate) (now : Nat) (r : FileRow) :
    (u.sets now r).initialState = r.initialState := by
  cases u <;> rfl

theorem FileState.ofName?_eq_finished {name : String} (h : FileState.ofName? name = some .finished) :
    name = "FINISHED" := by
  have hname := List.find?_some h
  exact (of_decide_eq_true hname).symm

/-- The file `f` is not finished, and no file is born finished. -/
structure Db.Unfinished (f : Nat) (db : Db) : Prop where
  file : ∀ r ∈ db.files.rows, r.fileId = f → r.fileState ≠ .finished
  initial : ∀ r ∈ db.files.rows, r.initialState ≠ "FINISHED"

theorem Db.Unfinished.exec {f : Nat} {s : Stmt} {db : Db} (hs : s.Unfinishing f) (h : db.Unfinished f) :
    (s.exec db).2.Unfinished f := by
  cases s with
  | file u =>
      constructor
      · refine Table.forall_update (u.sets_fileId db.now) (fun r _ hsel hr hf => ?_) h.file
        rw [u.sets_fileId] at hf
        exact FileUpdate.sets_unfinished hs hf hsel (hr hf)
      · refine Table.forall_update (u.sets_fileId db.now) (fun r _ _ hr => ?_) h.initial
        rw [u.sets_initialState]
        exact hr
  | deleteFiles js =>
      exact ⟨fun r hr => h.file r (List.mem_filter.mp hr).1, fun r hr => h.initial r (List.mem_filter.mp hr).1⟩
  | _ => exact ⟨h.file, h.initial⟩

/-- Nobody finishes the file `f`, in any store that a query can find. -/
def unfinishedRule (f : Nat) : Rule Db Sel Stmt Unit where
  inv := Db.Unfinished f
  see _ _ g := g
  allow s _ := s.Unfinishing f

/-! ## The operations -/

section operations

variable {f : Nat} {node : Node}

theorem updateFileTransferStatusInternal_unfinishing {a : TransferStatus}
    (h : a.newFileState = .finished → a.fileId ≠ f ∧ a.jobId ≠ "" ∧ a.fileId ≠ 0) :
    (updateFileTransferStatusInternal node a).Issues (Stmt.Unfinishing f) := by
  by_cases hst : a.newFileState = .finished
  · obtain ⟨hf, hjob, hfile⟩ := h hst
    have hids : fileToUpdate a = .ret (a.jobId, a.fileId) := if_neg (by simp [hjob, hfile])
    unfold updateFileTransferStatusInternal
    rw [hids]
    exact issues_updateFileState (fun _ _ _ => trivial) (fun _ _ => trivial) (fun _ => trivial)
      (fun u hu _ _ _ hf' => absurd (hu.symm.trans hf') hf) a.jobId
  · refine issues_updateFileTransferStatusInternal (fun _ _ _ => trivial) (fun _ _ => trivial) (fun _ => trivial) ?_
    rintro u ⟨-, hnew⟩ hreq - -
    obtain hnew | ⟨hfin, -⟩ := hnew
    · rw [hnew, hreq]
      exact hst
    · exact absurd (hreq.symm.trans hfin) hst

theorem updateJobTransferStatusInternal_unfinishing (j : String) (st : FileState) :
    (updateJobTransferStatusInternal node j st).Issues (Stmt.Unfinishing f) :=
  issues_updateJobTransferStatusInternal (fun _ _ _ _ => trivial) trivial (fun _ => trivial) trivial trivial node st

theorem terminateReuseProcess_unfinishing (j : String) (pid : Int) (message : String) (force : Bool) :
    (terminateReuseProcess j pid message force).Issues (Stmt.Unfinishing f) := by
  have hfail : ∀ j, (failFiles j message).Issues (Stmt.Unfinishing f) := by
    refine fun j db => (Proc.issues_forM _ _ fun f' _ => ?_).bind fun _ => issues_commit.mpr trivial
    simp [Stmt.Unfinishing]
  simp [terminateReuseProcess, hfail]

theorem setRetryTransfer_unfinishing (j : String) (f' : Nat) (n : Int) (reason log : String) (timedOut : Bool) :
    (setRetryTransfer node j f' n reason log timedOut).Issues (Stmt.Unfinishing f) := by
  simp [setRetryTransfer, Stmt.Unfinishing]

theorem cancelExpiredJob_unfinishing (message : String) (job : JobRow) :
    (cancelExpiredJob node message job).Issues (Stmt.Unfinishing f) := by
  refine ⟨trivial, fun _ => ?_⟩
  exact (updateJobTransferStatusInternal_unfinishing job.jobId .canceled).bind fun _ => trivial

theorem cancelExpiredJobsForVo_unfinishing (maxTime : Nat) (vo : String) :
    (cancelExpiredJobsForVo node maxTime vo).Issues (Stmt.Unfinishing f) := by
  have hown : (cancelOwnTimeout node vo).Issues (Stmt.Unfinishing f) := fun _ =>
    (Proc.issues_forM _ _ fun job _ => cancelExpiredJob_unfinishing _ job).bind fun _ => trivial
  have hglobal : (cancelGlobalTimeout node maxTime vo).Issues (Stmt.Unfinishing f) := fun _ =>
    (Proc.issues_forM _ _ fun job _ => cancelExpiredJob_unfinishing _ job).bind fun _ => trivial
  have htail : ∀ jobs : List String, Proc.Issues (Stmt.Unfinishing f)
      ((cancelOwnTimeout node vo).bind fun js => .ret (jobs ++ js)) := fun jobs => hown.bind fun _ => trivial
  simp only [cancelExpiredJobsForVo, Proc.bind_eq, Proc.issues_ite]
  exact ⟨fun _ => hglobal.bind htail, fun _ => htail []⟩

theorem updateArchivingStateInternal_unfinishing {ops : List (MinFileStatus FileState)}
    (h : ∀ op ∈ ops, op.fileId = f → op.state ≠ .finished) :
    (updateArchivingStateInternal node ops).Issues (Stmt.Unfinishing f) := by
  refine (Proc.issues_forM ops _ fun i hi => ?_).bind fun _ => Proc.issues_forM ops _ fun i _ => ?_
  · have hi : Stmt.Unfinishing f (.file (.updateArchivingState i.fileId i.state i.reason)) := h i hi
    simp only [Proc.bind_eq, Proc.pure_eq, updateFile_bind, Proc.issues_update, Proc.issues_ret, implies_true, and_true]
    exact hi
  · exact (updateJobTransferStatusInternal_unfinishing i.jobId i.state).bind fun _ => trivial

theorem updateStagingStateInternal_unfinishing {ops : List (MinFileStatus FileState × Nat)}
    (h : ∀ op ∈ ops, op.1.fileId = f → op.1.state ≠ .finished) :
    (updateStagingStateInternal node ops).Issues (Stmt.Unfinishing f) := by
  refine (Proc.issues_forM ops _ fun i hi => ?_).bind fun _ => Proc.issues_forM ops _ fun i _ => ?_
  · obtain ⟨i, hashed⟩ := i
    have hterm : ∀ reason, Stmt.Unfinishing f (.file (.stagingTerminal i.fileId i.state reason)) := fun _ => h (i, hashed) hi
    simp only
    split
    · simp [Stmt.Unfinishing]
    · exact issues_stagingFailed i (fun _ _ => trivial) (fun _ => trivial) (hterm _)
    · exact issues_stagingEnded node i hashed (fun _ => trivial) trivial hterm
  · exact (updateJobTransferStatusInternal_unfinishing i.1.jobId _).bind fun _ => trivial

theorem updateDeletionsStateInternal_unfinishing (ops : List (MinFileStatus DmState)) :
    (updateDeletionsStateInternal node ops).Issues (Stmt.Unfinishing f) := by
  refine (Proc.issues_forM ops _ fun i _ => ?_).bind fun _ =>
    (Proc.issues_forM _ _ fun j _ => ?_).bind fun _ => trivial
  · have hreset : (resetForRetryDelete i.fileId i.jobId i.retry).Issues (Stmt.Unfinishing f) := by
      unfold resetForRetryDelete
      split
      · refine (issues_jobRetries i.jobId).bind fun n => ?_
        simp [Stmt.Unfinishing]
      · trivial
    unfold storeDeletion
    split
    · simp [Stmt.Unfinishing]
    · refine hreset.bind fun retried => ?_
      simp [Stmt.Unfinishing]
    · simp [Stmt.Unfinishing]
  · simp [storeDeletionJob, Stmt.Unfinishing]

theorem updateFileStateToQosTerminal_unfinishing {f' : Nat} {st : FileState} (h : f' = f → st ≠ .finished) (j : String)
    (reason : String) : (updateFileStateToQosTerminal node j f' st reason).Issues (Stmt.Unfinishing f) := by
  have hjob : ∀ t, Proc.Issues (Stmt.Unfinishing f) ((storeQosJob j t).bind fun _ => commit) := by
    refine fun t => Proc.Issues.bind ?_ fun _ => issues_commit.mpr trivial
    simp only [storeQosJob, Proc.bind_eq, select_bind, Proc.issues_select]
    intro db
    split <;> simp [Stmt.Unfinishing]
  have hstore : ∀ start finish duration host,
      Stmt.Unfinishing f (.file (.updateFileStateToQosTerminal f' st start finish duration host)) := fun _ _ _ _ => h
  simp [updateFileStateToQosTerminal, hjob, hstore, show ∀ r, Stmt.Unfinishing f (.file (.qosTerminalReason f' r)) from
    fun _ => trivial]

theorem failTransfersWithFailedTokenExchange_unfinishing (failed : List (String × String)) :
    (failTransfersWithFailedTokenExchange node failed).Issues (Stmt.Unfinishing f) := by
  refine Proc.issues_forM failed _ fun e _ db => Proc.issues_forM _ _ fun r _ => ?_
  refine (updateFileTransferStatusInternal_unfinishing (by simp)).bind fun _ => ?_
  exact (updateJobTransferStatusInternal_unfinishing r.jobId .failed).bind fun _ => trivial

/-- The states that the released files go to are their initial ones. -/
theorem updateTokenPrepFiles_follows : updateTokenPrepFiles.Follows (unfinishedRule f) (fun _ _ => True) () := by
  have hstore : ∀ files : List (Nat × String), (∀ e ∈ files, e.2 ≠ "FINISHED") →
      (storeInitialStates files).Issues (Stmt.Unfinishing f) := by
    intro files hfiles
    induction files with
    | nil => trivial
    | cons e files ih =>
        obtain ⟨fileId, fileState⟩ := e
        have hname : fileState ≠ "FINISHED" := hfiles (fileId, fileState) List.mem_cons_self
        unfold storeInitialStates
        split
        · trivial
        · case h_2 st hst =>
            refine ⟨fun _ hfin => hname ?_, fun _ => ih fun e he => hfiles e (List.mem_cons_of_mem _ he)⟩
            rw [hfin] at hst
            exact FileState.ofName?_eq_finished hst
  intro db hdb
  refine (hstore db.tokenPrepFiles fun e he => ?_).follows fun _ h _ => h
  obtain ⟨r, hr, rfl⟩ := List.mem_map.mp he
  exact hdb.initial r (List.mem_filter.mp hr).1

theorem recoverFile_unfinishing {st : FileState} (hst : st ≠ .finished) (message : String) (r : FileRow) :
    (recoverFile node st message r).Issues (Stmt.Unfinishing f) := by
  refine (updateFileTransferStatusInternal_unfinishing fun h => absurd h hst).bind fun _ => ?_
  exact (updateJobTransferStatusInternal_unfinishing r.jobId st).bind fun _ => trivial

theorem checkSanityState_unfinishing : (checkSanityState node).Issues (Stmt.Unfinishing f) := by
  have hjobs : fixJobNonTerminallAllFilesTerminal.Issues (Stmt.Unfinishing f) := by
    have hfix : ∀ job, (fixJobOfRow job).Issues (Stmt.Unfinishing f) := by
      intro job db
      simp [fixJob, fixEmptyJob, fixNonTerminalJob, Stmt.Unfinishing]
    exact fun _ => (Proc.issues_forM _ _ fun job _ => hfix job).bind fun _ => trivial
  have hfiles : fixJobTerminalFileNonTerminal.Issues (Stmt.Unfinishing f) := by
    refine fun _ => (Proc.issues_forM _ _ fun j _ => ?_).bind fun _ => trivial
    simp [Stmt.Unfinishing]
  have hdeletes : fixDeleteInconsistencies.Issues (Stmt.Unfinishing f) := by
    refine fun _ => (Proc.issues_forM _ _ fun j _ => ?_).bind fun _ => trivial
    simp [Stmt.Unfinishing]
  have hhosts : (recoverFromDeadHosts node).Issues (Stmt.Unfinishing f) := fun _ =>
    Proc.issues_forM _ _ fun _ _ _ => Proc.issues_forM _ _ fun r _ => recoverFile_unfinishing (by decide) _ r
  have hstaging : (recoverStalledStaging node).Issues (Stmt.Unfinishing f) := by
    refine fun _ => (Proc.issues_forM _ _ fun r _ => ?_).bind fun _ => trivial
    simp only [Proc.issues_ite]
    refine ⟨fun _ => (recoverFile_unfinishing (by decide) _ r.1).bind fun _ => ?_, fun _ => trivial⟩
    simp [Stmt.Unfinishing]
  have harchiving : (recoverStalledArchiving node).Issues (Stmt.Unfinishing f) := by
    refine fun _ => (Proc.issues_forM _ _ fun r _ => ?_).bind fun _ => trivial
    simp only [Proc.issues_ite]
    refine ⟨fun _ => (recoverFile_unfinishing (by decide) _ r.1).bind fun _ => ?_, fun _ => trivial⟩
    simp [Stmt.Unfinishing]
  simp only [checkSanityState, Proc.issues_ite]
  exact ⟨fun _ => trivial, fun _ => hjobs.bind fun _ => hfiles.bind fun _ => hdeletes.bind fun _ =>
    hhosts.bind fun _ => hstaging.bind fun _ => harchiving⟩

theorem multihopSanitySate_unfinishing : (multihopSanitySate node).Issues (Stmt.Unfinishing f) := by
  have hhop : ∀ j, (fixStuckHop j).Issues (Stmt.Unfinishing f) := by
    intro j
    simp only [fixStuckHop, Proc.bind_eq, select_bind, Proc.issues_select]
    intro db
    split <;> simp [Stmt.Unfinishing]
  simp only [multihopSanitySate, Proc.issues_ite]
  exact ⟨fun _ => trivial, fun _ _ => (Proc.issues_forM _ _ fun j _ => hhop j).bind fun _ => trivial⟩

theorem updateHeartBeatInternal_unfinishing (service : String) :
    (updateHeartBeatInternal node service).Issues (Stmt.Unfinishing f) := by
  simp only [updateHeartBeatInternal, Proc.bind_eq, beginTx_bind, execute_bind, select_bind, commit_bind,
    Proc.issues_tx, Proc.issues_update, Proc.issues_select]
  refine ⟨trivial, fun _ db => ?_⟩
  split <;> simp [Stmt.Unfinishing]

end operations

/-! ## All calls -/

/-- The call reports that the file `f` has finished: the message of the transfer, the end of the archiving, of the staging
or of the transition, or the end of a whole session reuse job. A message without ids may be for any file. -/
def Call.finishes (f : Nat) : Call → Prop
  | .updateTransferStatus _ a => a.newFileState = .finished ∧ (a.fileId = f ∨ a.jobId = "" ∨ a.fileId = 0)
  | .updateFileStatusReuse _ _ st => st = .finished
  | .updateArchivingState _ ops => ∃ op ∈ ops, op.fileId = f ∧ op.state = .finished
  | .updateStagingState _ ops => ∃ op ∈ ops, op.1.fileId = f ∧ op.1.state = .finished
  | .updateFileStateToQosTerminal _ _ f' st _ => f' = f ∧ st = .finished
  | _ => False

theorem prog_unfinishing {c : Call} {f : Nat} (hprep : c ≠ .updateTokenPrepFiles) (h : ¬ c.finishes f) :
    c.prog.Issues (Stmt.Unfinishing f) := by
  cases c with
  | updateTransferStatus node a =>
      refine (updateFileTransferStatusInternal_unfinishing fun hfin => ?_).bind fun _ => trivial
      simpa [Call.finishes, hfin] using h
  | updateJobStatus node j st =>
      exact (updateJobTransferStatusInternal_unfinishing j st).bind fun _ => trivial
  | updateFileStatusReuse node j st =>
      have hst : Stmt.Unfinishing f (.file (.updateFileStatusReuse j st node.hostname)) := h
      simp only [Call.prog, updateFileStatusReuse, Proc.bind_eq, beginTx_bind, updateFile_bind, Proc.issues_tx,
        Proc.issues_update, Proc.tx_bind, Proc.update_bind]
      refine ⟨hst, fun n => ?_⟩
      split <;> simp [Stmt.Unfinishing]
  | terminateReuseProcess j pid message force =>
      exact (terminateReuseProcess_unfinishing j pid message force).bind fun _ => trivial
  | setPidForJob j pid => exact ⟨trivial, fun _ => trivial⟩
  | forkFailed node j => exact ⟨trivial, fun _ => ⟨trivial, fun _ => trivial⟩⟩
  | setRetryTransfer node j f' n reason log timedOut =>
      exact (setRetryTransfer_unfinishing j f' n reason log timedOut).bind fun _ => trivial
  | updateFileTransferProgressVector messages =>
      refine Proc.Issues.bind ((Proc.issues_forM messages _ fun m _ => ?_).bind fun _ => trivial) fun _ => trivial
      simp [Stmt.Unfinishing]
  | getCancelJob node =>
      refine Proc.Issues.bind (fun _ => (Proc.issues_forM _ _ fun r _ => ?_).bind fun _ => trivial) fun _ => trivial
      simp [Stmt.Unfinishing]
  | cancelExpiredJobsForVo node t vo =>
      exact (cancelExpiredJobsForVo_unfinishing t vo).bind fun _ => trivial
  | updateProtocol messages =>
      refine Proc.Issues.bind ((Proc.issues_forM messages _ fun m _ => ?_).bind fun _ => trivial) fun _ => trivial
      simp [Stmt.Unfinishing]
  | transferLogFileVector messages =>
      have hlog : (storeLogFiles messages).Issues (Stmt.Unfinishing f) := by
        clear hprep h
        induction messages with
        | nil => trivial
        | cons m messages ih => exact ⟨trivial, fun _ => ih.bind fun _ => trivial⟩
      exact Proc.Issues.bind (hlog.bind fun _ => trivial) fun _ => trivial
  | backup b js => simp [Call.prog, backupBulk, Proc.ite_bind, Stmt.Unfinishing]
  | setArchivingStartTime jobs =>
      refine Proc.Issues.bind ((Proc.issues_forM jobs _ fun m _ => ?_).bind fun _ => trivial) fun _ => trivial
      simp [Stmt.Unfinishing]
  | updateArchivingState node ops =>
      refine (updateArchivingStateInternal_unfinishing fun op hop hf hst => h ?_).bind fun _ => trivial
      exact ⟨op, hop, hf, hst⟩
  | getArchivingFilesForCanceling node =>
      refine Proc.Issues.bind (fun _ => (Proc.issues_forM _ _ fun r _ => ?_).bind fun _ => trivial) fun _ => trivial
      simp [Stmt.Unfinishing]
  | updateBringOnlineToken jobs token =>
      refine Proc.Issues.bind ((Proc.issues_forM jobs _ fun m _ => ?_).bind fun _ => trivial) fun _ => trivial
      simp [Stmt.Unfinishing]
  | getAlreadyStartedStaging node => exact ⟨trivial, fun _ _ => trivial⟩
  | updateStagingState node ops =>
      refine (updateStagingStateInternal_unfinishing fun op hop hf hst => h ?_).bind fun _ => trivial
      exact ⟨op, hop, hf, hst⟩
  | getStagingFilesForCanceling node =>
      refine Proc.Issues.bind (fun _ => (Proc.issues_forM _ _ fun r _ => ?_).bind fun _ => trivial) fun _ => trivial
      simp [Stmt.Unfinishing]
  | updateDeletionsState node ops =>
      exact (updateDeletionsStateInternal_unfinishing ops).bind fun _ => trivial
  | requeueStartedDeletes node => exact ⟨trivial, fun _ => trivial⟩
  | updateFileStateToQosRequestSubmitted node j f' =>
      simp [Call.prog, updateFileStateToQosRequestSubmitted, Proc.ite_bind, Stmt.Unfinishing]
  | updateFileStateToQosTerminal node j f' st reason =>
      exact (updateFileStateToQosTerminal_unfinishing (fun hf hst => h ⟨hf, hst⟩) j reason).bind fun _ => trivial
  | failTransfersWithFailedTokenExchange node failed =>
      exact (failTransfersWithFailedTokenExchange_unfinishing failed).bind fun _ => trivial
  | updateTokenPrepFiles => exact absurd rfl hprep
  | checkSanityState node => exact checkSanityState_unfinishing.bind fun _ => trivial
  | multihopSanitySate node => exact multihopSanitySate_unfinishing.bind fun _ => trivial
  | updateHeartBeat node service =>
      exact (updateHeartBeatInternal_unfinishing service).bind fun _ => trivial
  | tick d => simp [Call.prog, Stmt.Unfinishing]

/-- A call that does not report that `f` has finished never finishes it, in any store where no file is born finished. -/
theorem prog_follows {c : Call} {f : Nat} (h : ¬ c.finishes f) :
    c.prog.Follows (unfinishedRule f) (fun _ _ => True) () := by
  by_cases hprep : c = .updateTokenPrepFiles
  · subst hprep
    exact updateTokenPrepFiles_follows.bind fun _ _ _ => trivial
  · exact (prog_unfinishing hprep h).follows fun _ hs _ => hs

end Fts3.MySql
