import Fts3.MySql.Lemmas.Issued

/-!
# What the statements write

The state that each `UPDATE` stores, the rows it is kept from by its `WHERE` clause, and what it leaves
alone.
-/

namespace Fts3.MySql

open Fts3.Sql

/-! ## `t_file` -/

namespace FileUpdate

def writes? : FileUpdate → Option FileState
  | useFileReplica _ _ _ | useNextHop _ | setRetryTransfer _ _ _ _ | stagingSubmitted _ _ => some .submitted
  | updateFileStatusReuse _ st _ => some st
  | updateFileTransferStatus a => some a.newState
  | cancelUnusedMultihopFiles _ | cancelExpiredJobs _ _ _ => some .canceled
  | terminateReuseProcess _ _ | forkFailed _ _ | fixJobTerminalFileNonTerminal _ => some .failed
  | setRetryTransferStaging _ _ _ | getAlreadyStartedStaging _ _ | resetForRetryStaging _ _ _ _ => some .staging
  | updateArchivingState _ st _ => some st
  | updateFileStateToQosRequestSubmitted _ _ _ => some .qosRequestSubmitted
  | updateFileStateToQosTerminal _ st _ _ _ _ => some st
  | stagingStarted _ _ => some .started
  | stagingTerminal _ st _ => some st
  | updateTokenPrepFiles _ st => some st
  | fixMultireplicaFinished _ => some .notUsed
  | fixFilesInNotUsedState _ _ => some .submitted
  | setNullDestSURLMultiHop _ | updateFileTransferProgress _ _ _ | getCancelJob _ | setPidForJob _ _
  | updateProtocol _ _ _ | transferLogFile _ _ _ | setArchivingStartTime _ _ | updateBringOnlineToken _ _ _
  | qosTerminalReason _ _ | getArchivingFilesForCanceling _ | getStagingFilesForCanceling _
  | recoverStalledStaging _ | recoverStalledArchiving _ => none

theorem sets_fileState (u : FileUpdate) (now : Nat) (r : FileRow) :
    (u.sets now r).fileState = u.writes?.getD r.fileState := by
  cases u <;> rfl

theorem sets_jobId (u : FileUpdate) (now : Nat) (r : FileRow) : (u.sets now r).jobId = r.jobId := by
  cases u <;> rfl

theorem sets_fileIndex (u : FileUpdate) (now : Nat) (r : FileRow) :
    (u.sets now r).fileIndex = r.fileIndex := by
  cases u <;> rfl

theorem sets_link (u : FileUpdate) (now : Nat) (r : FileRow) :
    (u.sets now r).sourceSe = r.sourceSe ∧ (u.sets now r).destSe = r.destSe := by
  cases u <;> exact ⟨rfl, rfl⟩

def unguarded : FileUpdate → Bool
  | terminateReuseProcess _ _ | updateArchivingState _ _ _ | updateFileStateToQosRequestSubmitted _ _ _
  | updateFileStateToQosTerminal _ _ _ _ _ _ | fixFilesInNotUsedState _ _ => true
  | _ => false

end FileUpdate

theorem not_refused_terminal {old : Option FileState} {new : FileState} {pid : Int} {st : FileState}
    (h : refused old new pid = false) (hold : some st = old) : st.terminal = false := by
  subst hold
  cases st <;> simp [refused] at h ⊢ <;> rfl

theorem FileUpdate.selects_not_terminal {u : FileUpdate} {st : FileState} {r : FileRow}
    (hi : Stmt.Issued (.file u)) (hw : u.writes? = some st) (hg : u.unguarded = false)
    (hsel : u.selects r = true) : r.fileState.terminal = false := by
  cases u with
  | updateFileTransferStatus a =>
      simp only [selects, Bool.and_eq_true, decide_eq_true_eq] at hsel
      exact not_refused_terminal hi.1 hsel.2
  | cancelExpiredJobs j reason multihop =>
      simp only [selects, Bool.and_eq_true, decide_eq_true_eq] at hsel
      cases multihop <;> cases hr : r.fileState <;> simp [hr, cancelFileStates] at hsel ⊢ <;> rfl
  | _ =>
      first
        | (simp only [writes?, reduceCtorEq] at hw; done)
        | (simp only [unguarded, reduceCtorEq] at hg; done)
        | (cases hr : r.fileState <;> simp [selects, hr] at hsel ⊢ <;> rfl)

/-! ## `t_job` -/

namespace JobUpdate

def writes : JobUpdate → JobState
  | updateFileStatusReuse _ st | terminate _ st _ _ | activate _ st | setState _ st => st
  | setArchiving _ => .archiving
  | forkFailed _ => .failed
  | setRetryTransfer _ => .active
  | deletionsTerminal _ st _ => st
  | deletionsActive _ => .active
  | updateFileStateToQosTerminal _ st _ => st
  | fixEmptyJob _ => .canceled
  | fixNonTerminalJob _ st _ => st
  | fixMultireplicaFinished _ => .finished
  | fixMultireplicaFailed _ => .failed

def stamps : JobUpdate → Bool
  | terminate _ _ _ _ | forkFailed _ | deletionsTerminal _ _ _ | updateFileStateToQosTerminal _ _ _
  | fixEmptyJob _ | fixNonTerminalJob _ _ _ | fixMultireplicaFinished _ | fixMultireplicaFailed _ => true
  | _ => false

theorem sets_jobState (u : JobUpdate) (now : Nat) (r : JobRow) : (u.sets now r).jobState = u.writes := by
  cases u <;> rfl

theorem sets_jobFinished (u : JobUpdate) (now : Nat) (r : JobRow) :
    (u.sets now r).jobFinished.isSome = (u.stamps || r.jobFinished.isSome) := by
  cases u <;> simp [sets, stamps]

theorem sets_jobFinished_of_not_stamps {u : JobUpdate} (h : u.stamps = false) (now : Nat) (r : JobRow) :
    (u.sets now r).jobFinished = r.jobFinished := by
  cases u <;> first | rfl | cases h

theorem sets_jobType (u : JobUpdate) (now : Nat) (r : JobRow) : (u.sets now r).jobType = r.jobType := by
  cases u <;> rfl

def unguarded : JobUpdate → Bool
  | forkFailed _ | deletionsTerminal _ _ _ | deletionsActive _ | updateFileStateToQosTerminal _ _ _
  | fixEmptyJob _ | fixNonTerminalJob _ _ _ | fixMultireplicaFinished _ | fixMultireplicaFailed _ => true
  | _ => false

theorem selects_not_terminal {u : JobUpdate} {r : JobRow} (hg : u.unguarded = false)
    (hsel : u.selects r = true) : r.jobState.terminal = false := by
  cases u with
  | _ =>
      first
        | (simp only [unguarded, reduceCtorEq] at hg; done)
        | (cases hr : r.jobState <;> simp [selects, hr] at hsel ⊢ <;> rfl)

/-- A statement that stores `job_finished` stores a terminal state with it. -/
theorem writes_terminal_of_stamps {u : JobUpdate} (hi : Stmt.Issued (.job u)) (h : u.stamps = true) :
    u.writes.terminal = true := by
  cases u with
  | terminate j st reason se => exact hi
  | deletionsTerminal j st reason => exact hi
  | updateFileStateToQosTerminal j st t => exact hi
  | fixNonTerminalJob j st reason => exact hi
  | _ => first | rfl | cases h

end JobUpdate

/-- An `UPDATE` that does not change the state of a terminal row. -/
def Stmt.Guarded : Stmt → Prop
  | .file u => Stmt.Issued (.file u) ∧ u.unguarded = false
  | .job u => u.unguarded = false
  | _ => False

/-! ## The rest of the database -/

theorem mem_filesOf {j : String} {db : Db} {r : FileRow} :
    r ∈ db.filesOf j ↔ db.files.find? r.fileId = some r ∧ r.jobId = j := by
  simp [Db.filesOf, Table.select, Table.find?_eq_some_iff]

theorem eq_of_mem_filesOf {j j' : String} {db : Db} {r r' : FileRow} (hr : r ∈ db.filesOf j)
    (hr' : r' ∈ db.filesOf j') (hid : r.fileId = r'.fileId) : r = r' := by
  have hfind := (mem_filesOf.mp hr).1
  rw [hid, (mem_filesOf.mp hr').1] at hfind
  exact (Option.some.inj hfind).symm

@[simp] theorem exec_file_jobs (u : FileUpdate) (db : Db) : ((Stmt.file u).exec db).2.jobs = db.jobs := rfl

@[simp] theorem exec_job_filesOf (u : JobUpdate) (db : Db) (j : String) :
    ((Stmt.job u).exec db).2.filesOf j = db.filesOf j := rfl

theorem exec_file_filesOf (u : FileUpdate) (db : Db) (j : String) :
    ((Stmt.file u).exec db).2.filesOf j =
      (db.filesOf j).map fun r => if u.selects r then u.sets db.now r else r :=
  Table.select_update (u.sets_fileId db.now) fun r => by rw [u.sets_jobId]

theorem exec_file_find? (u : FileUpdate) (db : Db) (f : Nat) :
    ((Stmt.file u).exec db).2.files.find? f =
      (db.files.find? f).map fun r => if u.selects r then u.sets db.now r else r :=
  Table.find?_update _ _ _ (u.sets_fileId db.now) f

/-- An `UPDATE` that changes none of the rows that it selects. -/
theorem exec_file_eq_self {u : FileUpdate} {db : Db} (h : ∀ r ∈ db.files.rows, u.selects r = true → u.sets db.now r = r) :
    ((Stmt.file u).exec db).2.files = db.files :=
  Table.update_eq_self (u.sets_fileId db.now) h

theorem exec_job_eq_self {u : JobUpdate} {db : Db} (h : ∀ r ∈ db.jobs.rows, u.selects r = true → u.sets db.now r = r) :
    ((Stmt.job u).exec db).2.jobs = db.jobs :=
  Table.update_eq_self (u.sets_jobId db.now) h

theorem exec_job_find? (u : JobUpdate) (db : Db) (j : String) :
    ((Stmt.job u).exec db).2.jobs.find? j =
      (db.jobs.find? j).map fun r => if u.selects r then u.sets db.now r else r :=
  Table.find?_update _ _ _ (u.sets_jobId db.now) j

end Fts3.MySql
