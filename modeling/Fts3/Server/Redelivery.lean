import Fts3.MySql.Lemmas.Regular
import Fts3.Server.MessageProcessing

/-!
# Messages that are delivered twice

The server keeps the messages that it could not process and reads them again, so a status may be handled more
than once.
-/

namespace Fts3.Server

open Fts3.Sql Fts3.MySql

def handle (node : Node) (m : Message) (db : Db) : Db :=
  (performOtherMessageDbChange node m).alone db

/-- Handled once more, the message leaves `t_file` and `t_job` as they are. -/
def Idempotent (node : Node) (m : Message) (db : Db) : Prop :=
  (handle node m (handle node m db)).files = (handle node m db).files ∧
    (handle node m (handle node m db)).jobs = (handle node m db).jobs

/-! ## Retries -/

section retry

variable {node : Node} {m : Message} {db db' : Db} {job job' : JobRow}

/-- The answer of `getRetry`. -/
def retryLimit (node : Node) (j : String) (db : Db) : Option Int :=
  ((getRetry node j).run Stmt.exec db).1

theorem configuredRetry_run (j : String) : ((configuredRetry j).run Stmt.exec db).2 = db := by
  have hissues : (configuredRetry j).Issues fun _ => False := by simp [configuredRetry]
  exact hissues.run (I := (· = db)) (fun _ _ h => h.elim) rfl

theorem getRetry_run (j : String) : (getRetry node j).run Stmt.exec db = (retryLimit node j db, db) := by
  refine Prod.ext rfl ?_
  simp only [getRetry, Proc.bind_eq, Proc.run_bind, configuredRetry_run]
  cases ((configuredRetry j).run Stmt.exec db).1 with
  | none => rfl
  | some n =>
      dsimp only
      split <;> rfl

theorem configuredRetry_congr {j : String} (hconfig : db'.serverConfig = db.serverConfig)
    (hjob : db.jobs.find? j = some job) (hjob' : db'.jobs.find? j = some job') (hretry : job'.retry = job.retry)
    (hvo : job'.voName = job.voName) :
    ((configuredRetry j).run Stmt.exec db').1 = ((configuredRetry j).run Stmt.exec db).1 := by
  simp only [configuredRetry, Proc.bind_eq, select_bind, Proc.run_select, hjob, hjob', hretry, hvo]
  split
  · simp [select, Proc.query, hconfig]
  · rfl

theorem retryLimit_congr {j : String} (hconfig : db'.serverConfig = db.serverConfig)
    (hjob : db.jobs.find? j = some job) (hjob' : db'.jobs.find? j = some job') (hretry : job'.retry = job.retry)
    (hvo : job'.voName = job.voName) (hty : job'.type = job.type) : retryLimit node j db' = retryLimit node j db := by
  simp only [retryLimit, getRetry, Proc.bind_eq, Proc.run_bind, configuredRetry_run,
    configuredRetry_congr hconfig hjob hjob' hretry hvo]
  cases ((configuredRetry j).run Stmt.exec db).1 with
  | none => rfl
  | some n =>
      dsimp only
      split
      · simp [hjob, hjob', hty]
      · rfl

def retryTimes (j : String) (f : Nat) (db : Db) : Int :=
  (((db.files.find? f).filter fun r => r.jobId = j).bind (·.retry)).getD 0

/-- The retry that the message schedules, if it does. -/
def Message.nextRetry (m : Message) (node : Node) (db : Db) : Option Int :=
  if m.transferStatus = .failed ∧ m.retry = true ∧ 0 < m.fileId then
    (retryLimit node m.jobId db).bind fun retry =>
      if 0 < retry ∧ retryTimes m.jobId m.fileId db ≤ retry - 1 then some (retryTimes m.jobId m.fileId db + 1)
      else none
  else none

theorem scheduleRetry_run : (scheduleRetry node m).run Stmt.exec db =
    match m.nextRetry node db with
    | none => (false, db)
    | some n => (true, (setRetryTransfer node m.jobId m.fileId n m.transferMessage m.logPath
        (m.errcode = etimedout)).alone db) := by
  unfold scheduleRetry Message.nextRetry
  by_cases hst : m.transferStatus = .failed
  · simp only [hst, if_true, true_and, Proc.bind_eq, Proc.run_bind, getRetry_run]
    cases retryLimit node m.jobId db with
    | none => simp
    | some retry =>
        simp only [Option.bind_some, getRetryTimes, select_bind]
        by_cases hmay : m.retry = true ∧ 0 < m.fileId
        · by_cases hpos : 0 < retry
          · rw [if_pos ⟨hmay.1, hpos, hmay.2⟩, if_pos hmay, Proc.run_select]
            change Proc.run Stmt.exec (if retryTimes m.jobId m.fileId db ≤ retry - 1 then _ else _) db = _
            split
            · rename_i hle
              rw [if_pos ⟨hpos, hle⟩, Proc.run_bind]
              rfl
            · rename_i hle
              rw [if_neg fun h => hle h.2]
              rfl
          · rw [if_neg fun h => hpos h.2.1, if_pos hmay, if_neg fun h => hpos h.1]
            rfl
        · rw [if_neg fun h => hmay ⟨h.1, h.2.2⟩, if_neg hmay]
          rfl
  · simp [hst]

/-- The `UPDATE` of `setRetryTransfer`: back to the queue, or to be staged again. -/
def retryUpdate (job : JobRow) (f : Nat) (n : Int) (timedOut : Bool) (now : Nat) : FileUpdate :=
  if (0 < job.bringOnline ∨ 0 < job.copyPinLifetime) ∧ timedOut = true then .setRetryTransferStaging f job.jobId n
  else .setRetryTransfer f job.jobId n (retryTime job.retryDelay now)

theorem setRetryTransfer_alone {j : String} (hjob : db.jobs.find? j = some job) (hty : job.type = .regular) (f : Nat)
    (n : Int) (reason log : String) (timedOut : Bool) :
    ∃ row, (setRetryTransfer node j f n reason log timedOut).alone db = ((Stmt.insertRetryError row).exec
      ((Stmt.file (retryUpdate job f n timedOut db.now)).exec db).2).2 := by
  have hid : job.jobId = j := Table.find?_some hjob
  have hreuse : ¬job.jobType = some .sessionReuse := by
    intro h
    rw [JobRow.type, h] at hty
    cases hty
  simp only [setRetryTransfer, Op.alone, Proc.bind_eq, select_bind, Proc.run_select, hjob, Option.bind_some, hreuse,
    if_false, beginTx_bind, Proc.run_tx, retryUpdate]
  split
  · exact ⟨_, by rw [hid]; rfl⟩
  · exact ⟨_, by rw [hid]; rfl⟩

end retry

/-! ## A retry, scheduled twice -/

section retried

variable {node : Node} {m : Message} {db : Db} {job : JobRow} {f : Nat} {n : Int} {timedOut : Bool} {now : Nat}

/-- The transfer timed out, and its file was staged: it is to be staged again. -/
def restages (job : JobRow) (timedOut : Bool) : Prop :=
  (0 < job.bringOnline ∨ 0 < job.copyPinLifetime) ∧ timedOut = true

theorem retryUpdate_selects {r : FileRow} : (retryUpdate job f n timedOut now).selects r = true ↔
    r.fileId = f ∧ r.jobId = job.jobId ∧ r.fileState ∉ [.finished, .submitted, .failed, .canceled] ∧
      ¬(r.fileState = .staging ∧ restages job timedOut) := by
  unfold retryUpdate restages
  split
  · rename_i h
    cases hst : r.fileState <;> simp [FileUpdate.selects, hst, h]
  · rename_i h
    cases hst : r.fileState <;> simp [FileUpdate.selects, hst, h]

theorem retryUpdate_sets (r : FileRow) : ((retryUpdate job f n timedOut now).sets now r).retry = some n ∧
    ((retryUpdate job f n timedOut now).sets now r).jobId = r.jobId ∧
    (((retryUpdate job f n timedOut now).sets now r).fileState = .submitted ∨
      ((retryUpdate job f n timedOut now).sets now r).fileState = .staging ∧ restages job timedOut) := by
  unfold retryUpdate
  split
  · rename_i h
    exact ⟨rfl, rfl, .inr ⟨rfl, h⟩⟩
  · exact ⟨rfl, rfl, .inl rfl⟩

/-- A file that has been rescheduled is not rescheduled again. -/
theorem retryUpdate_settled (n' : Int) (now' : Nat) {r : FileRow}
    (hr : r ∈ ((Stmt.file (retryUpdate job f n timedOut db.now)).exec db).2.files.rows) :
    ¬(retryUpdate job f n' timedOut now').selects r = true := by
  intro hsel
  obtain ⟨r₀, -, rfl⟩ := List.mem_map.mp hr
  rw [retryUpdate_selects] at hsel
  split at hsel
  · obtain ⟨-, -, hnot, hstaging⟩ := hsel
    rcases (retryUpdate_sets r₀).2.2 with hst | hst
    · rw [hst] at hnot
      simp at hnot
    · exact hstaging hst
  · rename_i hsel₀
    exact hsel₀ (retryUpdate_selects.mpr hsel)

theorem handle_of_retry (hjob : db.jobs.find? m.jobId = some job) (hty : job.type = .regular)
    (hn : m.nextRetry node db = some n) : ∃ row, handle node m db = ((Stmt.insertRetryError row).exec
      ((Stmt.file (retryUpdate job m.fileId n (m.errcode = etimedout) db.now)).exec db).2).2 := by
  rw [handle, performOtherMessageDbChange, Proc.bind_eq, Op.alone, Proc.run_bind, scheduleRetry_run, hn]
  exact setRetryTransfer_alone hjob hty _ _ _ _ _

theorem nextRetry_some (hn : m.nextRetry node db = some n) :
    (m.transferStatus = .failed ∧ m.retry = true ∧ 0 < m.fileId) ∧ ∃ retry, retryLimit node m.jobId db = some retry ∧
      0 < retry ∧ retryTimes m.jobId m.fileId db ≤ retry - 1 ∧ n = retryTimes m.jobId m.fileId db + 1 := by
  unfold Message.nextRetry at hn
  split at hn
  · rename_i hmay
    obtain ⟨retry, hlimit, hn⟩ := Option.bind_eq_some_iff.mp hn
    split at hn
    · rename_i hle
      exact ⟨hmay, retry, hlimit, hle.1, hle.2, (Option.some.inj hn).symm⟩
    · cases hn
  · cases hn

/-- The message takes the last retry: the file has one left, and is in a state from which it is rescheduled. -/
def Message.TakesLastRetry (m : Message) (node : Node) (job : JobRow) (db : Db) : Prop :=
  m.transferStatus = .failed ∧ m.retry = true ∧ ∃ retry, retryLimit node m.jobId db = some retry ∧ 0 < retry ∧
    ∃ r, db.files.find? m.fileId = some r ∧ r.jobId = m.jobId ∧ r.retry.getD 0 = retry - 1 ∧
      r.fileState ∉ [.finished, .submitted, .failed, .canceled] ∧
      ¬(r.fileState = .staging ∧ restages job (m.errcode = etimedout))

theorem retryTimes_eq {j : String} {r : FileRow} (hr : db.files.find? f = some r) (hj : r.jobId = j) :
    retryTimes j f db = r.retry.getD 0 := by
  simp [retryTimes, hr, Option.filter, hj]

theorem retryTimes_rescheduled {db₁ : Db} {j : String} (hid : job.jobId = j)
    (hfiles : db₁.files = ((Stmt.file (retryUpdate job f n timedOut db.now)).exec db).2.files) {r : FileRow}
    (hr : db.files.find? f = some r) (hsel : (retryUpdate job f n timedOut db.now).selects r = true) :
    retryTimes j f db₁ = n ∧
      db₁.files.find? f = some ((retryUpdate job f n timedOut db.now).sets db.now r) := by
  have hfind : db₁.files.find? f = some ((retryUpdate job f n timedOut db.now).sets db.now r) := by
    rw [hfiles, exec_file_find?, hr, Option.map_some, if_pos hsel]
  have hj : r.jobId = j := (retryUpdate_selects.mp hsel).2.1.trans hid
  refine ⟨?_, hfind⟩
  rw [retryTimes_eq hfind ((retryUpdate_sets r).2.1.trans hj), (retryUpdate_sets r).1]
  rfl

theorem retryTimes_of_unmatched {db₁ : Db} {j : String}
    (hfiles : db₁.files = ((Stmt.file (retryUpdate job f n timedOut db.now)).exec db).2.files)
    (hno : ∀ r, db.files.find? f = some r → ¬(retryUpdate job f n timedOut db.now).selects r = true) :
    retryTimes j f db₁ = retryTimes j f db := by
  have hfind : db₁.files.find? f = db.files.find? f := by
    rw [hfiles, exec_file_find?]
    cases hr : db.files.find? f with
    | none => rfl
    | some r => rw [Option.map_some, if_neg (hno r hr)]
  rw [retryTimes, hfind]
  rfl

theorem nextRetry_after (hjob : db.jobs.find? m.jobId = some job) (hn : m.nextRetry node db = some n)
    {db₁ : Db} (hjobs : db₁.jobs = db.jobs)
    (hconfig : db₁.serverConfig = db.serverConfig) (hfiles : db₁.files =
      ((Stmt.file (retryUpdate job m.fileId n (m.errcode = etimedout) db.now)).exec db).2.files) :
    m.nextRetry node db₁ = none ↔ m.TakesLastRetry node job db := by
  have hid : job.jobId = m.jobId := Table.find?_some hjob
  obtain ⟨hmay, retry, hlimit, hpos, hle, hn'⟩ := nextRetry_some hn
  have hjob₁ : db₁.jobs.find? m.jobId = some job := by rw [hjobs]; exact hjob
  have hlimit₁ : retryLimit node m.jobId db₁ = some retry := by
    rw [← hlimit]
    exact retryLimit_congr hconfig hjob hjob₁ rfl rfl rfl
  have hnext : m.nextRetry node db₁ = none ↔ ¬retryTimes m.jobId m.fileId db₁ ≤ retry - 1 := by
    simp [Message.nextRetry, hmay, hlimit₁, hpos]
  rw [hnext]
  by_cases hsel : ∃ r, db.files.find? m.fileId = some r ∧
      (retryUpdate job m.fileId n (m.errcode = etimedout) db.now).selects r = true
  · obtain ⟨r, hr, hsel⟩ := hsel
    obtain ⟨-, hrj, hnot, hstaging⟩ := retryUpdate_selects.mp hsel
    have htimes := retryTimes_eq hr (hrj.trans hid)
    rw [(retryTimes_rescheduled hid hfiles hr hsel).1]
    constructor
    · intro hlast
      exact ⟨hmay.1, hmay.2.1, retry, hlimit, hpos, r, hr, hrj.trans hid, by omega, hnot, hstaging⟩
    · rintro ⟨-, -, retry', hlimit', -, r', hr', -, hlast, -⟩
      rw [hlimit] at hlimit'
      rw [hr] at hr'
      obtain rfl := Option.some.inj hlimit'
      obtain rfl := Option.some.inj hr'
      omega
  · rw [retryTimes_of_unmatched hfiles fun r hr h => hsel ⟨r, hr, h⟩]
    refine ⟨fun h => absurd hle h, ?_⟩
    rintro ⟨-, -, -, -, -, r, hr, hrj, -, hnot, hstaging⟩
    exact absurd ⟨r, hr, retryUpdate_selects.mpr ⟨Table.find?_some hr, hrj.trans hid.symm, hnot, hstaging⟩⟩ hsel

end retried

/-! ## A status, handled twice -/

section twice

variable {node : Node} {m : Message} {db : Db} {job : JobRow} (hj : m.jobId ≠ "") (hf : m.fileId ≠ 0)
  (hjob : db.jobs.find? m.jobId = some job) (hty : job.type = .regular)

include hj hjob hty

theorem terminateReuseProcess_alone (pid : Int) (message : String) :
    (terminateReuseProcess m.jobId pid message false).alone db = db := by
  have hreuse : (decide (job.jobType = some .sessionReuse) || decide (job.jobType = some .multiHop)) = false := by
    rw [JobRow.type] at hty
    cases hjt : job.jobType with
    | none => rfl
    | some ty =>
        rw [hjt, Option.getD_some] at hty
        rw [hty]
        rfl
  simp [terminateReuseProcess, Op.alone, hj, hjob, hreuse]

theorem handle_of_no_retry (hnone : m.nextRetry node db = none) : handle node m db =
    (updateJobTransferStatusInternal node m.jobId m.transferStatus).alone
      ((updateFileTransferStatusInternal node m.status).alone db) := by
  have hterminate := terminateReuseProcess_alone hj hjob hty m.processId m.transferMessage
  rw [Op.alone] at hterminate
  simp only [handle, performOtherMessageDbChange, Op.alone, Proc.bind_eq, Proc.run_bind, scheduleRetry_run, hnone,
    Bool.false_eq_true, if_false]
  split
  · simp only [Proc.run_bind, hterminate]
    rfl
  · simp only [Proc.run_bind]
    rfl

include hf

theorem updateTransferStatus_jobs : ((updateFileTransferStatusInternal node m.status).alone db).jobs = db.jobs := by
  rw [updateTransferStatus_alone hj hf hjob hty]
  split <;> rfl

theorem handle_files (hst : m.transferStatus = .finished ∨ m.transferStatus = .failed ∨ m.transferStatus = .canceled)
    (hnone : m.nextRetry node db = none) :
    (handle node m db).files = ((updateFileTransferStatusInternal node m.status).alone db).files := by
  have hjob₁ : ((updateFileTransferStatusInternal node m.status).alone db).jobs.find? m.jobId = some job := by
    rw [updateTransferStatus_jobs hj hf hjob hty]
    exact hjob
  rw [handle_of_no_retry hj hjob hty hnone, updateJob_alone_regular hst hjob₁ hty, storeJobUpdate_eq]

/-- Without a retry left, a file that is queued or staged fails. -/
theorem handle_fails (hst : m.transferStatus = .failed) (hnone : m.nextRetry node db = none) {r : FileRow}
    (hr : db.files.find? m.fileId = some r) (hstate : r.fileState = .submitted ∨ r.fileState = .staging) :
    (handle node m db).files ≠ db.files := by
  have href : ¬refused (db.fileState? m.fileId) m.transferStatus m.processId = true := by
    rcases hstate with h | h <;> simp [Db.fileState?, hr, h, hst, refused]
  rw [handle_files hj hf hjob hty (.inr (.inl hst)) hnone, updateTransferStatus_alone hj hf hjob hty]
  have href' : ¬refused (db.fileState? m.status.fileId) m.status.newFileState m.status.processId = true := href
  rw [if_neg href']
  intro heq
  have hfind := congrArg (fun t : Table FileRow.fileId => (t.find? m.fileId).map (·.fileState)) heq
  have hid : r.fileId = m.fileId := Table.find?_some hr
  have hsel : (FileUpdate.updateFileTransferStatus (statusUpdate node m.status job db)).selects r = true := by
    simp [FileUpdate.selects, statusUpdate, TransferStatus.update, Message.status, hid, Db.fileState?, hr]
  have hnew : ((FileUpdate.updateFileTransferStatus (statusUpdate node m.status job db)).sets db.now r).fileState = .failed := by
    simp [FileUpdate.sets, StatusUpdate.sets, statusUpdate, TransferStatus.update, Message.status, archives, hst]
  simp only [exec_file_find?, hr, Option.map_some, if_pos hsel, hnew, Option.some.injEq] at hfind
  rcases hstate with h | h
  · rw [h] at hfind
    cases hfind
  · rw [h] at hfind
    cases hfind

/-- The retry of the message is scheduled again, without effect, or it was the last one and the file that has just
been rescheduled fails. -/
theorem idempotent_of_retry {n : Int} (hn : m.nextRetry node db = some n) :
    Idempotent node m db ↔ ¬m.TakesLastRetry node job db := by
  obtain ⟨row, hdb₁⟩ := handle_of_retry hjob hty hn
  unfold Idempotent
  generalize handle node m db = db₁ at hdb₁ ⊢
  have hjobs : db₁.jobs = db.jobs := by rw [hdb₁]; rfl
  have hjob₁ : db₁.jobs.find? m.jobId = some job := by rw [hjobs]; exact hjob
  have hfiles : db₁.files =
      ((Stmt.file (retryUpdate job m.fileId n (m.errcode = etimedout) db.now)).exec db).2.files := by rw [hdb₁]; rfl
  have hlast := nextRetry_after hjob hn hjobs (by rw [hdb₁]; rfl) hfiles
  rw [← hlast]
  cases hn₁ : m.nextRetry node db₁ with
  | none =>
      refine iff_of_false (fun h => ?_) (by simp)
      obtain ⟨hst, -, -, -, -, r, hr, hrj, -, hnot, hstaging⟩ := hlast.mp hn₁
      have hid : job.jobId = m.jobId := Table.find?_some hjob
      have hsel : (retryUpdate job m.fileId n (m.errcode = etimedout) db.now).selects r = true :=
        retryUpdate_selects.mpr ⟨Table.find?_some hr, hrj.trans hid.symm, hnot, hstaging⟩
      have hrow := (retryTimes_rescheduled hid hfiles hr hsel).2
      refine handle_fails hj hf hjob₁ hty hst hn₁ hrow ?_ h.1
      exact (retryUpdate_sets r).2.2.imp_right And.left
  | some n' =>
      refine iff_of_true ?_ (by simp)
      obtain ⟨row', hdb₂⟩ := handle_of_retry hjob₁ hty hn₁
      rw [hdb₂]
      refine ⟨exec_file_eq_self fun r hr hsel => ?_, rfl⟩
      rw [hfiles] at hr
      exact absurd hsel (retryUpdate_settled n' db₁.now hr)

theorem updateTransferStatus_retryTimes :
    retryTimes m.jobId m.fileId ((updateFileTransferStatusInternal node m.status).alone db) =
      retryTimes m.jobId m.fileId db := by
  rw [updateTransferStatus_alone hj hf hjob hty]
  split
  · rfl
  · have hkept : ∀ r : FileRow, ((statusUpdate node m.status job db).sets r).jobId = r.jobId ∧
        ((statusUpdate node m.status job db).sets r).retry = r.retry := fun _ => ⟨rfl, rfl⟩
    rw [retryTimes, retryTimes, exec_file_find?]
    cases db.files.find? m.fileId with
    | none => rfl
    | some r =>
        by_cases hsel : (FileUpdate.updateFileTransferStatus (statusUpdate node m.status job db)).selects r = true
        · simp [Option.filter, hsel, FileUpdate.sets, hkept]
          split <;> simp [hkept]
        · simp [hsel]

theorem updateTransferStatus_frame :
    ((updateFileTransferStatusInternal node m.status).alone db).serverConfig = db.serverConfig ∧
      ((updateFileTransferStatusInternal node m.status).alone db).now = db.now := by
  rw [updateTransferStatus_alone hj hf hjob hty]
  split <;> exact ⟨rfl, rfl⟩

/-- Without a retry the file has its status, and the job once it has left `STAGING`. -/
theorem idempotent_of_no_retry
    (hst : m.transferStatus = .finished ∨ m.transferStatus = .failed ∨ m.transferStatus = .canceled)
    (hnone : m.nextRetry node db = none) : Idempotent node m db ↔
      ¬LeavesStaging job m.transferStatus (reportedRows m.status job (db.filesOf m.jobId)) := by
  have hcounted : (((updateFileTransferStatusInternal node m.status).alone db).filesOf m.jobId).map FileRow.counted =
      (reportedRows m.status job (db.filesOf m.jobId)).map FileRow.counted :=
    updateTransferStatus_counted hj hf hjob hty m.jobId
  have htimes : retryTimes m.jobId m.fileId ((updateFileTransferStatusInternal node m.status).alone db) =
      retryTimes m.jobId m.fileId db := updateTransferStatus_retryTimes hj hf hjob hty
  have hframe : ((updateFileTransferStatusInternal node m.status).alone db).serverConfig = db.serverConfig ∧
      ((updateFileTransferStatusInternal node m.status).alone db).now = db.now :=
    updateTransferStatus_frame hj hf hjob hty
  have hjob₁ : ((updateFileTransferStatusInternal node m.status).alone db).jobs.find? m.jobId = some job := by
    rw [updateTransferStatus_jobs hj hf hjob hty]
    exact hjob
  have hagain : ∀ db₂ job₂, db₂.now = db.now →
      db₂.files = ((updateFileTransferStatusInternal node m.status).alone db).files →
      db₂.jobs.find? m.jobId = some job₂ → job₂.type = .regular → job₂.archiveTimeout = job.archiveTimeout →
      (updateFileTransferStatusInternal node m.status).alone db₂ = db₂ := fun _ _ hnow hfiles hjob₂ hty₂ harch =>
    updateTransferStatus_again hj hf hst hjob hty hnow hfiles hjob₂ hty₂ harch
  have hdb₂ := handle_of_no_retry hj hjob hty hnone
  rw [updateJob_alone_regular hst hjob₁ hty] at hdb₂
  rw [Idempotent, hdb₂, ← leavesStaging_counted hcounted]
  generalize (updateFileTransferStatusInternal node m.status).alone db = db₁ at hframe htimes hjob₁ hagain ⊢
  obtain ⟨job₂, hjob₂, hiff⟩ := storeJobUpdate_again hst hjob₁
  obtain ⟨hty₂, harch₂, hretry₂, hvo₂⟩ := storeJobUpdate_columns hjob₁ hjob₂
  have heq := storeJobUpdate_eq (jobUpdate? job m.transferStatus (db₁.filesOf m.jobId)) db₁
  rw [← hiff]
  generalize storeJobUpdate (jobUpdate? job m.transferStatus (db₁.filesOf m.jobId)) db₁ = db₂ at heq hjob₂ ⊢
  have hfiles₂ : db₂.files = db₁.files := by rw [heq]
  have hconfig₂ : db₂.serverConfig = db.serverConfig := by rw [heq, ← hframe.1]
  have hnow₂ : db₂.now = db.now := by rw [heq, ← hframe.2]
  have hnone₂ : m.nextRetry node db₂ = none := by
    have hlimit : retryLimit node m.jobId db₂ = retryLimit node m.jobId db :=
      retryLimit_congr hconfig₂ hjob hjob₂ hretry₂ hvo₂ hty₂
    have htimes₂ : retryTimes m.jobId m.fileId db₂ = retryTimes m.jobId m.fileId db := by
      rw [← htimes, retryTimes, hfiles₂]
      rfl
    rw [← hnone, Message.nextRetry, Message.nextRetry, hlimit, htimes₂]
  have hhandle : handle node m db₂ = storeJobUpdate (jobUpdate? job₂ m.transferStatus (db₁.filesOf m.jobId)) db₂ := by
    rw [handle_of_no_retry hj hjob₂ (hty₂.trans hty) hnone₂, hagain db₂ job₂ hnow₂ hfiles₂
      hjob₂ (hty₂.trans hty) harch₂, updateJob_alone_regular hst hjob₂ (hty₂.trans hty), Db.filesOf, hfiles₂]
    rfl
  have hfiles : (handle node m db₂).files = db₂.files := by rw [hhandle, storeJobUpdate_eq]
  rw [← hhandle]
  exact ⟨And.right, fun h => ⟨hfiles, h⟩⟩

end twice

/-- A status of a regular job may be handled twice exactly when it does not take the last retry of its file and,
without a retry, does not take its job out of `STAGING` on the way to `ARCHIVING`. -/
theorem status_message_idempotent (node : Node) (m : Message) (db : Db) (job : JobRow) (hj : m.jobId ≠ "")
    (hf : m.fileId ≠ 0) (hjob : db.jobs.find? m.jobId = some job) (hty : job.type = .regular)
    (hst : m.transferStatus = .finished ∨ m.transferStatus = .failed ∨ m.transferStatus = .canceled) :
    Idempotent node m db ↔ ¬m.TakesLastRetry node job db ∧
      ¬(m.nextRetry node db = none ∧
        LeavesStaging job m.transferStatus (reportedRows m.status job (db.filesOf m.jobId))) := by
  cases hn : m.nextRetry node db with
  | none =>
      rw [idempotent_of_no_retry hj hf hjob hty hst hn]
      have hlast : ¬m.TakesLastRetry node job db := by
        rintro ⟨hfail, hretry, retry, hlimit, hpos, r, hr, hrj, htimes, -⟩
        rw [← retryTimes_eq hr hrj] at htimes
        have hf : 0 < m.fileId := Nat.pos_of_ne_zero hf
        simp [Message.nextRetry, hfail, hretry, hf, hlimit, hpos, htimes] at hn
      simp [hlast]
  | some n =>
      rw [idempotent_of_retry hj hf hjob hty hn]
      simp

def runningDb (retry : Int) : Db where
  files := .ofRows [{ fileId := 1, jobId := "j", fileState := .active, fileIndex := some 0, retry := some 0 }]
  jobs := .ofRows [{ jobId := "j", jobState := .active, jobType := some .regular, retry := some retry }]

/-- The transfer has failed and may be tried again. -/
def recoverable : Message where
  jobId := "j"
  fileId := 1
  transferStatus := .failed
  retry := true

theorem status_message_idempotent_recoverable :
    Idempotent { hostname := "a" } recoverable (runningDb 2) ∧
    (handle { hostname := "a" } recoverable (runningDb 2)).fileState? 1 = some .submitted := by
  refine ⟨(status_message_idempotent { hostname := "a" } recoverable (runningDb 2) _ (by decide) (by decide) rfl rfl
    (.inr (.inl rfl))).mpr ⟨?_, fun h => ?_⟩, by decide⟩
  · rintro ⟨-, -, retry, hlimit, -, r, hr, -, hlast, -⟩
    obtain rfl : 2 = retry := Option.some.inj hlimit
    obtain rfl := Option.some.inj hr
    cases hlast
  · cases h.1

/-- The file is rescheduled, and fails when the message is handled once more. -/
theorem not_idempotent_lastRetry : ¬Idempotent { hostname := "a" } recoverable (runningDb 1) := by
  intro h
  have hstate := congrArg (fun t : Table FileRow.fileId => (t.find? 1).map (·.fileState)) h.1
  have hfirst : (handle { hostname := "a" } recoverable (runningDb 1)).fileState? 1 = some .submitted := by decide
  have hsecond : (handle { hostname := "a" } recoverable (handle { hostname := "a" } recoverable (runningDb 1))).fileState? 1 =
      some .failed := by decide
  exact absurd (hsecond.symm.trans (hstate.trans hfirst)) (by decide)

end Fts3.Server
