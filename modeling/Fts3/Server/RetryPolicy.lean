import Fts3.MySql.Lemmas.Deletions
import Fts3.MySql.Lemmas.Spares
import Fts3.MySql.Lemmas.Staging
import Fts3.Server.Redelivery
import Fts3.Sql.Retry

/-!
# The retry policy

Transfers, staging requests and deletions that fail are tried again, as often as their job or the configuration of the
server says. The limit and the number of tries so far are computed in three places.
-/

namespace Fts3.Server

open Fts3.Sql Fts3.MySql

/-- What decides how often an operation of a job is tried again. -/
structure RetryPolicy where
  retry : Option Int
  voName : String
  type : JobType
  config : List ServerConfigRow

namespace RetryPolicy

/-- The value of the configuration: that of the row which comes first. -/
def configured (P : RetryPolicy) : Int :=
  ((retryConfig P.voName P.config).bind (·.retry)).getD 0

/-- The retries of the job if it has any, else those of the configuration. -/
def limit (P : RetryPolicy) : Int :=
  if P.retry.getD 0 = 0 then P.configured else P.retry.getD 0

/-- The limit is that of the job, or the first row of the configuration is that of the VO. -/
def own (P : RetryPolicy) : Prop :=
  0 < P.retry.getD 0 ∨ P.retry.getD 0 = 0 ∧ ∃ c, P.config.find? (fun c => c.voName = some P.voName) = some c ∧
    retryConfig P.voName P.config = some c

/-- Jobs with several replicas or hops are not retried. -/
def transferLimit (P : RetryPolicy) : Int :=
  if P.type = .multipleReplica ∨ P.type = .multiHop then 0 else P.limit

end RetryPolicy

/-- The job and the configuration are as the policy says. -/
def HasPolicy (j : String) (P : RetryPolicy) (db : Db) : Prop :=
  (∃ job, db.jobs.find? j = some job ∧ job.retry = P.retry ∧ job.voName = P.voName ∧ job.type = P.type) ∧
    db.serverConfig = P.config

/-- The retries that are stored for the file of the job. -/
def fileRetry (j : String) (f : Nat) (db : Db) : Option (Option Int) :=
  ((db.files.find? f).filter fun r => r.jobId = j).map (·.retry)

def dmRetry (j : String) (f : Nat) (db : Db) : Option (Option Int) :=
  ((db.dms.find? f).filter fun r => r.jobId = j).map (·.retry)

/-! ## The three paths -/

def transferPath (j : String) (f : Nat) : RetryPath Db (Node × Message) where
  report e db := handle e.1 e.2 db
  recoverable e := e.2.jobId = j ∧ e.2.fileId = f ∧ e.2.transferStatus = .failed ∧ e.2.retry = true
  running db := db.fileState? f = some .ready ∨ db.fileState? f = some .active
  waiting db := db.fileState? f = some .submitted ∨ db.fileState? f = some .staging
  failed db := db.fileState? f = some .failed
  untouched db db' := (∀ P, HasPolicy j P db → HasPolicy j P db') ∧ fileRetry j f db' = fileRetry j f db

def stagingPath (j : String) (f : Nat) : RetryPath Db (Node × MinFileStatus FileState × Nat) where
  report e db := (storeStagingState e.1 e.2).alone db
  recoverable e := e.2.1.jobId = j ∧ e.2.1.fileId = f ∧ e.2.1.state = .failed ∧ e.2.1.retry = true
  running db := db.fileState? f = some .started
  waiting db := db.fileState? f = some .staging
  failed db := db.fileState? f = some .failed
  untouched db db' := (∀ P, HasPolicy j P db → HasPolicy j P db') ∧ fileRetry j f db' = fileRetry j f db

def deletionPath (j : String) (f : Nat) : RetryPath Db (Node × MinFileStatus DmState) where
  report e db := (storeDeletion e.1 e.2).alone db
  recoverable e := e.2.jobId = j ∧ e.2.fileId = f ∧ e.2.state = .failed ∧ e.2.retry = true
  running db := (db.dms.find? f).map (·.fileState) = some .started
  waiting db := (db.dms.find? f).map (·.fileState) = some .delete
  failed db := (db.dms.find? f).map (·.fileState) = some .failed
  untouched db db' := (∀ P, HasPolicy j P db → HasPolicy j P db') ∧ dmRetry j f db' = dmRetry j f db

section policy

variable {j : String} {f : Nat} {P : RetryPolicy} {db db' : Db}

theorem fileRetry_eq_some {n : Option Int} : fileRetry j f db = some n ↔
    ∃ r, db.files.find? f = some r ∧ r.jobId = j ∧ r.retry = n := by
  simp [fileRetry, Option.filter_eq_some_iff, and_assoc]

theorem dmRetry_eq_some {n : Option Int} : dmRetry j f db = some n ↔
    ∃ r, db.dms.find? f = some r ∧ r.jobId = j ∧ r.retry = n := by
  simp [dmRetry, Option.filter_eq_some_iff, and_assoc]

/-- What `resetForRetryStaging` and `resetForRetryDelete` take for the limit. -/
theorem jobRetries_limit (hP : HasPolicy j P db) (hown : P.own) :
    (((jobRetries j).run Stmt.exec db).1.1).getD 0 = P.limit := by
  obtain ⟨⟨job, hjob, hretry, hvo, -⟩, hconfig⟩ := hP
  simp only [jobRetries, Proc.bind_eq, select_bind, Proc.run_select, hjob, hretry, hvo]
  rcases hown with hpos | ⟨hzero, c, hfind, hfirst⟩
  · have hsome : P.retry.all (fun n => decide (n ≤ 0)) = false := by
      cases hr : P.retry with
      | none => simp [hr] at hpos
      | some n =>
          simp only [hr, Option.getD_some] at hpos
          simp [hpos]
    have hne : P.retry.getD 0 ≠ 0 := by omega
    simp [hsome, RetryPolicy.limit, hne]
  · have hnone : P.retry.all (fun n => decide (n ≤ 0)) = true := by
      cases hr : P.retry with
      | none => rfl
      | some n =>
          simp only [hr, Option.getD_some] at hzero
          simp [hzero]
    simp [hnone, RetryPolicy.limit, hzero, RetryPolicy.configured, hfirst, hconfig, hfind]

theorem retryLeft_iff {limit : Option Int} {n : Int} :
    retryLeft limit (some n) = true ↔ 0 < limit.getD 0 ∧ n ≤ limit.getD 0 - 1 := by
  cases limit with
  | none => simp [retryLeft]
  | some l => simp [retryLeft]

/-! ## Staging requests -/

theorem retriesStaging_iff {i : MinFileStatus FileState} (hP : HasPolicy i.jobId P db) (hown : P.own)
    (hretry : i.retry = true) {n : Int} (hn : fileRetry i.jobId i.fileId db = some (some n)) :
    retriesStaging i db = true ↔ 0 < P.limit ∧ n ≤ P.limit - 1 := by
  obtain ⟨r, hr, hj, hrn⟩ := fileRetry_eq_some.mp hn
  rw [retriesStaging, hretry, Bool.true_and, hr, ← jobRetries_limit hP hown]
  simp only [Option.filter, hj, decide_true, if_true, hrn]
  exact retryLeft_iff

theorem HasPolicy.congr (hP : HasPolicy j P db) (hjobs : db'.jobs = db.jobs) (hconfig : db'.serverConfig = db.serverConfig) :
    HasPolicy j P db' := by
  rw [HasPolicy, hjobs, hconfig]
  exact hP

section event

variable {node : Node} {i : MinFileStatus FileState} {n : Int} {r : FileRow} (hstate : i.state = .failed)
  (hr : db.files.find? i.fileId = some r) (hst : r.fileState = .started)

include hstate hr hst

/-- A failed request that is tried again is back in `STAGING`, with one more retry. -/
theorem stagingFailed_again (hj : r.jobId = i.jobId) (hn : r.retry = some n) (h : retriesStaging i db = true)
    (hashedId : Nat) :
    ∃ r', ((storeStagingState node (i, hashedId)).alone db).files.find? i.fileId = some r' ∧
      r'.fileState = .staging ∧ r'.jobId = i.jobId ∧ r'.retry = some (n + 1) := by
  have hid : r.fileId = i.fileId := Table.find?_some hr
  have htimes : stagingTimes i db = some n := by
    rw [stagingTimes, hr]
    simp [Option.filter, hj, hn]
  have hsel : (retryStagingUpdate i db).selects r = true := by
    simp [retryStagingUpdate, FileUpdate.selects, hid, hj, hst]
  refine ⟨(retryStagingUpdate i db).sets db.now r, ?_, rfl, hj, by simp [retryStagingUpdate, FileUpdate.sets, htimes]⟩
  rw [(storeStagingState_stores node (i, hashedId) db).1, hr, Option.map_some]
  simp [stagingUpdates, hstate, h, FileUpdate.run_cons, hsel]

theorem stagingFailed_last (h : retriesStaging i db = false) (hashedId : Nat) :
    ((storeStagingState node (i, hashedId)).alone db).fileState? i.fileId = some .failed := by
  have hid : r.fileId = i.fileId := Table.find?_some hr
  rw [Db.fileState?, (storeStagingState_stores node (i, hashedId) db).1, hr, Option.map_some, Option.map_some]
  simp [stagingUpdates, hstate, h, FileUpdate.run_cons, FileUpdate.selects, FileUpdate.sets, hid, hst]

end event

theorem staging_retries (hP : HasPolicy j P db) (hown : P.own) (hfresh : fileRetry j f db = some (some 0)) :
    (stagingPath j f).Retries db P.limit.toNat := by
  apply RetryPath.retries_of_counter (c := fun db n => HasPolicy j P db ∧ fileRetry j f db = some (some (n : Int)))
  · exact ⟨hP, hfresh⟩
  · intro db hfailed hwaiting
    simp only [stagingPath] at hfailed hwaiting
    rw [hfailed] at hwaiting
    cases hwaiting
  · intro db db' n hsame hc
    exact ⟨hsame.1 P hc.1, hsame.2.trans hc.2⟩
  · rintro db ⟨node, i, hashedId⟩ n hrunning ⟨rfl, rfl, hstate, hretry⟩ ⟨hP, hn⟩ hlt
    have hagain : retriesStaging i db = true := (retriesStaging_iff hP hown hretry hn).mpr (by omega)
    obtain ⟨r, hr, hj, hrn⟩ := fileRetry_eq_some.mp hn
    have hst : r.fileState = .started := by simpa [stagingPath, Db.fileState?, hr] using hrunning
    obtain ⟨r', hr', hst', hj', hn'⟩ := stagingFailed_again hstate hr hst hj hrn hagain hashedId
    obtain ⟨-, hjobs, hconfig, -⟩ := storeStagingState_stores node (i, hashedId) db
    refine ⟨?_, hP.congr hjobs hconfig, fileRetry_eq_some.mpr ⟨r', hr', hj', by simpa using hn'⟩⟩
    simp only [stagingPath, Db.fileState?]
    rw [hr', Option.map_some, hst']
  · rintro db ⟨node, i, hashedId⟩ n hrunning ⟨rfl, rfl, hstate, hretry⟩ ⟨hP, hn⟩ hle
    have hlast : retriesStaging i db = false := by
      rw [← Bool.not_eq_true, retriesStaging_iff hP hown hretry hn]
      omega
    obtain ⟨r, hr, -, -⟩ := fileRetry_eq_some.mp hn
    have hst : r.fileState = .started := by simpa [stagingPath, Db.fileState?, hr] using hrunning
    exact stagingFailed_last hstate hr hst hlast hashedId

/-! ## Deletions -/

theorem retriesDeletion_iff {i : MinFileStatus DmState} (hP : HasPolicy i.jobId P db) (hown : P.own)
    (hretry : i.retry = true) {n : Int} (hn : dmRetry i.jobId i.fileId db = some (some n)) :
    retriesDeletion i db = true ↔ 0 < P.limit ∧ n ≤ P.limit - 1 := by
  obtain ⟨r, hr, hj, hrn⟩ := dmRetry_eq_some.mp hn
  rw [retriesDeletion, hretry, Bool.true_and, hr, ← jobRetries_limit hP hown]
  simp only [Option.filter, hj, decide_true, if_true, hrn]
  exact retryLeft_iff

/-- What is stored is the limit plus one, so that a second retry is refused: the limit of a deletion is one at most. -/
theorem deletion_retries (hP : HasPolicy j P db) (hown : P.own) (hone : P.limit ≤ 1)
    (hfresh : dmRetry j f db = some (some 0)) : (deletionPath j f).Retries db P.limit.toNat := by
  apply RetryPath.retries_of_counter (c := fun db n => HasPolicy j P db ∧
    ∃ m, dmRetry j f db = some (some m) ∧ (n = 0 ∧ m = 0 ∨ 0 < n ∧ P.limit < m))
  · exact ⟨hP, 0, hfresh, .inl ⟨rfl, rfl⟩⟩
  · intro db hfailed hwaiting
    simp only [deletionPath] at hfailed hwaiting
    rw [hfailed] at hwaiting
    cases hwaiting
  · intro db db' n hsame hc
    obtain ⟨hP, m, hm, hn⟩ := hc
    exact ⟨hsame.1 P hP, m, hsame.2.trans hm, hn⟩
  · rintro db ⟨node, i⟩ n hrunning ⟨rfl, rfl, hstate, hretry⟩ ⟨hP, m, hm, hn⟩ hlt
    have hagain : retriesDeletion i db = true := (retriesDeletion_iff hP hown hretry hm).mpr (by omega)
    obtain ⟨r, hr, hj, -⟩ := dmRetry_eq_some.mp hm
    have hid : r.fileId = i.fileId := Table.find?_some hr
    have hst : r.fileState = .started := by simpa [deletionPath, hr] using hrunning
    have hsel : (retryDeletionUpdate i db).selects r = true := by
      simp only [retryDeletionUpdate, DmUpdate.selects, hid, hj, hst]
      split
      · decide
      · decide
    have hreport : (deletionPath i.jobId i.fileId).report (node, i) db =
        ((Stmt.dm (retryDeletionUpdate i db)).exec db).2 := by
      simp [deletionPath, storeDeletion_failed hstate, hagain]
    have hrow : ((Stmt.dm (retryDeletionUpdate i db)).exec db).2.dms.find? i.fileId =
        some ((retryDeletionUpdate i db).sets db.now r) := by
      rw [exec_dm_find?, hr, Option.map_some, if_pos hsel]
    rw [hreport]
    refine ⟨?_, hP.congr rfl rfl, P.limit + 1, dmRetry_eq_some.mpr ⟨_, hrow, hj, ?_⟩, by omega⟩
    · simp only [deletionPath, hrow, Option.map_some]
      rfl
    · simp only [retryDeletionUpdate, DmUpdate.sets, jobRetries_limit hP hown]
  · rintro db ⟨node, i⟩ n hrunning ⟨rfl, rfl, hstate, hretry⟩ ⟨hP, m, hm, hn⟩ hle
    have hlast : retriesDeletion i db = false := by
      rw [← Bool.not_eq_true, retriesDeletion_iff hP hown hretry hm]
      omega
    obtain ⟨r, hr, -, -⟩ := dmRetry_eq_some.mp hm
    have hid : r.fileId = i.fileId := Table.find?_some hr
    simp only [deletionPath, storeDeletion_failed hstate, hlast, exec_dm_find?, hr, Option.map_some]
    simp [DmUpdate.selects, DmUpdate.sets, hid]
    exact hstate

/-! ## Transfers -/

theorem configuredRetry_eq (hP : HasPolicy j P db) :
    ((configuredRetry j).run Stmt.exec db).1 = none ∧ P.limit = 0 ∨
      ∃ n, ((configuredRetry j).run Stmt.exec db).1 = some n ∧ (0 < n ∨ 0 < P.limit → n = P.limit) := by
  obtain ⟨⟨job, hjob, hretry, hvo, -⟩, hconfig⟩ := hP
  simp only [configuredRetry, Proc.bind_eq, select_bind, Proc.run_select, hjob, hretry, hvo, RetryPolicy.limit,
    RetryPolicy.configured]
  by_cases hzero : P.retry.getD 0 = 0
  · simp only [hzero, if_true, select, Proc.query, Proc.run_select, Proc.run_ret, hconfig]
    cases retryConfig P.voName P.config with
    | none => exact .inr ⟨0, rfl, fun _ => rfl⟩
    | some c =>
        cases hc : c.retry with
        | none => simp [hc]
        | some n => simp [hc]
  · simp only [hzero, if_false]
    refine .inr ⟨_, rfl, ?_⟩
    split
    · omega
    · exact fun _ => rfl

theorem retryLimit_eq (node : Node) (hP : HasPolicy j P db) :
    retryLimit node j db = none ∧ P.transferLimit ≤ 0 ∨
      ∃ n, retryLimit node j db = some n ∧ (0 < n ∨ 0 < P.transferLimit → n = P.transferLimit) := by
  have hconfigured := configuredRetry_eq hP
  obtain ⟨⟨job, hjob, -, -, htype⟩, -⟩ := hP
  simp only [retryLimit, getRetry, Proc.bind_eq, Proc.run_bind, configuredRetry_run, RetryPolicy.transferLimit]
  rcases hconfigured with ⟨hnone, hzero⟩ | ⟨n, hn, hlimit⟩
  · left
    rw [hnone]
    refine ⟨rfl, ?_⟩
    split <;> omega
  · right
    rw [hn]
    dsimp only
    by_cases hpos : 0 < n
    · simp only [hpos, if_true, select_bind, Proc.run_select, hjob, Option.map_some, Option.getD_some, htype]
      refine ⟨_, rfl, fun _ => ?_⟩
      rw [hlimit (.inl hpos)]
    · simp only [hpos, if_false]
      refine ⟨n, rfl, fun h => ?_⟩
      split at h <;> split <;> omega

theorem nextRetry_eq {node : Node} {m : Message} (hP : HasPolicy m.jobId P db) (hf : m.fileId ≠ 0)
    (hst : m.transferStatus = .failed) (hretry : m.retry = true) {n : Int}
    (hn : fileRetry m.jobId m.fileId db = some (some n)) : m.nextRetry node db =
      if 0 < P.transferLimit ∧ n ≤ P.transferLimit - 1 then some (n + 1) else none := by
  obtain ⟨r, hr, hj, hrn⟩ := fileRetry_eq_some.mp hn
  have htimes : retryTimes m.jobId m.fileId db = n := by simp [retryTimes_eq hr hj, hrn]
  have hpos : 0 < m.fileId := Nat.pos_of_ne_zero hf
  rw [Message.nextRetry, if_pos ⟨hst, hretry, hpos⟩, htimes]
  rcases retryLimit_eq node hP with ⟨hnone, hle⟩ | ⟨l, hl, hlimit⟩
  · rw [hnone, if_neg (by omega)]
    rfl
  · rw [hl, Option.bind_some]
    by_cases hgo : 0 < l ∨ 0 < P.transferLimit
    · rw [hlimit hgo]
    · rw [if_neg (by omega), if_neg (by omega)]

/-- `setRetryTransfer` on a job of any type: that of a job with session reuse is `ACTIVE` again. -/
theorem setRetryTransfer_stores {node : Node} {job : JobRow} (hjob : db.jobs.find? j = some job) (n : Int)
    (reason log : String) (timedOut : Bool) {db' : Db}
    (h : db' = (setRetryTransfer node j f n reason log timedOut).alone db) :
    db'.files = ((Stmt.file (retryUpdate job f n timedOut db.now)).exec db).2.files ∧
      db'.serverConfig = db.serverConfig ∧
      ∃ job', db'.jobs.find? j = some job' ∧ job'.retry = job.retry ∧ job'.voName = job.voName ∧
        job'.type = job.type := by
  have hid : job.jobId = j := Table.find?_some hjob
  subst h
  simp only [setRetryTransfer, Op.alone, Proc.bind_eq, select_bind, Proc.run_select, hjob, Option.bind_some,
    beginTx_bind, Proc.run_tx, retryUpdate]
  split
  · have hrow : ((Stmt.job (.setRetryTransfer j)).exec db).2.jobs.find? j = some
        (if (JobUpdate.setRetryTransfer j).selects job then { job with jobState := .active } else job) := by
      rw [exec_job_find?, hjob]
      rfl
    generalize hjob₁ : (if (JobUpdate.setRetryTransfer j).selects job then { job with jobState := .active } else job) =
      job₁ at hrow
    have hkept : job₁.retry = job.retry ∧ job₁.voName = job.voName ∧ job₁.type = job.type ∧
        job₁.bringOnline = job.bringOnline ∧ job₁.copyPinLifetime = job.copyPinLifetime := by
      rw [← hjob₁]
      split
      · exact ⟨rfl, rfl, rfl, rfl, rfl⟩
      · exact ⟨rfl, rfl, rfl, rfl, rfl⟩
    obtain ⟨hretry, hvo, htype, hbring, hpin⟩ := hkept
    simp only [updateJob_bind, Proc.run_update, Proc.run_select, hrow, hbring, hpin]
    split
    · exact ⟨by rw [hid]; rfl, rfl, job₁, hrow, hretry, hvo, htype⟩
    · exact ⟨by rw [hid]; rfl, rfl, job₁, hrow, hretry, hvo, htype⟩
  · simp only [Proc.run_select, hjob]
    split
    · exact ⟨by rw [hid]; rfl, rfl, job, hjob, rfl, rfl, rfl⟩
    · exact ⟨by rw [hid]; rfl, rfl, job, hjob, rfl, rfl, rfl⟩

/-- The transfer runs, or has failed with the others of its job. -/
def Running (f : Nat) (db : Db) : Prop :=
  ∃ r, db.files.find? f = some r ∧ (r.fileState = .ready ∨ r.fileState = .active ∨ r.fileState = .failed)

theorem terminateReuseProcess_running (hj : j ≠ "") (pid : Int) (message : String) (h : Running f db) :
    Running f ((terminateReuseProcess j pid message false).alone db) := by
  have hissues : (terminateReuseProcess j pid message false).Issues
      fun s => ∃ f', s = .file (.terminateReuseProcess f' message) := by
    simp only [terminateReuseProcess, hj, if_false, Bool.false_eq_true, Proc.bind_eq, Proc.pure_eq, Proc.ret_bind,
      select_bind, Proc.issues_select, Proc.issues_ite]
    intro db₀
    refine ⟨fun _ db₁ => ?_, fun _ => trivial⟩
    refine (Proc.issues_forM _ _ fun f' _ => ?_).bind fun _ => trivial
    exact ⟨⟨f', rfl⟩, fun _ => trivial⟩
  refine hissues.run (I := Running f) ?_ h
  rintro _ db₁ ⟨f', rfl⟩ ⟨r, hr, hst⟩
  rw [Running, exec_file_find?, hr, Option.map_some]
  refine ⟨_, rfl, ?_⟩
  split
  · exact .inr (.inr rfl)
  · exact hst

/-- Without a retry the transfer fails. -/
theorem handle_fails_running {node : Node} {m : Message} (hj : m.jobId ≠ "") (hf : m.fileId ≠ 0)
    (hst : m.transferStatus = .failed) (hnone : m.nextRetry node db = none) (h : Running m.fileId db) :
    (handle node m db).fileState? m.fileId = some .failed := by
  have hreport : ∀ db₁, Running m.fileId db₁ → ∃ r, ((updateFileTransferStatusInternal node m.status).alone db₁).files.find?
      m.fileId = some r ∧ r.fileState = .failed := by
    rintro db₁ ⟨r, hr, hrunning⟩
    rw [updateTransferStatus_eq (a := m.status) hj hf]
    by_cases hfailed : r.fileState = .failed
    · refine ⟨r, ?_, hfailed⟩
      simp [updateFileState, Op.alone, hr, hfailed, refused, Message.status]
    · have href : refused (some r.fileState) m.status.newFileState m.status.processId = false := by
        rcases hrunning with h | h | h
        · simp [refused, h, Message.status, hst]
        · simp [refused, h, Message.status, hst]
        · exact absurd h hfailed
      obtain ⟨r', hr', hst', -⟩ := updateFileState_stores node hr href (by simp [Message.status, hst])
        (by simp [Message.status, hst]) m.jobId
      exact ⟨r', hr', hst'.trans hst⟩
  have hjob : ∀ db₁, Running m.fileId db₁ → Db.fileState? (Op.alone (do
      let _ ← updateFileTransferStatusInternal node m.status
      let _ ← updateJobTransferStatusInternal node m.jobId m.transferStatus
      pure () : Op Unit) db₁) m.fileId = some .failed := by
    intro db₁ hrunning
    obtain ⟨r, hr, hfailed⟩ := hreport db₁ hrunning
    have hkept := alone_spares (updateJob_spares node m.jobId m.transferStatus) hr (by simp [hfailed])
    simp only [Op.alone, Proc.bind_eq, Proc.run_bind] at hkept ⊢
    rw [Db.fileState?, Proc.pure_eq, Proc.run_ret, hkept, Option.map_some, hfailed]
  simp only [handle, performOtherMessageDbChange, Op.alone, Proc.bind_eq, Proc.run_bind, scheduleRetry_run, hnone,
    Bool.false_eq_true, if_false]
  split
  · rw [Proc.run_bind]
    exact hjob _ (terminateReuseProcess_running hj m.processId m.transferMessage h)
  · exact hjob db h

/-- With a retry left the transfer is queued again, or staged again. -/
theorem handle_again_running {node : Node} {m : Message} {n : Int} {r : FileRow} (hP : HasPolicy m.jobId P db)
    (hnext : m.nextRetry node db = some n) (hr : db.files.find? m.fileId = some r) (hrj : r.jobId = m.jobId)
    (hst : r.fileState = .ready ∨ r.fileState = .active) : HasPolicy m.jobId P (handle node m db) ∧
      ∃ r', (handle node m db).files.find? m.fileId = some r' ∧ r'.jobId = m.jobId ∧ r'.retry = some n ∧
        (r'.fileState = .submitted ∨ r'.fileState = .staging) := by
  obtain ⟨⟨job, hjob, hretry, hvo, htype⟩, hconfig⟩ := hP
  have hid : job.jobId = m.jobId := Table.find?_some hjob
  have hhandle : handle node m db = (setRetryTransfer node m.jobId m.fileId n m.transferMessage m.logPath
      (m.errcode = etimedout)).alone db := by
    rw [handle, performOtherMessageDbChange, Proc.bind_eq, Op.alone, Proc.run_bind, scheduleRetry_run, hnext]
    rfl
  obtain ⟨hfiles, hconfig', job', hjob', hretry', hvo', htype'⟩ := setRetryTransfer_stores hjob n m.transferMessage
    m.logPath (m.errcode = etimedout) hhandle
  have hsel : (retryUpdate job m.fileId n (m.errcode = etimedout) db.now).selects r = true := by
    refine retryUpdate_selects.mpr ⟨Table.find?_some hr, hrj.trans hid.symm, ?_, ?_⟩
    · rcases hst with h | h <;> simp [h]
    · rcases hst with h | h <;> simp [h]
  obtain ⟨-, hrow⟩ := retryTimes_rescheduled hid hfiles hr hsel
  constructor
  · exact ⟨⟨job', hjob', hretry'.trans hretry, hvo'.trans hvo, htype'.trans htype⟩, hconfig'.trans hconfig⟩
  · exact ⟨_, hrow, (retryUpdate_sets r).2.1.trans hrj, (retryUpdate_sets r).1, (retryUpdate_sets r).2.2.imp_right And.left⟩

theorem transfer_retries (hj : j ≠ "") (hf : f ≠ 0) (hP : HasPolicy j P db) (hfresh : fileRetry j f db = some (some 0)) :
    (transferPath j f).Retries db P.transferLimit.toNat := by
  apply RetryPath.retries_of_counter (c := fun db n => HasPolicy j P db ∧ fileRetry j f db = some (some (n : Int)))
  · exact ⟨hP, hfresh⟩
  · intro db hfailed hwaiting
    simp only [transferPath] at hfailed hwaiting
    rw [hfailed] at hwaiting
    rcases hwaiting with h | h
    · cases h
    · cases h
  · intro db db' n hsame hc
    exact ⟨hsame.1 P hc.1, hsame.2.trans hc.2⟩
  · rintro db ⟨node, m⟩ n hrunning ⟨rfl, rfl, hst, hretry⟩ ⟨hP, hn⟩ hlt
    have hnext : m.nextRetry node db = some ((n : Int) + 1) := by
      rw [nextRetry_eq hP hf hst hretry hn, if_pos (by omega)]
    obtain ⟨r, hr, hrj, -⟩ := fileRetry_eq_some.mp hn
    have hrs : r.fileState = .ready ∨ r.fileState = .active := by simpa [transferPath, Db.fileState?, hr] using hrunning
    obtain ⟨hP', r', hr', hrj', hrn', hrs'⟩ := handle_again_running hP hnext hr hrj hrs
    refine ⟨?_, hP', fileRetry_eq_some.mpr ⟨r', hr', hrj', by simpa using hrn'⟩⟩
    simp only [transferPath, Db.fileState?, hr', Option.map_some]
    exact hrs'.imp (congrArg some) (congrArg some)
  · rintro db ⟨node, m⟩ n hrunning ⟨rfl, rfl, hst, hretry⟩ ⟨hP, hn⟩ hle
    have hnone : m.nextRetry node db = none := by
      rw [nextRetry_eq hP hf hst hretry hn, if_neg (by omega)]
    obtain ⟨r, hr, -, -⟩ := fileRetry_eq_some.mp hn
    have hrs : r.fileState = .ready ∨ r.fileState = .active := by simpa [transferPath, Db.fileState?, hr] using hrunning
    exact handle_fails_running hj hf hst hnone ⟨r, hr, hrs.imp_right .inl⟩

end policy

/-- How often an operation that keeps failing is started again. Jobs with several replicas or hops are never retried by
a transfer; a staging request and a deletion know the limit of the job and that of its VO, and a deletion has one retry. -/
theorem retry_policy (j : String) (f : Nat) (P : RetryPolicy) (db : Db) (hj : j ≠ "") (hf : f ≠ 0)
    (hP : HasPolicy j P db) :
    (fileRetry j f db = some (some 0) → (transferPath j f).Retries db P.transferLimit.toNat) ∧
    (P.own → fileRetry j f db = some (some 0) → (stagingPath j f).Retries db P.limit.toNat) ∧
    (P.own → P.limit ≤ 1 → dmRetry j f db = some (some 0) → (deletionPath j f).Retries db P.limit.toNat) := by
  refine ⟨fun hfresh => ?_, fun hown hfresh => ?_, fun hown hone hfresh => ?_⟩
  · exact transfer_retries hj hf hP hfresh
  · exact staging_retries hP hown hfresh
  · exact deletion_retries hP hown hone hfresh

def retriedDb (type : JobType) (retry : Int) : Db where
  files := .ofRows [{ fileId := 1, jobId := "j", fileState := .active, fileIndex := some 0 }]
  dms := .ofRows [{ fileId := 1, jobId := "j", fileState := .started }]
  jobs := .ofRows [{ jobId := "j", jobState := .active, jobType := some type, retry := some retry, voName := "vo" }]

def retriedPolicy (type : JobType) (retry : Int) : RetryPolicy := ⟨some retry, "vo", type, []⟩

theorem retried_hasPolicy (type : JobType) (retry : Int) : HasPolicy "j" (retriedPolicy type retry) (retriedDb type retry) :=
  ⟨⟨_, rfl, rfl, rfl, rfl⟩, rfl⟩

theorem retry_policy_once : (transferPath "j" 1).Retries (retriedDb .regular 1) 1 ∧
    (stagingPath "j" 1).Retries (retriedDb .regular 1) 1 ∧ (deletionPath "j" 1).Retries (retriedDb .regular 1) 1 ∧
    (transferPath "j" 1).Run (retriedDb .regular 1) 0 (retriedDb .regular 1) := by
  have hown : (retriedPolicy .regular 1).own := .inl (by decide)
  obtain ⟨htransfer, hstaging, hdeletion⟩ := retry_policy "j" 1 _ _ (by decide) (by decide) (retried_hasPolicy .regular 1)
  exact ⟨htransfer rfl, hstaging hown rfl, hdeletion hown (by decide) rfl, .start (.inr rfl)⟩

/-- The limit is three, and the transfer of one of several replicas fails at the first failure. -/
theorem replica_not_retried : HasPolicy "j" (retriedPolicy .multipleReplica 3) (retriedDb .multipleReplica 3) ∧
    (retriedPolicy .multipleReplica 3).limit = 3 ∧ fileRetry "j" 1 (retriedDb .multipleReplica 3) = some (some 0) ∧
    ¬(transferPath "j" 1).Retries (retriedDb .multipleReplica 3) 3 := by
  refine ⟨retried_hasPolicy _ _, rfl, rfl, fun h => ?_⟩
  have hwaiting := (h 0 _ (.start (.inr rfl)) ({ hostname := "a" }, recoverable) ⟨rfl, rfl, rfl, rfl⟩).1 (by decide)
  rcases hwaiting with hst | hst
  · exact absurd hst (by decide)
  · exact absurd hst (by decide)

end Fts3.Server
