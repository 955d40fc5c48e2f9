import Fts3.Sql.Exceptions
import Fts3.MySql.Api
import Fts3.MySql.Fetching
import Fts3.MySql.Optimizer
import Fts3.MySql.Backup

/-!
# Transactions and exceptions

Every operation that begins a transaction runs on a session of the connection pool, which goes back to the pool as it is.
-/

namespace Fts3.MySql

open Fts3.Sql

/-! ## The operations and their handlers -/

/-- Statements whose exceptions leave as they are. -/
def unguarded {β : Type} (op : Op β) : Action Db β := op.action Stmt.exec

/-- `catch (...) { sql.rollback(); throw ...; }`. -/
def guarded {β : Type} (op : Op β) : Action Db β := (op.action Stmt.exec).rollingBack

/-- The operations of `MySqlAPI` and of the optimizer's data source that begin a transaction. -/
inductive Operation where
  | call (c : Call)
  | getFilesForDeletion (node : Node) (messages : List (MinFileStatus DmState))
  | backup (node : Node) (intervalDays bulkSize : Int) (doBackup : Bool) (left : Nat)
  | storeExchangedTokens (exchangedTokens : List ExchangedToken)
  | markFailedTokenExchange (failedExchanges : List (String × String))
  | storeOptimizerDecision (pair : Pair) (activeDecision : Int) (newState : PairState) (diff : Int) (rationale : String)
  | storeOptimizerStreams (pair : Pair) (streams : Int)

/-- The handler that an exception in a transaction meets first rolls back, except in `updateTokenPrepFiles`.
`terminateReuseProcess` returns then, the others throw. Without a transaction `ROLLBACK` does nothing. -/
def Call.action : Call → Action Db Unit
  | .updateTokenPrepFiles => unguarded MySql.updateTokenPrepFiles
  | .terminateReuseProcess jobId pid message force =>
      (guarded (MySql.terminateReuseProcess jobId pid message force)).orElse (pure ())
  | c => do
      let _ ← guarded c.prog
      pure ()

/-- The states are stored by `updateDeletionsStateInternal`, which rolls back; if it throws they are left in the messaging
directory. -/
def getFilesForDeletionAction (node : Node) (messages : List (MinFileStatus DmState)) : Action Db Unit := do
  let queues ← unguarded (select .rows fun db => node.listLinks (db.deletionQueues node))
  let delOps ← unguarded (Proc.collect (fun (voName, sourceSe) => getFilesForDeletionOf node voName sourceSe) queues)
  let filesState := messages ++ delOps.map DeleteOperation.started
  if filesState.isEmpty then pure ()
  else (guarded (updateDeletionsStateInternal node filesState)).orElse (pure ())

/-- A heartbeat of the backup is tried twice. If both fail the segment may be the old or the new one (`left`). -/
def backupBeatAction (node : Node) (left : Nat) : Action Db Nat :=
  (guarded (backupBeat node)).orElse ((guarded (backupBeat node)).orElse (pure left))

def Operation.action : Operation → Action Db Unit
  | .call c => c.action
  | .getFilesForDeletion node messages => getFilesForDeletionAction node messages
  | .backup node intervalDays bulkSize doBackup left => do
      let _ ← (MySql.backup unguarded (backupBeatAction node left) node doBackup intervalDays bulkSize).rollingBack
      pure ()
  | .storeExchangedTokens exchangedTokens => unguarded (MySql.storeExchangedTokens exchangedTokens)
  | .markFailedTokenExchange failedExchanges => unguarded (MySql.markFailedTokenExchange failedExchanges)
  | .storeOptimizerDecision pair activeDecision newState diff rationale => do
      unguarded (setNewOptimizerValue pair activeDecision newState.ema)
      -- the failure of the second one is only logged
      (guarded (updateOptimizerEvolution pair activeDecision diff rationale newState)).orElse (pure ())
  | .storeOptimizerStreams pair streams => unguarded (MySql.storeOptimizerStreams pair streams)

/-! ## Every transaction is closed on the way -/

section closes

variable {b : Bool} {β : Type}

@[simp] theorem closes_commitTx : commit.Closes b ↔ True := by
  simp [commit, Proc.control]

theorem closes_transaction (p : Op β) : (beginTx >>= fun _ => p >>= fun _ => commit).Closes b :=
  Proc.closes_bind _ fun _ _ => Proc.closes_bind _ fun _ _ => by simp

theorem closes_afterFileUpdate (node : Node) (j : String) (f : Nat) (job : JobInfo) (st : FileState)
    (uuid : Option String) : (afterFileUpdate node j f job st uuid).Closes false := by
  unfold afterFileUpdate
  cases job.jobType with
  | multipleReplica =>
      simp only [Proc.closes_ite]
      exact ⟨fun _ => closes_transaction _, fun _ => rfl⟩
  | multiHop =>
      simp only [Proc.closes_ite]
      exact ⟨fun _ => closes_transaction _, fun _ => closes_transaction _⟩
  | sessionReuse => rfl
  | regular => rfl
  | other c => rfl

theorem closes_storeFileState (node : Node) (a : TransferStatus) (j : String) (f : Nat) (job : JobInfo)
    (st : Option FileState) (uuid : Option String) (archiving : Bool) :
    (storeFileState node a j f job st uuid archiving).Closes b := by
  unfold storeFileState
  simp only [Proc.bind_eq, updateFile_bind, Proc.closes_update, Proc.closes_ite]
  intro n
  constructor
  · simp
  · intro _
    simp only [commit_bind, Proc.closes_commit]
    exact (closes_afterFileUpdate node j f job _ uuid).bind fun _ => rfl

theorem closes_updateFileTransferStatusInternal (node : Node) (a : TransferStatus) :
    (updateFileTransferStatusInternal node a).Closes b := by
  refine Proc.closes_bind _ fun _ _ => Proc.closes_bind _ fun (j, f) _ => ?_
  simp only [updateFileState, Proc.bind_eq, select_bind, Proc.closes_select, Proc.closes_ite]
  intro db db'
  constructor
  · simp
  · exact fun _ => ⟨fun _ => Proc.closes_bind _ fun _ _ => closes_storeFileState _ _ _ _ _ _ _ _,
      fun _ => closes_storeFileState _ _ _ _ _ _ _ _⟩

theorem closes_updateJobTransferStatusInternal (node : Node) (j : String) (st : FileState) :
    (updateJobTransferStatusInternal node j st).Closes false := by
  have hstore : ∀ st, (storeJobState j st).Closes false := by
    intro st
    unfold storeJobState
    cases st.toJobState? with
    | none => rfl
    | some st' => simp
  have hfinished : ∀ n old se, (storeFinishedJob node j n old se).Closes false := by
    intro n old se
    simp [storeFinishedJob]
  have hunfinished : ∀ n old, (storeUnfinishedJob j st n old).Closes false := by
    intro n old
    simp [storeUnfinishedJob, hstore]
  have haggregate : ∀ old se, (aggregateJob node j st old se).Closes false := by
    intro old se
    simp [aggregateJob, countFiles, selectCount, hfinished, hunfinished]
  simp [updateJobTransferStatusInternal, haggregate]

theorem closes_updateFileStatusReuse (node : Node) (j : String) (st : FileState) :
    (updateFileStatusReuse node j st).Closes b := by
  simp only [updateFileStatusReuse, Proc.bind_eq, beginTx_bind, updateFile_bind, Proc.closes_begin, Proc.closes_update]
  intro n
  split <;> simp

theorem closes_terminateReuseProcess (j : String) (pid : Int) (message : String) (force : Bool) :
    (terminateReuseProcess j pid message force).Closes false := by
  have hfail : (failFiles j message).Closes false := fun db => closes_transaction (List.forM _ _)
  simp [terminateReuseProcess, hfail]

theorem closes_cancelExpiredJobsForVo (node : Node) (maxTime : Nat) (vo : String) :
    (cancelExpiredJobsForVo node maxTime vo).Closes false := by
  have hglobal : (cancelGlobalTimeout node maxTime vo).Closes false := fun db =>
    Proc.closes_bind (List.forM _ _) fun _ _ => rfl
  have hown : (cancelOwnTimeout node vo).Closes false := fun db => Proc.closes_bind (List.forM _ _) fun _ _ => rfl
  simp only [cancelExpiredJobsForVo, Proc.bind_eq, Proc.closes_ite]
  exact ⟨fun _ => hglobal.bind fun _ => hown.bind fun _ => rfl, fun _ => hown.bind fun _ => rfl⟩

theorem closes_recoverFile (node : Node) (st : FileState) (message : String) (r : FileRow) :
    (recoverFile node st message r).Closes false :=
  (closes_updateFileTransferStatusInternal node _).bind fun _ =>
    (closes_updateJobTransferStatusInternal node r.jobId st).bind fun _ => rfl

theorem closes_updateHeartBeatInternal (node : Node) (service : String) :
    (updateHeartBeatInternal node service).Closes false := by
  simp only [updateHeartBeatInternal, Proc.bind_eq, beginTx_bind, execute_bind, select_bind, commit_bind,
    Proc.closes_begin, Proc.closes_update, Proc.closes_select, Proc.closes_commit]
  intro n db
  cases db.hostIndex node service with
  | none => rfl
  | some place => simp

theorem closes_checkSanityState (node : Node) : (checkSanityState node).Closes false := by
  unfold checkSanityState
  simp only [Proc.closes_ite]
  refine ⟨fun _ => rfl, fun _ => ?_⟩
  refine Proc.Closes.bind (p := fixJobNonTerminallAllFilesTerminal) ?_ fun _ => ?_
  · exact fun db => Proc.closes_bind (List.forM _ _) fun _ _ => by simp
  refine Proc.Closes.bind (p := fixJobTerminalFileNonTerminal) ?_ fun _ => ?_
  · exact fun db => closes_transaction (List.forM _ _)
  refine Proc.Closes.bind (p := fixDeleteInconsistencies) ?_ fun _ => ?_
  · exact fun db => closes_transaction (List.forM _ _)
  refine Proc.Closes.bind (p := recoverFromDeadHosts node) ?_ fun _ => ?_
  · exact fun db => Proc.closes_forM _ fun host db => Proc.closes_forM _ fun r => closes_recoverFile node _ _ r
  refine Proc.Closes.bind (p := recoverStalledStaging node) ?_ fun _ => ?_
  · exact fun db => closes_transaction (List.forM _ _)
  · exact fun db => closes_transaction (List.forM _ _)

theorem closes_updateDeletionsStateInternal (node : Node) (ops : List (MinFileStatus DmState)) :
    (updateDeletionsStateInternal node ops).Closes b :=
  Proc.closes_bind _ fun _ _ => Proc.closes_bind _ fun _ _ => Proc.closes_bind _ fun _ _ => closes_transaction _

theorem closes_call (c : Call) (hc : c ≠ .updateTokenPrepFiles) : c.prog.Closes false := by
  cases c with
  | updateTransferStatus node a => exact (closes_updateFileTransferStatusInternal node a).bind fun _ => rfl
  | updateJobStatus node j st => exact (closes_updateJobTransferStatusInternal node j st).bind fun _ => rfl
  | updateFileStatusReuse node j st => exact (closes_updateFileStatusReuse node j st).bind fun _ => rfl
  | terminateReuseProcess j pid message force =>
      exact (closes_terminateReuseProcess j pid message force).bind fun _ => rfl
  | setPidForJob j pid => simp [Call.prog, setPidForJob]
  | forkFailed node j => simp [Call.prog, forkFailed]
  | setRetryTransfer node j f n reason log timedOut => simp [Call.prog, setRetryTransfer, Proc.ite_bind]
  | updateFileTransferProgressVector messages => exact (closes_transaction (List.forM _ _)).bind fun _ => rfl
  | getCancelJob node =>
      refine Proc.Closes.bind (p := getCancelJob node) ?_ fun _ => rfl
      exact fun db => Proc.closes_bind (List.forM _ _) fun _ _ => rfl
  | cancelExpiredJobsForVo node maxTime vo => exact (closes_cancelExpiredJobsForVo node maxTime vo).bind fun _ => rfl
  | updateProtocol messages => exact (closes_transaction (List.forM _ _)).bind fun _ => rfl
  | transferLogFileVector messages =>
      refine Proc.Closes.bind (p := transferLogFileVector messages) ?_ fun _ => rfl
      exact Proc.closes_bind (storeLogFiles messages) fun _ _ => rfl
  | backup doBackup jobIds => simp [Call.prog, backupBulk, Proc.ite_bind]
  | setArchivingStartTime jobs => exact (closes_transaction (List.forM _ _)).bind fun _ => rfl
  | updateArchivingState node ops =>
      refine Proc.Closes.bind (p := updateArchivingStateInternal node ops) ?_ fun _ => rfl
      refine Proc.closes_bind _ fun _ _ => Proc.closes_bind _ fun _ _ => ?_
      refine Proc.closes_forM ops fun i => ?_
      exact (closes_updateJobTransferStatusInternal node _ _).bind fun _ => rfl
  | getArchivingFilesForCanceling node =>
      refine Proc.Closes.bind (p := getArchivingFilesForCanceling node) ?_ fun _ => rfl
      exact fun db => Proc.closes_bind (List.forM _ _) fun _ _ => rfl
  | updateBringOnlineToken jobs token => exact (closes_transaction (List.forM _ _)).bind fun _ => rfl
  | getAlreadyStartedStaging node => simp [Call.prog, getAlreadyStartedStaging]
  | updateStagingState node ops =>
      refine Proc.Closes.bind (p := updateStagingStateInternal node ops) ?_ fun _ => rfl
      refine Proc.closes_bind _ fun _ _ => Proc.closes_bind _ fun _ _ => ?_
      refine Proc.closes_forM ops fun i => ?_
      exact (closes_updateJobTransferStatusInternal node _ _).bind fun _ => rfl
  | getStagingFilesForCanceling node =>
      refine Proc.Closes.bind (p := getStagingFilesForCanceling node) ?_ fun _ => rfl
      exact fun db => Proc.closes_bind (List.forM _ _) fun _ _ => rfl
  | updateDeletionsState node ops => exact (closes_updateDeletionsStateInternal node ops).bind fun _ => rfl
  | requeueStartedDeletes node => simp [Call.prog, requeueStartedDeletes]
  | updateFileStateToQosRequestSubmitted node j f => simp [Call.prog, updateFileStateToQosRequestSubmitted, Proc.ite_bind]
  | updateFileStateToQosTerminal node j f st reason =>
      refine Proc.Closes.bind (p := updateFileStateToQosTerminal node j f st reason) ?_ fun _ => rfl
      simp only [updateFileStateToQosTerminal, Proc.bind_eq, beginTx_bind, select_bind, updateFile_bind,
        Proc.closes_begin, Proc.closes_select, Proc.closes_update, Proc.closes_ite]
      have htail : ∀ t b, ((storeQosJob j t).bind fun _ => commit).Closes b := fun t b =>
        Proc.closes_bind _ fun _ _ => by simp
      exact fun db n => ⟨fun _ n => htail _ _, fun _ => htail _ _⟩
  | failTransfersWithFailedTokenExchange node failedExchanges =>
      refine Proc.Closes.bind (p := failTransfersWithFailedTokenExchange node failedExchanges) ?_ fun _ => rfl
      refine Proc.closes_forM failedExchanges fun e db => Proc.closes_forM _ fun r => ?_
      exact (closes_updateFileTransferStatusInternal node _).bind fun _ =>
        (closes_updateJobTransferStatusInternal node r.jobId _).bind fun _ => rfl
  | updateTokenPrepFiles => exact absurd rfl hc
  | checkSanityState node => exact (closes_checkSanityState node).bind fun _ => rfl
  | multihopSanitySate node =>
      refine Proc.Closes.bind (p := multihopSanitySate node) ?_ fun _ => rfl
      unfold multihopSanitySate
      simp only [Proc.closes_ite]
      exact ⟨fun _ => rfl, fun _ db => Proc.closes_bind (List.forM _ _) fun _ _ => by simp⟩
  | updateHeartBeat node service => exact (closes_updateHeartBeatInternal node service).bind fun _ => rfl
  | tick d => simp [Call.prog]

end closes

/-! ## With handlers that roll back -/

section safe

variable {β : Type}

theorem guarded_safe {op : Op β} (h : op.Closes false) : (guarded op).Safe := h.tidy.rollingBack

theorem call_safe (c : Call) (hc : c ≠ .updateTokenPrepFiles) : c.action.Safe := by
  unfold Call.action
  split
  · exact absurd rfl hc
  · rename_i j pid message force
    exact (guarded_safe (closes_terminateReuseProcess j pid message force)).orElse (Action.safe_pure ())
  · exact (guarded_safe (closes_call c hc)).bind fun _ => Action.safe_pure ()

theorem controls_getFilesForDeletionOf (node : Node) (voName sourceSe : String) :
    (getFilesForDeletionOf node voName sourceSe).Controls fun _ => False := by
  have hmax : (concurrentOps "delete" voName sourceSe).Controls fun _ => False := by
    simp [concurrentOps, select, Proc.query]
  refine hmax.bind fun maxValueConfig => ?_
  simp only [Proc.bind_eq, select_bind, Proc.controls_select, Proc.controls_ite]
  refine fun db => ⟨fun _ => trivial, fun _ db' => ?_⟩
  exact Proc.controls_collect (fun _ => by simp [select, Proc.query]) _

theorem getFilesForDeletionAction_safe (node : Node) (messages : List (MinFileStatus DmState)) :
    (getFilesForDeletionAction node messages).Safe := by
  refine Action.Safe.bind (Proc.Controls.safe (by simp [select, Proc.query])) fun queues => ?_
  refine Action.Safe.bind (Proc.Controls.safe (Proc.controls_collect (fun _ => ?_) queues)) fun delOps => ?_
  · exact controls_getFilesForDeletionOf node _ _
  · dsimp only
    split
    · exact Action.safe_pure ()
    · exact (guarded_safe (closes_updateDeletionsStateInternal node _)).orElse (Action.safe_pure ())

theorem backupBeatAction_safe (node : Node) (left : Nat) : (backupBeatAction node left).Safe := by
  have hbeat : (guarded (backupBeat node)).Safe :=
    guarded_safe ((closes_updateHeartBeatInternal node "fts_backup").bind fun _ => rfl)
  exact hbeat.orElse (hbeat.orElse (Action.safe_pure left))

theorem unguarded_tidy {op : Op β} (h : op.Closes false) : (unguarded op).Tidy := h.tidy

theorem closes_select (f : Db → β) : (select .rows f).Closes false := fun _ => rfl

theorem beatAndDrain_tidy {beat : Action Db Nat} (hbeat : beat.Safe) (node : Node) (n : Nat) :
    (beatAndDrain unguarded beat node n).Tidy := by
  unfold beatAndDrain
  split
  · exact hbeat.tidy.bind fun _ => unguarded_tidy (closes_select _)
  · exact Action.tidy_pure false

theorem backupJobs_tidy {beat : Action Db Nat} (hbeat : beat.Safe) (node : Node) (doBackup : Bool) (bulkSize : Int)
    (jobs : List String) (l : BackupLoop) : (backupJobs unguarded beat node doBackup bulkSize jobs l).Tidy := by
  induction jobs generalizing l with
  | nil => exact Action.tidy_pure _
  | cons jobId jobs ih =>
      refine (beatAndDrain_tidy hbeat node _).bind fun drain => ?_
      dsimp only
      refine Action.tidy_ite (Action.tidy_pure _) (Action.tidy_ite ?_ (ih _))
      have hbulk : ∀ jobIds, (backupBulk doBackup jobIds).Closes false := fun jobIds => by
        simp [backupBulk]
      exact (unguarded_tidy (hbulk _)).bind fun bulk => ih _

theorem backup_tidy {beat : Action Db Nat} (hbeat : beat.Safe) (node : Node) (doBackup : Bool)
    (intervalDays bulkSize : Int) : (backup unguarded beat node doBackup intervalDays bulkSize).Tidy := by
  refine (unguarded_tidy (closes_select _)).bind fun hosts => Action.tidy_ite (Action.tidy_pure _) ?_
  refine hbeat.tidy.bind fun start => Action.tidy_ite ?_ (Action.tidy_pure _)
  refine (unguarded_tidy (closes_select _)).bind fun jobs => ?_
  refine (backupJobs_tidy hbeat node doBackup bulkSize jobs {}).bind fun (removed, drain) => ?_
  refine Action.tidy_ite (Action.tidy_pure _) ?_
  exact (unguarded_tidy (by simp [deleteOldRows])).bind fun _ => Action.tidy_pure _

end safe

/-! ## Without them -/

section unguarded

variable {w : Faults} {db : Db}

theorem count_storeExchangedTokens (ts : List ExchangedToken) (s : Session Db) :
    (ts.forM storeExchangedToken).count Stmt.exec s = ts.length := by
  induction ts generalizing s with
  | nil => rfl
  | cons t ts ih =>
      rw [show (t :: ts).forM storeExchangedToken = (storeExchangedToken t).bind fun _ => ts.forM storeExchangedToken from
        rfl, Proc.count_bind, ih]
      simp [storeExchangedToken, Proc.count, Nat.add_comm]

theorem storeExchangedTokens_clean (ts : List ExchangedToken) :
    (unguarded (storeExchangedTokens ts)).Clean w db ↔ ∀ n, w.First n → ¬(1 ≤ n ∧ n < ts.length + 2) := by
  have hquiet : (ts.forM storeExchangedToken).Quiet Stmt.exec db :=
    (Proc.controls_forM ts fun t => by simp [storeExchangedToken]).quiet db
  have hbatch : storeExchangedTokens ts = Proc.batch ts storeExchangedToken := rfl
  have hcount : (Proc.batch ts storeExchangedToken).count Stmt.exec ⟨db, none⟩ = ts.length + 2 := by
    simp only [Proc.batch, Proc.count, Proc.count_bind, count_storeExchangedTokens]
  rw [unguarded, hbatch, Proc.clean_iff]
  · refine forall_congr' fun n => imp_congr_right fun _ => ?_
    rw [Proc.attempt_batch_saved hquiet, hcount]
    omega
  · rw [Proc.batch, Proc.perform, Proc.perform_bind]
    rfl

/-- The four statements for one token. -/
theorem attempt_markFailedTokenExchangeOf (e : String × String) (n : Nat) :
    ((markFailedTokenExchangeOf e).attempt Stmt.exec n ⟨db, none⟩).2.saved = none ↔ 4 ≤ n ∨ n % 4 < 2 := by
  match n with
  | 0 => simp [markFailedTokenExchangeOf, Proc.attempt]
  | 1 => simp [markFailedTokenExchangeOf, Proc.attempt]
  | 2 => simp [markFailedTokenExchangeOf, Proc.attempt]
  | 3 => simp [markFailedTokenExchangeOf, Proc.attempt, commit, Proc.control]
  | n + 4 => simp [markFailedTokenExchangeOf, Proc.attempt, commit, Proc.control]

theorem markFailedTokenExchangeOf_end (e : String × String) (db : Db) :
    ∃ db', (markFailedTokenExchangeOf e).perform Stmt.exec ⟨db, none⟩ = ((), ⟨db', none⟩) := ⟨_, rfl⟩

theorem attempt_markFailedTokenExchange (es : List (String × String)) (n : Nat) :
    ((markFailedTokenExchange es).attempt Stmt.exec n ⟨db, none⟩).2.saved = none ↔ 4 * es.length ≤ n ∨ n % 4 < 2 := by
  induction es generalizing n db with
  | nil => simp [markFailedTokenExchange, Proc.attempt]
  | cons e es ih =>
      rw [show markFailedTokenExchange (e :: es) = (markFailedTokenExchangeOf e).bind fun _ => markFailedTokenExchange es
        from rfl]
      have hcount : (markFailedTokenExchangeOf e).count Stmt.exec ⟨db, none⟩ = 4 := rfl
      by_cases hlt : n < 4
      · rw [Proc.attempt_bind_lt _ _ (hcount ▸ hlt), attempt_markFailedTokenExchangeOf]
        simp only [List.length_cons]
        omega
      · obtain ⟨m, rfl⟩ : ∃ m, n = (markFailedTokenExchangeOf e).count Stmt.exec ⟨db, none⟩ + m := ⟨n - 4, by omega⟩
        obtain ⟨db', hend⟩ := markFailedTokenExchangeOf_end e db
        rw [Proc.attempt_bind_add, hend, ih, hcount]
        simp only [List.length_cons]
        omega

theorem markFailedTokenExchange_clean (es : List (String × String)) :
    (unguarded (markFailedTokenExchange es)).Clean w db ↔ ∀ n, w.First n → ¬(n < 4 * es.length ∧ 2 ≤ n % 4) := by
  rw [unguarded, Proc.clean_iff]
  · refine forall_congr' fun n => imp_congr_right fun _ => ?_
    rw [attempt_markFailedTokenExchange]
    omega
  · induction es generalizing db with
    | nil => rfl
    | cons e es ih =>
        obtain ⟨db', hend⟩ := markFailedTokenExchangeOf_end e db
        rw [show markFailedTokenExchange (e :: es) = (markFailedTokenExchangeOf e).bind fun _ =>
          markFailedTokenExchange es from rfl, Proc.perform_bind, hend]
        exact ih

/-- One statement in a transaction. -/
theorem single_clean (s : Stmt) : (unguarded (Proc.tx .begin (.update s fun _ => commit))).Clean w db ↔
    ∀ n, w.First n → ¬(1 ≤ n ∧ n < 3) := by
  rw [unguarded, Proc.clean_iff]
  · refine forall_congr' fun n => imp_congr_right fun _ => ?_
    match n with
    | 0 => simp [Proc.attempt]
    | 1 => simp [Proc.attempt]
    | 2 => simp [Proc.attempt, commit, Proc.control]
    | n + 3 => simp [Proc.attempt, commit, Proc.control]
  · rfl

/-- The names of the states are checked by the server. -/
def rejects (files : List (Nat × String)) (n : Nat) : Bool :=
  files[n]?.any fun f => (FileState.ofName? f.2).isNone

theorem storeInitialStates_saved (files : List (Nat × String)) (w : Faults) (db saved : Db) :
    ((storeInitialStates files).action Stmt.exec w ⟨db, some saved⟩).2.2.saved = none ↔
      ∀ n < files.length + 1, (w n || rejects files n) = false := by
  induction files generalizing w db with
  | nil =>
      rw [storeInitialStates, commit, Proc.control, Proc.action_tx]
      cases hw : w 0 with
      | true => simp [hw]
      | false => simp [hw, rejects, Proc.action]
  | cons f files ih =>
      obtain ⟨id, name⟩ := f
      rw [List.length_cons, Nat.forall_lt_succ_left', storeInitialStates]
      cases hname : FileState.ofName? name with
      | none => simp [rejects, hname, Proc.action]
      | some st =>
          dsimp only
          rw [Proc.bind_eq, updateFile_bind, Proc.action_update]
          cases hw : w 0 with
          | true => simp
          | false =>
              have hzero : (false || rejects ((id, name) :: files) 0) = false := by simp [rejects, hname]
              rw [if_neg Bool.false_ne_true, ih]
              exact (and_iff_right hzero).symm

theorem updateTokenPrepFiles_clean : (unguarded updateTokenPrepFiles).Clean w db ↔
    ∀ n, Faults.First (fun n => w n || (2 ≤ n && rejects db.tokenPrepFiles (n - 2))) n →
      ¬(2 ≤ n ∧ n < db.tokenPrepFiles.length + 3) := by
  rw [Faults.first_iff, unguarded, Proc.clean_iff_saved, updateTokenPrepFiles, Proc.bind_eq, select_bind,
    Proc.action_select]
  cases h₀ : w 0 with
  | true =>
      simp only [if_true, true_iff]
      exact .inl ⟨0, by omega, by simp [h₀]⟩
  | false =>
      simp only [Bool.false_eq_true, if_false, Proc.bind_eq, beginTx_bind, Proc.action_tx]
      cases h₁ : w.tail 0 with
      | true =>
          simp only [if_true, true_iff]
          exact .inl ⟨1, by omega, by simp [show w 1 = true from h₁]⟩
      | false =>
          simp only [Bool.false_eq_true, if_false, Session.control_begin]
          rw [storeInitialStates_saved]
          constructor
          · intro h
            refine .inr fun n hge hlt => ?_
            obtain ⟨m, rfl⟩ : ∃ m, n = m + 2 := ⟨n - 2, by omega⟩
            simpa [Faults.tail] using h m (by omega)
          · rintro (⟨m, hm, hw⟩ | h) n hn
            · have hbefore : w m = true := by simpa [show ¬2 ≤ m by omega] using hw
              rcases Nat.lt_succ_iff_lt_or_eq.mp hm with hm | rfl
              · obtain rfl : m = 0 := by omega
                exact absurd hbefore (by simp [h₀])
              · exact absurd hbefore (by simpa [Faults.tail] using h₁)
            · simpa [Faults.tail] using h (n + 2) (by omega) (by omega)

end unguarded

/-! ## Which statements are exposed -/

/-- The statements after `BEGIN`, up to `COMMIT`, of a transaction that no handler rolls back. -/
def Operation.exposed (db : Db) : Operation → Nat → Prop
  | .call .updateTokenPrepFiles, n => 2 ≤ n ∧ n < db.tokenPrepFiles.length + 3
  | .storeExchangedTokens exchangedTokens, n => 1 ≤ n ∧ n < exchangedTokens.length + 2
  | .markFailedTokenExchange failedExchanges, n => n < 4 * failedExchanges.length ∧ 2 ≤ n % 4
  | .storeOptimizerDecision _ _ _ _ _, n => 1 ≤ n ∧ n < 3
  | .storeOptimizerStreams _ _, n => 1 ≤ n ∧ n < 3
  | _, _ => False

/-- The statements that throw: also an `UPDATE` of `updateTokenPrepFiles` whose initial state is not in the enumeration of
`file_state`. -/
def Operation.faults (db : Db) (w : Faults) : Operation → Faults
  | .call .updateTokenPrepFiles => fun n => w n || (2 ≤ n && rejects db.tokenPrepFiles (n - 2))
  | _ => w

/-- An operation leaves a transaction behind exactly when the first statement that throws is in a transaction which no
handler rolls back. -/
theorem transactions_closed (o : Operation) (w : Faults) (db : Db) :
    o.action.Clean w db ↔ ∀ n, (o.faults db w).First n → ¬o.exposed db n := by
  cases o with
  | call c =>
      by_cases hc : c = .updateTokenPrepFiles
      · subst hc
        exact updateTokenPrepFiles_clean
      · have hexposed : ∀ n, ¬(Operation.call c).exposed db n := by
          intro n
          unfold Operation.exposed
          split
          · rename_i h
            exact fun _ => hc (Operation.call.inj h)
          all_goals simp_all
        exact iff_of_true (call_safe c hc w db) fun n _ => hexposed n
  | getFilesForDeletion node messages =>
      exact iff_of_true (getFilesForDeletionAction_safe node messages w db) fun _ _ h => h
  | backup node days bulkSize doBackup left =>
      have hbackup := (backup_tidy (backupBeatAction_safe node left) node doBackup days bulkSize).rollingBack
      exact iff_of_true (hbackup.bind (fun _ => Action.safe_pure ()) w db) fun _ _ h => h
  | storeExchangedTokens ts => exact storeExchangedTokens_clean ts
  | markFailedTokenExchange es => exact markFailedTokenExchange_clean es
  | storeOptimizerDecision pair active state diff rationale =>
      refine Iff.trans (Action.Tidy.clean_bind ?_ fun _ => ?_) (single_clean _)
      · exact unguarded_tidy (by simp [setNewOptimizerValue])
      · exact (guarded_safe (by simp [updateOptimizerEvolution])).orElse (Action.safe_pure ())
  | storeOptimizerStreams pair streams => exact single_clean _

/-- A token whose exchange has succeeded. -/
def tokenDb : Db where
  tokens := .ofRows [{ tokenId := "t", accessToken := "old" }]

/-- The `COMMIT` throws: the session keeps the new token in an open transaction. -/
theorem exchange_left_open :
    ¬(Operation.storeExchangedTokens [⟨"t", "new", "refresh", "old"⟩]).action.Clean (fun n => n = 2) tokenDb := by
  intro h
  cases h.1

end Fts3.MySql
