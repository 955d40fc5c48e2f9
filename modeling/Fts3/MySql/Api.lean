import Fts3.MySql.SanityChecks
import Fts3.MySql.HeartBeat

/-!
# Runs of the database API

A call is one operation of `MySqlAPI` with its arguments. A system is a database and any number of calls,
each on a session of its own; sequences of calls are schedules in which one call starts after another
one has ended.
-/

namespace Fts3.MySql

open Fts3.Sql

inductive Result where
  | done
  | updated (b : Bool)
  deriving DecidableEq, Repr

/-- The operations of `MySqlAPI` that write `t_file`, `t_job`, `t_dm` or `t_hosts`, and the passing of time. -/
inductive Call where
  | updateTransferStatus (node : Node) (a : TransferStatus)
  | updateJobStatus (node : Node) (jobId : String) (state : FileState)
  | updateFileStatusReuse (node : Node) (jobId : String) (status : FileState)
  | terminateReuseProcess (jobId : String) (pid : Int) (message : String) (force : Bool)
  | setPidForJob (jobId : String) (pid : Int)
  | forkFailed (node : Node) (jobId : String)
  | setRetryTransfer (node : Node) (jobId : String) (fileId : Nat) (retryNo : Int) (reason logFile : String)
      (timedOut : Bool)
  | updateFileTransferProgressVector (messages : List MessageUpdater)
  | getCancelJob (node : Node)
  | cancelExpiredJobsForVo (node : Node) (maxTime : Nat) (vo : String)
  | updateProtocol (messages : List ProtocolMessage)
  | transferLogFileVector (messagesLog : List MessageLog)
  | backup (doBackup : Bool) (jobIds : List String)
  | setArchivingStartTime (jobs : List (String × List Nat))
  | updateArchivingState (node : Node) (archivingOpStatus : List (MinFileStatus FileState))
  | getArchivingFilesForCanceling (node : Node)
  | updateBringOnlineToken (jobs : List (String × List Nat)) (token : String)
  | getAlreadyStartedStaging (node : Node)
  | updateStagingState (node : Node) (stagingOpsStatus : List (MinFileStatus FileState × Nat))
  | getStagingFilesForCanceling (node : Node)
  | updateDeletionsState (node : Node) (delOpsStatus : List (MinFileStatus DmState))
  | requeueStartedDeletes (node : Node)
  | updateFileStateToQosRequestSubmitted (node : Node) (jobId : String) (fileId : Nat)
  | updateFileStateToQosTerminal (node : Node) (jobId : String) (fileId : Nat) (fileState : FileState)
      (reason : String)
  | failTransfersWithFailedTokenExchange (node : Node) (failedExchanges : List (String × String))
  | updateTokenPrepFiles
  | checkSanityState (node : Node)
  | multihopSanitySate (node : Node)
  | updateHeartBeat (node : Node) (serviceName : String)
  | tick (seconds : Nat)

def Call.prog : Call → Op Result
  | updateTransferStatus node a => do
      let (b, _) ← updateFileTransferStatusInternal node a
      pure (.updated b)
  | updateJobStatus node jobId state => do
      let b ← updateJobTransferStatusInternal node jobId state
      pure (.updated b)
  | updateFileStatusReuse node jobId status => do
      let _ ← MySql.updateFileStatusReuse node jobId status
      pure .done
  | terminateReuseProcess jobId pid message force => do
      MySql.terminateReuseProcess jobId pid message force
      pure .done
  | setPidForJob jobId pid => do
      MySql.setPidForJob jobId pid
      pure .done
  | forkFailed node jobId => do
      MySql.forkFailed node jobId
      pure .done
  | setRetryTransfer node jobId fileId retryNo reason logFile timedOut => do
      MySql.setRetryTransfer node jobId fileId retryNo reason logFile timedOut
      pure .done
  | updateFileTransferProgressVector messages => do
      MySql.updateFileTransferProgressVector messages
      pure .done
  | getCancelJob node => do
      let _ ← MySql.getCancelJob node
      pure .done
  | cancelExpiredJobsForVo node maxTime vo => do
      let _ ← MySql.cancelExpiredJobsForVo node maxTime vo
      pure .done
  | updateProtocol messages => do
      MySql.updateProtocol messages
      pure .done
  | transferLogFileVector messagesLog => do
      let _ ← MySql.transferLogFileVector messagesLog
      pure .done
  | backup doBackup jobIds => do
      let _ ← backupBulk doBackup jobIds
      pure .done
  | setArchivingStartTime jobs => do
      MySql.setArchivingStartTime jobs
      pure .done
  | updateArchivingState node ops => do
      updateArchivingStateInternal node ops
      pure .done
  | getArchivingFilesForCanceling node => do
      let _ ← MySql.getArchivingFilesForCanceling node
      pure .done
  | updateBringOnlineToken jobs token => do
      MySql.updateBringOnlineToken jobs token
      pure .done
  | getAlreadyStartedStaging node => do
      let _ ← MySql.getAlreadyStartedStaging node
      pure .done
  | updateStagingState node ops => do
      updateStagingStateInternal node ops
      pure .done
  | getStagingFilesForCanceling node => do
      let _ ← MySql.getStagingFilesForCanceling node
      pure .done
  | updateDeletionsState node ops => do
      updateDeletionsStateInternal node ops
      pure .done
  | requeueStartedDeletes node => do
      MySql.requeueStartedDeletes node
      pure .done
  | updateFileStateToQosRequestSubmitted node jobId fileId => do
      let b ← MySql.updateFileStateToQosRequestSubmitted node jobId fileId
      pure (.updated b)
  | updateFileStateToQosTerminal node jobId fileId fileState reason => do
      MySql.updateFileStateToQosTerminal node jobId fileId fileState reason
      pure .done
  | failTransfersWithFailedTokenExchange node failedExchanges => do
      MySql.failTransfersWithFailedTokenExchange node failedExchanges
      pure .done
  | updateTokenPrepFiles => do
      MySql.updateTokenPrepFiles
      pure .done
  | checkSanityState node => do
      MySql.checkSanityState node
      pure .done
  | multihopSanitySate node => do
      MySql.multihopSanitySate node
      pure .done
  | updateHeartBeat node serviceName => do
      let _ ← updateHeartBeatInternal node serviceName
      pure .done
  | tick seconds => do
      let _ ← execute (.tick seconds)
      pure .done

abbrev System := Pool Db Sel Stmt Result

abbrev Step := Event Db Sel Stmt

def System.init (db : Db) (calls : List Call) : System :=
  Pool.start db (calls.map Call.prog)

def System.after (db : Db) (calls : List Call) (schedule : List Nat) : System :=
  (System.init db calls).run Stmt.exec schedule

def System.steps (db : Db) (calls : List Call) (schedule : List Nat) : List Step :=
  (System.init db calls).trace Stmt.exec schedule

/-! ## Callers -/

/-- Who reports the status of a file: a message processor, the canceler, the recovery from dead hosts. -/
structure Caller where
  node : Node
  status : TransferStatus

/-- The status is stored for the file and then for its job. -/
def Caller.prog (c : Caller) : Op Bool := do
  let _ ← updateFileTransferStatusInternal c.node c.status
  updateJobTransferStatusInternal c.node c.status.jobId c.status.newFileState

abbrev Callers := Pool Db Sel Stmt Bool

def Callers.init (db : Db) (callers : List Caller) : Callers :=
  Pool.start db (callers.map Caller.prog)

def Callers.after (db : Db) (callers : List Caller) (schedule : List Nat) : Callers :=
  (Callers.init db callers).run Stmt.exec schedule

def Callers.steps (db : Db) (callers : List Caller) (schedule : List Nat) : List Step :=
  (Callers.init db callers).trace Stmt.exec schedule

end Fts3.MySql
