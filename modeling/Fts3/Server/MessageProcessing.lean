import Mathlib.Data.List.Infix
import Fts3.MySql.Config

/-!
# Status messages

`MessageProcessingService.cpp`: what the server stores when `fts_url_copy` reports on a transfer.
-/

namespace Fts3.Server

open Fts3.Sql Fts3.MySql

structure Message where
  jobId : String
  fileId : Nat
  processId : Int := 0
  transferStatus : FileState
  transferMessage : String := ""
  filesize : Int := 0
  timeInSecs : Rat := 0
  throughput : Rat := 0
  retry : Bool := false
  fileMetadata : String := ""
  logPath : String := ""
  errcode : Int := 0

def etimedout : Int := 110

/-- `errmsg.find(text) != npos` for one of the texts. -/
def isUnrecoverableErrorMessage (errmsg : String) : Bool :=
  ["Transfer terminate handler called", "Transfer process died", "because it was stalled", "canceled by the user",
    "undefined symbol", "canceled because it was not responding", "Out of range value"].any
      fun text => decide (text.toList <:+: errmsg.toList)

/-- A failed transfer is tried again, if it may be. -/
def scheduleRetry (node : Node) (msg : Message) : Op Bool :=
  if msg.transferStatus = .failed then do
    -- multiple replica files belonging to a job will not be retried
    let retry ← getRetry node msg.jobId
    match retry with
    -- the exception is logged
    | none => pure false
    | some retry =>
        if msg.retry = true ∧ 0 < retry ∧ 0 < msg.fileId then do
          let retryTimes ← getRetryTimes msg.jobId msg.fileId
          if retryTimes ≤ retry - 1 then do
            setRetryTransfer node msg.jobId msg.fileId (retryTimes + 1) msg.transferMessage msg.logPath
              (msg.errcode = etimedout)
            pure true
          else pure false
        else pure false
  else pure false

def Message.status (msg : Message) : TransferStatus where
  jobId := msg.jobId
  fileId := msg.fileId
  processId := msg.processId
  newFileState := msg.transferStatus
  errorReason := msg.transferMessage
  filesize := msg.filesize
  duration := msg.timeInSecs
  throughput := msg.throughput
  retry := msg.retry
  fileMetadata := msg.fileMetadata

def performOtherMessageDbChange (node : Node) (msg : Message) : Op Unit := do
  let retried ← scheduleRetry node msg
  if retried = true then pure ()
  else do
    -- session reuse process died or terminated unexpected. Terminate all files of a given job
    if isUnrecoverableErrorMessage msg.transferMessage = true then
      terminateReuseProcess msg.jobId msg.processId msg.transferMessage false
    else pure ()
    -- update file and job state
    let _ ← updateFileTransferStatusInternal node msg.status
    let _ ← updateJobTransferStatusInternal node msg.jobId msg.transferStatus
    pure ()

def performUpdateMessageDbChange (m : ProtocolMessage) : Op Unit :=
  updateProtocol [{ m with transferStatus := "UPDATE" }]

/-! ## Batches -/

/-- `events::Message`, by its `transfer_status`: `UPDATE`, with the parameters of the transfer, or a state. -/
inductive StatusMessage where
  | update (m : ProtocolMessage)
  | other (msg : Message)

def StatusMessage.isUpdate : StatusMessage → Bool
  | .update _ => true
  | .other _ => false

/-- The service at work on a batch. `request` counts the polls that do not see the interruption request yet, if there is
one; `processed` are the messages whose database change has been made, and `written` those that went back to the message
directory. -/
structure MessageService where
  db : Db
  request : Option Nat := none
  processed : List StatusMessage := []
  written : List StatusMessage := []

namespace MessageService

/-- `interruption_requested`: a request that has been seen stays. -/
def poll (s : MessageService) : Bool × MessageService :=
  match s.request with
  | none => (false, s)
  | some 0 => (true, s)
  | some (n + 1) => (false, { s with request := some n })

def dumpMessages (messages : List StatusMessage) (s : MessageService) : MessageService :=
  { s with written := s.written ++ messages }

def perform (msg : StatusMessage) (op : Op Unit) (s : MessageService) : MessageService :=
  { s with db := op.alone s.db, processed := s.processed ++ [msg] }

/-- One pass over the batch `messages`, of which `rest` is left: `change` is what the pass does with a message. A pass that
sees the request dumps the whole batch. -/
def handleMessages (change : StatusMessage → Option (Op Unit)) (messages : List StatusMessage) :
    List StatusMessage → MessageService → MessageService
  | [], s => s
  | msg :: rest, s =>
      match s.poll with
      | (true, s) => s.dumpMessages messages
      | (false, s) =>
          match change msg with
          | none => handleMessages change messages rest s
          | some op => handleMessages change messages rest (s.perform msg op)

def otherChange (node : Node) : StatusMessage → Option (Op Unit)
  | .update _ => none
  | .other msg => some (performOtherMessageDbChange node msg)

def updateChange : StatusMessage → Option (Op Unit)
  | .update m => some (performUpdateMessageDbChange m)
  | .other _ => none

def handleOtherMessages (node : Node) (messages : List StatusMessage) : MessageService → MessageService :=
  handleMessages (otherChange node) messages messages

def handleUpdateMessages (messages : List StatusMessage) : MessageService → MessageService :=
  handleMessages updateChange messages messages

/-- The part of `runService` that works on a batch. -/
def handleBatch (node : Node) (messages : List StatusMessage) (s : MessageService) : MessageService :=
  if messages.isEmpty then s else handleUpdateMessages messages (handleOtherMessages node messages s)

end MessageService

end Fts3.Server
