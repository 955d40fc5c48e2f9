import Mathlib.Algebra.Order.Ring.Rat
import Fts3.Machine.Run
import Fts3.UrlCopy.UrlCopyOpts

/-!
# Reports to the server

`LegacyReporter` sends pings while a transfer runs, and a status when it is over. Both say how much has been transferred
since the last ping.
-/

namespace Fts3.UrlCopy

open Fts3.Machine

def EPERM : Int := 1

def ENOENT : Int := 2

def E2BIG : Int := 7

def EACCES : Int := 13

def ENOTDIR : Int := 20

def EISDIR : Int := 21

def EINVAL : Int := 22

def EFBIG : Int := 27

def ENOSPC : Int := 28

def EROFS : Int := 30

def ENAMETOOLONG : Int := 36

def EPROTONOSUPPORT : Int := 93

def ETIMEDOUT : Int := 110

/-! ## What can be retried -/

def findSubstring (stack : Text) (needles : List String) : Bool :=
  needles.any fun needle => needle.toList <:+: stack

def msgImplyRetry : List String :=
  ["performance marker", "Name or service not known", "Connection timed out", "end-of-file was reached",
    "end of file occurred", "SRM_INTERNAL_ERROR", "was forcefully killed", "operation timeout"]

def msgImplyDoNotRetry : List String :=
  ["proxy expired", "with an error 550 File not found", "File exists and overwrite", "No such file or directory",
    "SRM_INVALID_PATH", "The certificate has expired", "The available CRL has expired", "SRM Authentication failed",
    "SRM_DUPLICATION_ERROR", "SRM_AUTHENTICATION_FAILURE", "SRM_NO_FREE_SPACE", "digest too big for rsa key",
    "Can not determine address of local host", "Permission denied", "System error in write into HDFS", "File exists",
    "checksum do not match", "CHECKSUM MISMATCH", "The source file is not ONLINE"]

/-- The codes that are not worth a retry. -/
def ErrorScope.fatal : ErrorScope → List Int
  | .source => [ENOENT, EPERM, EACCES, EISDIR, ENAMETOOLONG, E2BIG, ENOTDIR, EPROTONOSUPPORT]
  | .destination => [EPERM, EACCES, EISDIR, ENAMETOOLONG, E2BIG, EPROTONOSUPPORT, EEXIST]
  | .transfer | .agent => [ENOSPC, EPERM, EACCES, EEXIST, EFBIG, EROFS, ENAMETOOLONG, EPROTONOSUPPORT]

def retryTransfer (errorNo : Int) (category : ErrorScope) (message : Text) : Bool :=
  if findSubstring message msgImplyRetry then true
  else if errorNo = ETIMEDOUT then true
  else if errorNo = ECANCELED then false
  else if findSubstring message msgImplyDoNotRetry then false
  else errorNo ∉ category.fatal

namespace UrlCopyError

def isRecoverable (e : UrlCopyError) : Bool := retryTransfer e.code e.scope e.msg

end UrlCopyError

def ErrorScope.name : ErrorScope → Text
  | .transfer => "TRANSFER".toList
  | .destination => "DESTINATION".toList
  | .agent => "GENERAL_FAILURE".toList
  | .source => "SOURCE".toList

/-! ## A transfer that runs -/

/-- A transfer, and what has become of it so far. -/
structure RunningTransfer where
  transfer : Transfer := {}
  fileSize : UInt64 := 0
  averageThroughput : Rat := 0
  instantaneousThroughput : Rat := 0
  transferredBytes : UInt64 := 0
  previousPingTransferredBytes : UInt64 := 0
  error : Option UrlCopyError := none
  evictionRetc : Int := -1

/-- What gfal2 passes to the callback. -/
structure PerformanceSample where
  averageBaudrate : UInt64
  instantBaudrate : UInt64
  bytesTransferred : UInt64

def performanceCallback (h : PerformanceSample) (t : RunningTransfer) : RunningTransfer :=
  { t with
    averageThroughput := h.averageBaudrate.toNat / 1024
    instantaneousThroughput := h.instantBaudrate.toNat / 1024
    transferredBytes := h.bytesTransferred }

structure Ping where
  jobId : Text
  fileId : Nat
  throughput : Rat
  instantaneousThroughput : Rat
  transferred : UInt64
  transferredSinceLastPing : UInt64

namespace RunningTransfer

def nonsensical (t : RunningTransfer) : Bool :=
  10000000000 < t.instantaneousThroughput ∨ 10000000000 < t.averageThroughput

def ping (t : RunningTransfer) : Ping where
  jobId := t.transfer.jobId
  fileId := t.transfer.fileId
  throughput := t.averageThroughput / 1024
  instantaneousThroughput := t.instantaneousThroughput / 1024
  transferred := t.transferredBytes
  transferredSinceLastPing := t.transferredBytes - t.previousPingTransferredBytes

/-- The ping that is sent, and the transfer after it. The socket may throw an exception. -/
def sendPing (thrown : Bool) (t : RunningTransfer) : Option Ping × RunningTransfer :=
  if t.transferredBytes < t.previousPingTransferredBytes then (none, t)
  else if t.nonsensical then (none, t)
  else (if thrown then none else some t.ping, { t with previousPingTransferredBytes := t.transferredBytes })

end RunningTransfer

inductive TransferStatus
  | finished
  | failed
  | canceled
  deriving Repr, DecidableEq

/-- The status that `sendTransferCompleted` sends. -/
structure Status where
  jobId : Text
  fileId : Nat
  filesize : UInt64
  transferStatus : TransferStatus
  errcode : Int
  transferMessage : Text := []
  retry : Bool := false
  fileMetadata : Option Text := none
  transferredSinceLastPing : UInt64 := 0
  deriving Repr, DecidableEq

namespace RunningTransfer

def transferredSinceLastPing (t : RunningTransfer) : UInt64 :=
  if t.transferredBytes < t.previousPingTransferredBytes then 0
  else if t.fileSize < t.previousPingTransferredBytes then 0
  else t.fileSize - t.previousPingTransferredBytes

def sendTransferCompleted (opts : UrlCopyOpts) (t : RunningTransfer) : Status :=
  match t.error with
  | some e =>
      { jobId := t.transfer.jobId
        fileId := t.transfer.fileId
        filesize := t.fileSize
        transferStatus := if e.code = ECANCELED then .canceled else .failed
        errcode := e.code
        transferMessage := e.scope.name ++ " [".toList ++ Text.printInt e.code ++ "] ".toList ++ e.msg
        retry := e.isRecoverable
        fileMetadata :=
          if e.code ≠ ECANCELED ∧ e.code = EEXIST ∧ opts.dstFileReport ∧ !opts.overwrite then
            some (replaceMetadataString t.transfer.fileMetadata)
          else none }
  | none =>
      { jobId := t.transfer.jobId
        fileId := t.transfer.fileId
        filesize := t.fileSize
        transferStatus := .finished
        errcode := 0
        transferredSinceLastPing := t.transferredSinceLastPing }

end RunningTransfer

end Fts3.UrlCopy
