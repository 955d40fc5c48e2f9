import Fts3.Common.Text
import Fts3.MySql.Schema

/-!
# Files of a transfer job
-/

namespace Fts3.UrlCopy

open Fts3.MySql (JobType)

/-- What a process of `fts_url_copy` is told of a file. -/
structure TransferFile where
  fileId : UInt64 := 0
  jobId : Text := []
  sourceSurl : Text := []
  destSurl : Text := []
  userFilesize : Int64 := 0
  voName : Text := []
  overwriteFlag : Text := []
  dstFileReport : Text := []
  userDn : Text := []
  checksumMode : Text := []
  checksum : Text := []
  sourceSpaceToken : Text := []
  destinationSpaceToken : Text := []
  activity : Text := []
  archiveTimeout : Int32 := 0
  scitag : Int32 := 0
  fileMetadata : Text := []
  jobMetadata : Text := []
  transferMetadata : Text := []
  bringOnlineToken : Text := []
  jobType : JobType := .regular
  lastReplica : Int32 := 0
  lastHop : Int32 := 0
  deriving DecidableEq

end Fts3.UrlCopy
