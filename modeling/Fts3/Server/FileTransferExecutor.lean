import Fts3.MySql.Scheduling
import Fts3.UrlCopy.UrlCopyCmd

/-!
# Starting a transfer

`FileTransferExecutor.cpp`: a fetched transfer is claimed and its `fts_url_copy` is started. What the command line
is made of is read before and decides nothing about the claim. A worker that is interrupted takes no further turn.
-/

namespace Fts3.Server

open Fts3.Sql Fts3.MySql

/-- What the command line of `fts_url_copy` and its execution give: the protocol parameters, and the process id
unless the fork fails; `failedPid` is what `getPid` returns then. -/
structure Spawn where
  pid : Option Int := none
  failedPid : Int := -1
  nostreams : Int := 0
  timeout : Int := 0
  buffersize : Int := 0

def Spawn.message (s : Spawn) (fileId : Nat) : ProtocolMessage where
  transferStatus := "UPDATE"
  fileId := fileId
  filesize := 0
  nostreams := s.nostreams
  timeout := s.timeout
  buffersize := s.buffersize

def forkMessage : String := "Transfer failed to fork, check fts3server.log for more details"

/-- After the claim: spawn the `fts_url_copy`. -/
def executeProcess (node : Node) (spawn : Spawn) (tf : TransferFile) : Op Unit := do
  updateProtocol [spawn.message tf.fileId]
  match spawn.pid with
  | none => do
      let _ ← updateFileTransferStatusInternal node
        { jobId := tf.jobId, fileId := tf.fileId, processId := spawn.failedPid
          newFileState := .failed, errorReason := forkMessage }
      let _ ← updateJobTransferStatusInternal node tf.jobId .failed
      pure ()
  | some pid => do
      let _ ← updateFileTransferStatusInternal node
        { jobId := tf.jobId, fileId := tf.fileId, processId := pid, newFileState := .ready }
      pure ()

/-- The claim of a transfer that may run. -/
def claim (node : Node) (spawn : Spawn) (tf : TransferFile) : Op Unit := do
  let fileUpdated ← updateFileTransferStatusInternal node { jobId := tf.jobId, fileId := tf.fileId, newFileState := .ready }
  let _ ← updateJobTransferStatusInternal node tf.jobId .active
  -- not updated: probably picked by another node
  if fileUpdated.1 = false then pure ()
  else executeProcess node spawn tf

def FileTransferExecutor.run (node : Node) (spawn : Spawn) (tf : TransferFile) : Op Unit :=
  if tf.fileId = 0 then pure ()
  else do
    let allowed ← isTrAllowed tf.sourceSe tf.destSe
    -- Set to READY state when true
    if allowed = some true then claim node spawn tf else pure ()

/-! ## The command line -/

/-- What is read for the command from the configuration, the links, the storages and the metadata of the job. -/
structure CommandSettings where
  secPerMB : Int32 := 0
  /-- those of the file, or the ones of the link -/
  protocol : UrlCopy.ProtocolParameters := {}
  publishUserDn : Bool := false
  msgDir : Text := []
  authMethod : Text := "null".toList
  cloudStorageConfig : Text := []
  oauthCredentials : Text := []
  retrieveSEToken : Bool := false
  debugLevel : Int32 := 0
  disableDelegation : Bool := false
  thirdPartyTURL : Text := []
  disableStreaming : Bool := false
  monitoringMsg : Bool := false
  pingInterval : Int32 := 0
  proxy : Text := []
  infosys : Text := []
  udt : Option Bool := none
  ipv6 : Option Bool := none
  skipEvict : Option Bool := none
  copyMode : UrlCopy.CopyMode := .any
  ftsHostName : Text := []
  retryTimes : Int32 := 0
  retryMax : Int32 := 0
  logsDir : Text := []

/-- The setters before `setFromTransfer`. -/
def CommandSettings.before (s : CommandSettings) : List UrlCopy.Call :=
  (if 0 < s.secPerMB then [.setSecondsPerMB s.secPerMB.toInt64] else []) ++ [.setFromProtocol s.protocol]

/-- The setters after it. -/
def CommandSettings.after (s : CommandSettings) (tf : UrlCopy.TransferFile) : List UrlCopy.Call :=
  List.flatten
    [ [.setAuthMethod s.authMethod],
      if s.cloudStorageConfig ≠ [] then [.setCloudConfig s.cloudStorageConfig] else [],
      if s.cloudStorageConfig = [] ∧ s.authMethod = "oauth2".toList ∧ s.oauthCredentials ≠ [] then
        [.setOAuthFile s.oauthCredentials]
      else [],
      [.setRetrieveSEToken s.retrieveSEToken, .setDebugLevel s.debugLevel, .setDisableDelegation s.disableDelegation],
      if s.thirdPartyTURL ≠ [] then [.setThirdPartyTURL s.thirdPartyTURL] else [],
      [.setDisableStreaming s.disableStreaming, .setMonitoring s.monitoringMsg s.msgDir,
        .setPingInterval s.pingInterval],
      if s.proxy ≠ [] ∧ s.authMethod ≠ "oauth2".toList then [.setProxy s.proxy] else [],
      if s.infosys ≠ [] then [.setInfosystem s.infosys] else [],
      [.setUDT s.udt],
      -- IPv6 is explicit when the protocol parameters have set it
      if s.protocol.ipv6.isNone then [.setIPv6 s.ipv6] else [],
      [.setSkipEvict s.skipEvict, .setCopyMode s.copyMode, .setFTSName s.ftsHostName,
        .setNumberOfRetries (if s.retryTimes < 0 then 0 else s.retryTimes)],
      if 0 < s.retryTimes ∧ tf.overwriteFlag = ['R'] then [.setOverwrite true] else [],
      -- a hop that is not the final destination may be overwritten
      if tf.jobType = .multiHop ∧ tf.lastHop = 0 ∧ tf.overwriteFlag = ['M'] then [.setOverwrite true] else [],
      [.setMaxNumberOfRetries (if s.retryMax < 0 then 0 else s.retryMax), .setLogDir s.logsDir] ]

/-- What `run` asks of the command before its parameters are generated. -/
def FileTransferExecutor.calls (s : CommandSettings) (tf : UrlCopy.TransferFile) : List UrlCopy.Call :=
  s.before ++ .setFromTransfer tf false s.publishUserDn s.msgDir :: s.after tf

/-- A fetched transfer with all its columns; the ones that the scheduler does not work with are in `columns`. -/
def commandFile (columns : UrlCopy.TransferFile) (tf : TransferFile) : UrlCopy.TransferFile where
  __ := columns
  fileId := .ofNat tf.fileId
  jobId := tf.jobId.toList
  voName := tf.voName.toList
  userDn := tf.userDn.toList
  activity := tf.activity.toList
  archiveTimeout := .ofInt tf.archiveTimeout
  jobType := tf.jobType
  lastReplica := if tf.lastReplica then 1 else 0
  lastHop := if tf.lastHop then 1 else 0

end Fts3.Server
