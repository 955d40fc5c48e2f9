import Mathlib.Logic.Function.Basic
import Fts3.UrlCopy.UrlCopyOpts

/-!
# From the setters to the options of the process

What the calls of the setters ask for and what the process reads from its command line are both values of the options. They
agree when the command keeps no value that is not wanted any more, and nothing on the way breaks an argument up.
-/

namespace Fts3.UrlCopy

open Fts3.Text Fts3.Getopt

/-! ## The options of a process -/

/-- A text that is empty has not been set. -/
structure Values where
  text : TextKey → Text := fun _ => []
  metadata : MetadataKey → Text := fun _ => []
  number : NumberKey → Option Int := fun _ => none
  flag : FlagKey → Bool := fun _ => false

/-- The options of a process that knows the values. -/
def Values.options (v : Values) : UrlCopyOpts where
  bulkFile := v.text .bulkFile
  isSessionReuse := v.flag .reuse
  strictCopy := v.flag .strictCopy
  dstFileReport := v.flag .dstFileReport
  thirdPartyTURL := v.text .thirdPartyTURL
  voName := v.text .vo
  userDn := v.metadata .userDn
  proxy := v.text .proxy
  oauthFile := v.text .oauth
  cloudStorageConfig := v.text .cloudConfig
  infosys := v.text .infosystem
  ftsName := v.text .ftsName
  jobMetadata := v.metadata .jobMetadata
  authMethod := v.text .authMethod
  copyMode := translateCopyMode (v.text .copyMode)
  disableCopyFallback := v.flag .disableFallback
  retrieveSEToken := v.flag .retrieveSeToken
  optimizerLevel := (v.number .level).getD 0
  overwrite := v.flag .overwrite
  noDelegation := v.flag .noDelegation
  nStreams := (v.number .nstreams).getD 0
  tcpBuffersize := (v.number .tcpBuffersize).getD 0
  timeout := (v.number .timeout).getD 0
  enableUdt := v.flag .udt
  enableIpv6 := if v.flag .ipv4 then some false else if v.flag .ipv6 then some true else none
  addSecPerMb := (v.number .secPerMb).getD 0
  noStreaming := v.flag .noStreaming
  skipEvict := v.flag .skipEvict
  enableMonitoring := v.flag .monitoring
  pingInterval := (v.number .pingInterval).getD 60
  retry := (v.number .retry).getD 0
  retryMax := (v.number .retryMax).getD 0
  logDir := if v.text .logDir = [] then "/var/log/fts3".toList else v.text .logDir
  msgDir := if v.text .msgDir = [] then "/var/lib/fts3".toList else v.text .msgDir
  debugLevel := (v.number .debug).getD 0
  referenceTransfer :=
    { jobId := v.text .jobId
      fileId := ((v.number .fileId).getD 0).toNat
      source := Uri.parse (v.text .source)
      destination := Uri.parse (v.text .destination)
      checksumAlgorithm := (splitChecksum (v.text .checksum)).1
      checksumValue := (splitChecksum (v.text .checksum)).2
      userFileSize := ((v.number .userFilesize).getD 0).toNat
      activity := v.text .activity
      fileMetadata := v.metadata .fileMetadata
      transferMetadata := v.metadata .transferMetadata
      tokenBringOnline := v.text .tokenBringonline
      sourceTokenDescription := v.text .sourceTokenDesc
      destTokenDescription := v.text .destTokenDesc
      sourceTokenIssuer := v.text .sourceIssuer
      destTokenIssuer := v.text .destIssuer
      scitag := ((v.number .scitag).getD 0).toNat
      isMultipleReplicaJob := v.flag .jobMReplica
      isLastReplica := v.flag .lastReplica
      isMultihopJob := v.flag .jobMultihop
      isLastHop := v.flag .lastHop
      isArchiving := v.flag .archiving
      checksumMode := checksumModeOf (v.text .checksumMode) }

/-- The argument that an option needs. -/
def Values.argument (v : Values) : ArgKey → Option Text
  | .text k => if v.text k = [] then none else some (v.text k)
  | .metadata k => if v.metadata k = [] then none else some (prepareMetadataString (v.metadata k))
  | .number k => (v.number k).map printInt

/-- What `getopt_long_only` has to return. -/
def Values.Returns (v : Values) (p : Parsed Opt) : Prop :=
  (∃ k, p = .option (.flag k) none ∧ v.flag k = true) ∨
    ∃ k optarg, p = .option (.key (.arg k)) (some optarg) ∧ v.argument k = some optarg

/-! ## What is wanted

Each option has the field of a call that it stands for. The last call that has the field decides, also when it says that the
option is not wanted: by an empty text, a number that is not there, or a flag that is not set.
-/

section wanted

variable {α : Type}

/-- A field of the transfer. -/
def ofTransfer (field : TransferFile → α) : Call → Option α
  | .setFromTransfer transfer _ _ _ => some (field transfer)
  | _ => none

/-- A field that the transfers of a bulk file have each for itself. -/
def ofSingle (missing : α) (field : TransferFile → α) : Call → Option α
  | .setFromTransfer transfer isMultiple _ _ => some (if isMultiple then missing else field transfer)
  | _ => none

/-- A field of the protocol. -/
def ofProtocol (field : ProtocolParameters → α) : Call → Option α
  | .setFromProtocol protocol => some (field protocol)
  | _ => none

def positive (i : Int) : Option Int :=
  if 0 < i then some i else none

section json

variable (jsonCpp : JsonCpp) (realString : Text → Text)

/-- A member of the file metadata, if it can be read as a text. -/
def issuer (issuerType : TextKey) (transfer : TransferFile) : Option Text :=
  match jsonCpp.read transfer.fileMetadata with
  | (json, true) =>
      if transfer.fileMetadata = [] then none
      else (jsonGet json issuerType.name.toList []).bind (asString realString)
  | (_, false) => none

def TextKey.wantedBy : TextKey → Call → Option Text
  | jobId => ofTransfer (·.jobId)
  | source => ofSingle [] (·.sourceSurl)
  | destination => ofSingle [] (·.destSurl)
  | bulkFile => fun
      | .setFromTransfer transfer isMultiple _ dir =>
          some (if isMultiple then dir ++ "/".toList ++ transfer.jobId else [])
      | _ => none
  | activity => ofSingle [] (·.activity)
  | checksum => ofSingle [] (·.checksum)
  | checksumMode => ofTransfer (·.checksumMode)
  | thirdPartyTURL => fun
      | .setThirdPartyTURL turl => some turl
      | _ => none
  | tokenBringonline => ofSingle [] (·.bringOnlineToken)
  | destTokenDesc => ofTransfer (·.destinationSpaceToken)
  | sourceTokenDesc => ofTransfer (·.sourceSpaceToken)
  | vo => ofTransfer (·.voName)
  | proxy => fun
      | .setProxy path => some path
      | _ => none
  | oauth => fun
      | .setOAuthFile path => some path
      | _ => none
  | sourceIssuer => ofTransfer fun transfer => (issuer jsonCpp realString sourceIssuer transfer).getD []
  -- not looked for after a source issuer that cannot be read
  | destIssuer => ofTransfer fun transfer =>
      ((issuer jsonCpp realString sourceIssuer transfer).bind fun _ =>
        issuer jsonCpp realString destIssuer transfer).getD []
  | authMethod => fun
      | .setAuthMethod method => some method
      | _ => none
  | copyMode => fun
      | .setCopyMode .push => some "push".toList
      | .setCopyMode .streaming => some "streamed".toList
      | .setCopyMode _ => some "pull".toList
      | _ => none
  | cloudConfig => fun
      | .setCloudConfig path => some path
      | _ => none
  | infosystem => fun
      | .setInfosystem infosys => some infosys
      | _ => none
  | ftsName => fun
      | .setFTSName hostname => some hostname
      | _ => none
  | logDir => fun
      | .setLogDir path => some path
      | _ => none
  | msgDir => fun
      | .setMonitoring _ dir => some dir
      | _ => none

end json

def MetadataKey.wantedBy : MetadataKey → Call → Option Text
  | userDn => fun
      | .setFromTransfer transfer _ publishUserDn _ => some (if publishUserDn then transfer.userDn else [])
      | _ => none
  | fileMetadata => ofSingle [] (·.fileMetadata)
  | transferMetadata => ofSingle [] (·.transferMetadata)
  | jobMetadata => ofTransfer (·.jobMetadata)

def NumberKey.wantedBy : NumberKey → Call → Option (Option Int)
  | fileId => ofSingle none fun transfer => some transfer.fileId.toNat
  | userFilesize => ofSingle none fun transfer => positive transfer.userFilesize.toInt
  | scitag => ofSingle none fun transfer => positive transfer.scitag.toInt
  | pingInterval => fun
      | .setPingInterval interval => some (some interval.toInt)
      | _ => none
  | level => fun
      | .setOptimizerLevel value => some (some value.toInt)
      | _ => none
  | nstreams => ofProtocol fun protocol => positive protocol.nostreams.toInt
  | tcpBuffersize => ofProtocol fun protocol => positive protocol.buffersize.toInt
  | timeout => ofProtocol fun protocol => positive protocol.timeout.toInt
  | secPerMb => fun
      | .setSecondsPerMB value => some (some value.toInt)
      | _ => none
  | retry => fun
      | .setNumberOfRetries count => some (some count.toInt)
      | _ => none
  | retryMax => fun
      | .setMaxNumberOfRetries count => some (some count.toInt)
      | _ => none
  | debug => fun
      | .setDebugLevel value => some (some value.toInt)
      | _ => none

/-- The version of the protocol. The parameters leave it to the other setter if they do not know it. -/
def Call.ipv6? : Call → Option (Option Bool)
  | setIPv6 set => some set
  | setFromProtocol protocol => protocol.ipv6.map some
  | _ => none

def FlagKey.wantedBy : FlagKey → Call → Option Bool
  | reuse => ofTransfer (·.jobType = .sessionReuse)
  | jobMReplica => ofTransfer (·.jobType = .multipleReplica)
  | lastReplica => ofTransfer (·.lastReplica ≠ 0)
  | jobMultihop => ofTransfer (·.jobType = .multiHop)
  | lastHop => ofTransfer (·.lastHop ≠ 0)
  | archiving => ofTransfer (0 < ·.archiveTimeout)
  | strictCopy => ofProtocol (·.strictCopy)
  | dstFileReport => ofTransfer fun transfer => 0 < transfer.archiveTimeout ∧ transfer.dstFileReport ≠ []
  | disableFallback => fun
      | .setCopyMode mode => some (mode = .pull ∨ mode = .push)
      | _ => none
  | retrieveSeToken => fun
      | .setRetrieveSEToken set => some set
      | _ => none
  | monitoring => fun
      | .setMonitoring set _ => some set
      | _ => none
  | overwrite => fun
      | .setFromTransfer transfer _ _ _ => some (transfer.overwriteFlag = ['Y'])
      | .setOverwrite set => some set
      | _ => none
  | udt => fun
      | .setUDT set => some (set = some true)
      | .setFromProtocol protocol => protocol.udt
      | _ => none
  | ipv6 => fun call => call.ipv6?.map (· = some true)
  | ipv4 => fun call => call.ipv6?.map (· = some false)
  | noDelegation => fun
      | .setDisableDelegation set => some set
      | _ => none
  | noStreaming => fun
      | .setDisableStreaming set => some set
      | _ => none
  | skipEvict => fun
      | .setSkipEvict set => some (set = some true)
      | _ => none

/-- What the last call has said. -/
def lastWord (word : Call → Option α) (calls : List Call) : Option α :=
  (calls.filterMap word).getLast?

/-- The values that the calls ask for. -/
def Values.wanted (jsonCpp : JsonCpp) (realString : Text → Text) (calls : List Call) : Values where
  text k := (lastWord (k.wantedBy jsonCpp realString) calls).getD []
  metadata k := (lastWord k.wantedBy calls).getD []
  number k := (lastWord k.wantedBy calls).join
  flag k := (lastWord k.wantedBy calls).getD false

end wanted

/-- The command line has each option that is wanted once and nothing else, and the process starts with these options. -/
structure RoundTrip (jsonCpp : JsonCpp) (realString : Text → Text) (files : Text → Text) (calls : List Call) : Prop where
  returned : ∃ parsed,
    getoptLongOnly longOptions (getArgv (UrlCopyCmd.ofCalls jsonCpp realString calls).generateParameters) =
      .nonOption [] :: parsed ∧
    parsed.Nodup ∧ ∀ p, p ∈ parsed ↔ (Values.wanted jsonCpp realString calls).Returns p
  options : ∃ opts transfers,
    UrlCopyOpts.parse files (getArgv (UrlCopyCmd.ofCalls jsonCpp realString calls).generateParameters) =
      .ok (opts, transfers) ∧
    opts.decoded = (Values.wanted jsonCpp realString calls).options ∧
    (opts.bulkFile = [] → transfers = [opts.referenceTransfer])

/-! ## When it works -/

/-- The flags that no setter takes back. -/
def FlagKey.stays : FlagKey → Bool
  | reuse | jobMReplica | jobMultihop | archiving | disableFallback => true
  | _ => false

/-- The option that a getter looks up. -/
def Call.gets : Call → Option NumberKey
  | getBuffersize => some .tcpBuffersize
  | getNoStreams => some .nstreams
  | getTimeout => some .timeout
  | _ => none

/-- An option that is not wanted has never had a value that would stay, and no getter has looked for it. -/
structure Settled (jsonCpp : JsonCpp) (realString : Text → Text) (calls : List Call) : Prop where
  text : ∀ k, (Values.wanted jsonCpp realString calls).text k = [] →
    ∀ call ∈ calls, ∀ v, k.wantedBy jsonCpp realString call = some v → v = []
  metadata : ∀ k, (Values.wanted jsonCpp realString calls).metadata k = [] →
    ∀ call ∈ calls, ∀ v, k.wantedBy call = some v → v = []
  number : ∀ k, (Values.wanted jsonCpp realString calls).number k = none →
    ∀ call ∈ calls, call.gets ≠ some k ∧ ∀ v, k.wantedBy call = some v → v = none
  flag : ∀ k, k.stays = true → (Values.wanted jsonCpp realString calls).flag k = false →
    ∀ call ∈ calls, k.wantedBy call ≠ some true

/-- The numbers that come back as they are. -/
def NumberKey.limit : NumberKey → Int
  | fileId => 2 ^ 64
  | userFilesize => 2 ^ 63
  | scitag | pingInterval | tcpBuffersize | timeout | debug => 2 ^ 32
  | level | nstreams | secPerMb | retry | retryMax => 2 ^ 31

/-- Texts without a blank or a null, and not the checksum `x`; metadata without a question mark or a null; numbers that are
not negative and not too large; and a transfer, or a bulk file that has some. -/
structure Transmissible (files : Text → Text) (v : Values) : Prop where
  text : ∀ k, ' ' ∉ v.text k ∧ '\x00' ∉ v.text k
  checksum : v.text .checksum ≠ ['x']
  metadata : ∀ k, '?' ∉ v.metadata k ∧ '\x00' ∉ v.metadata k
  number : ∀ k i, v.number k = some i → 0 ≤ i ∧ i < k.limit
  transfers :
    if v.text .bulkFile = [] then v.text .source ≠ [] ∧ v.text .destination ≠ []
    else ∃ t ts, initListFromFile {} (files (v.text .bulkFile)) = .ok (t :: ts)

end Fts3.UrlCopy
