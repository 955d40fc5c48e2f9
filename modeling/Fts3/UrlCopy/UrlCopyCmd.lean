import Mathlib.Data.List.Sort
import Fts3.Common.Getopt
import Fts3.UrlCopy.DestFile
import Fts3.UrlCopy.TransferFile

/-!
# The command line of `fts_url_copy`

`UrlCopyCmd.cpp`: the server collects flags and options by setters, and writes them one after the other.
-/

namespace Fts3.UrlCopy

open Fts3.Text

/-! ## Options -/

/-- The options that have a text. -/
inductive TextKey
  | jobId | source | destination | bulkFile | activity | checksum | checksumMode | thirdPartyTURL | tokenBringonline
  | destTokenDesc | sourceTokenDesc | vo | proxy | oauth | sourceIssuer | destIssuer | authMethod | copyMode | cloudConfig
  | infosystem | ftsName | logDir | msgDir
  deriving Repr, DecidableEq

/-- The options that have a text with its blanks and quotes replaced. -/
inductive MetadataKey
  | userDn | fileMetadata | transferMetadata | jobMetadata
  deriving Repr, DecidableEq

inductive NumberKey
  | fileId | userFilesize | scitag | pingInterval | level | nstreams | tcpBuffersize | timeout | secPerMb | retry | retryMax
  | debug
  deriving Repr, DecidableEq

inductive FlagKey
  | reuse | jobMReplica | lastReplica | jobMultihop | lastHop | archiving | strictCopy | dstFileReport | disableFallback
  | retrieveSeToken | monitoring | overwrite | udt | ipv6 | ipv4 | noDelegation | noStreaming | skipEvict
  deriving Repr, DecidableEq

/-- An option with an argument. -/
inductive ArgKey
  | text (k : TextKey)
  | metadata (k : MetadataKey)
  | number (k : NumberKey)
  deriving Repr, DecidableEq

inductive Key
  | arg (k : ArgKey)
  | flag (k : FlagKey)
  deriving Repr, DecidableEq

def TextKey.name : TextKey → String
  | jobId => "job-id"
  | source => "source"
  | destination => "destination"
  | bulkFile => "bulk-file"
  | activity => "activity"
  | checksum => "checksum"
  | checksumMode => "checksum-mode"
  | thirdPartyTURL => "3rd-party-turl"
  | tokenBringonline => "token-bringonline"
  | destTokenDesc => "dest-token-desc"
  | sourceTokenDesc => "source-token-desc"
  | vo => "vo"
  | proxy => "proxy"
  | oauth => "oauth"
  | sourceIssuer => "source-issuer"
  | destIssuer => "dest-issuer"
  | authMethod => "auth-method"
  | copyMode => "copy-mode"
  | cloudConfig => "cloud-config"
  | infosystem => "infosystem"
  | ftsName => "alias"
  | logDir => "logDir"
  | msgDir => "msgDir"

def MetadataKey.name : MetadataKey → String
  | userDn => "user-dn"
  | fileMetadata => "file-metadata"
  | transferMetadata => "transfer-metadata"
  | jobMetadata => "job-metadata"

def NumberKey.name : NumberKey → String
  | fileId => "file-id"
  | userFilesize => "user-filesize"
  | scitag => "scitag"
  | pingInterval => "ping-interval"
  | level => "level"
  | nstreams => "nstreams"
  | tcpBuffersize => "tcp-buffersize"
  | timeout => "timeout"
  | secPerMb => "sec-per-mb"
  | retry => "retry"
  | retryMax => "retry_max"
  | debug => "debug"

def FlagKey.name : FlagKey → String
  | reuse => "reuse"
  | jobMReplica => "job-m-replica"
  | lastReplica => "last-replica"
  | jobMultihop => "job-multihop"
  | lastHop => "last-hop"
  | archiving => "archiving"
  | strictCopy => "strict-copy"
  | dstFileReport => "dst-file-report"
  | disableFallback => "disable-fallback"
  | retrieveSeToken => "retrieve-se-token"
  | monitoring => "monitoring"
  | overwrite => "overwrite"
  | udt => "udt"
  | ipv6 => "ipv6"
  | ipv4 => "ipv4"
  | noDelegation => "no-delegation"
  | noStreaming => "no-streaming"
  | skipEvict => "skip-evict"

def ArgKey.name : ArgKey → String
  | text k => k.name
  | metadata k => k.name
  | number k => k.name

/-- The keys of the map and the elements of the list of flags. -/
def Key.name : Key → String
  | arg k => k.name
  | flag k => k.name

/-! ## The command -/

structure UrlCopyCmd where
  /-- in the order of their keys -/
  options : List (Key × Text) := []
  flags : List Key := []

namespace UrlCopyCmd

/-- `options[key] = value` -/
def assignOption (options : List (Key × Text)) (k : Key) (value : Text) : List (Key × Text) :=
  (options.filter (·.1 ≠ k)).orderedInsert (fun a b => a.1.name ≤ b.1.name) (k, value)

def setFlag (c : UrlCopyCmd) (k : FlagKey) (set : Bool) : UrlCopyCmd where
  options := c.options.filter (·.1 ≠ .flag k)
  flags :=
    if set ∧ .flag k ∉ c.flags then c.flags ++ [.flag k]
    else if ¬ set ∧ .flag k ∈ c.flags then c.flags.erase (.flag k)
    else c.flags

/-- An empty value is left out. -/
def setOption (c : UrlCopyCmd) (k : ArgKey) (value : Text) : UrlCopyCmd where
  flags := if .arg k ∈ c.flags then c.flags.erase (.arg k) else c.flags
  options := if value ≠ [] then assignOption c.options (.arg k) value else c.options

/-- `options[key]` puts an empty value there if there is none. -/
def getOption (c : UrlCopyCmd) (k : ArgKey) : UrlCopyCmd :=
  if .arg k ∈ c.options.map (·.1) then c else { c with options := assignOption c.options (.arg k) [] }

def generateParameters (c : UrlCopyCmd) : Text :=
  (c.flags.flatMap fun flag => " --".toList ++ flag.name.toList) ++
    c.options.flatMap fun option => " --".toList ++ option.1.name.toList ++ " ".toList ++ option.2

end UrlCopyCmd

/-- The arguments of the program as `execvp` takes them: a C string ends at its first null. -/
def getArgv (arguments : Text) : List Text :=
  (arguments.splitOn ' ').map (·.takeWhile (· != '\x00'))

/-! ## Setters and getters -/

inductive CopyMode
  | any
  | pull
  | push
  | streaming
  deriving Repr, DecidableEq

/-- A tribool is indeterminate when it is `none`. -/
structure ProtocolParameters where
  nostreams : Int32 := 1
  timeout : Int32 := 0
  buffersize : Int32 := 0
  strictCopy : Bool := false
  ipv6 : Option Bool := none
  udt : Option Bool := none
  s3Alternate : Bool := false
  deriving DecidableEq

/-- The public methods of the command. -/
inductive Call
  | setLogDir (path : Text)
  | setMonitoring (set : Bool) (msgDir : Text)
  | setPingInterval (interval : Int32)
  | setInfosystem (infosys : Text)
  | setOptimizerLevel (level : Int32)
  | setDebugLevel (level : Int32)
  | setProxy (path : Text)
  | setUDT (set : Option Bool)
  | setIPv6 (set : Option Bool)
  | setSkipEvict (set : Option Bool)
  | setCopyMode (copyMode : CopyMode)
  | setFTSName (hostname : Text)
  | setCloudConfig (path : Text)
  | setOAuthFile (path : Text)
  | setAuthMethod (method : Text)
  | setRetrieveSEToken (set : Bool)
  | setFromTransfer (transfer : TransferFile) (isMultiple publishUserDn : Bool) (msgDir : Text)
  | setFromProtocol (protocol : ProtocolParameters)
  | setSecondsPerMB (value : Int64)
  | setNumberOfRetries (count : Int32)
  | setMaxNumberOfRetries (retryMax : Int32)
  | setDisableDelegation (set : Bool)
  | setDisableStreaming (set : Bool)
  | setOverwrite (set : Bool)
  | setThirdPartyTURL (thirdPartyTURL : Text)
  | getBuffersize
  | getNoStreams
  | getTimeout

/-- What a method does to the flags and to the options. -/
inductive Assignment
  | text (k : TextKey) (value : Text)
  /-- through `prepareMetadataString` -/
  | metadata (k : MetadataKey) (value : Text)
  | number (k : NumberKey) (value : Int)
  | flag (k : FlagKey) (set : Bool)
  | get (k : NumberKey)

def UrlCopyCmd.assign (c : UrlCopyCmd) : Assignment → UrlCopyCmd
  | .text k value => c.setOption (.text k) value
  | .metadata k value => c.setOption (.metadata k) (prepareMetadataString value)
  | .number k value => c.setOption (.number k) (printInt value)
  | .flag k set => c.setFlag k set
  | .get k => c.getOption (.number k)

section calls

variable (jsonCpp : JsonCpp) (realString : Text → Text)

/-- `Json::Value::get`, which throws for what has no members. -/
def jsonGet (json : Json) (key default : Text) : Option Json :=
  match json with
  | .null => some (.string default)
  | .object members => some ((members.get key).getD (.string default))
  | _ => none

/-- `Json::Value::asString`, which throws for what has parts. -/
def asString : Json → Option Text
  | .null => some []
  | .boolean b => some (if b then "true".toList else "false".toList)
  | .integer i => some (printInt i)
  | .real digits => some (realString digits)
  | .string s => some s
  | .array _ => none
  | .object _ => none

def issuerAssignments (json : Json) : List TextKey → List Assignment
  | [] => []
  | issuerType :: issuerTypes =>
      match (jsonGet json issuerType.name.toList []).bind (asString realString) with
      -- the exception ends the loop
      | none => []
      | some issuer =>
          (if issuer ≠ [] then [.text issuerType issuer] else []) ++ issuerAssignments json issuerTypes

def issuers (fileMetadata : Text) : List Assignment :=
  if fileMetadata = [] then []
  else
    match jsonCpp.read fileMetadata with
    | (json, true) => issuerAssignments realString json [.sourceIssuer, .destIssuer]
    | (_, false) => []

def setFromTransfer (transfer : TransferFile) (isMultiple publishUserDn : Bool) (msgDir : Text) : List Assignment :=
  List.flatten
    [ [.metadata .jobMetadata transfer.jobMetadata],
      match transfer.jobType with
      | .sessionReuse => [.flag .reuse true]
      | .multipleReplica => [.flag .jobMReplica true]
      | .multiHop => [.flag .jobMultihop true]
      | .regular | .other _ => [],
      [.text .vo transfer.voName, .text .jobId transfer.jobId, .flag .overwrite (transfer.overwriteFlag = ['Y'])],
      if transfer.checksumMode ≠ [] then [.text .checksumMode transfer.checksumMode] else [],
      if 0 < transfer.archiveTimeout then
        [.flag .archiving true, .flag .dstFileReport (transfer.dstFileReport ≠ [])]
      else [],
      [.text .destTokenDesc transfer.destinationSpaceToken, .text .sourceTokenDesc transfer.sourceSpaceToken],
      issuers jsonCpp realString transfer.fileMetadata,
      if publishUserDn then [.metadata .userDn transfer.userDn] else [],
      [.flag .lastReplica (transfer.lastReplica ≠ 0), .flag .lastHop (transfer.lastHop ≠ 0)],
      -- the files of a job of several ones are in the bulk file
      if isMultiple then [.text .bulkFile (msgDir ++ "/".toList ++ transfer.jobId)]
      else
        List.flatten
          [ [.number .fileId transfer.fileId.toNat, .text .source transfer.sourceSurl,
              .text .destination transfer.destSurl, .text .checksum transfer.checksum],
            if 0 < transfer.userFilesize then [.number .userFilesize transfer.userFilesize.toInt] else [],
            if 0 < transfer.scitag then [.number .scitag transfer.scitag.toInt] else [],
            [.text .tokenBringonline transfer.bringOnlineToken, .metadata .fileMetadata transfer.fileMetadata,
              .metadata .transferMetadata transfer.transferMetadata],
            if transfer.activity ≠ [] then [.text .activity transfer.activity] else [] ] ]

def setIPv6 : Option Bool → List Assignment
  | none => [.flag .ipv6 false, .flag .ipv4 false]
  | some value => [.flag .ipv6 value, .flag .ipv4 !value]

def setUDT (set : Option Bool) : List Assignment :=
  [.flag .udt (set.getD false)]

def setFromProtocol (protocol : ProtocolParameters) : List Assignment :=
  List.flatten
    [ if 0 < protocol.nostreams then [.number .nstreams protocol.nostreams.toInt] else [],
      if 0 < protocol.timeout then [.number .timeout protocol.timeout.toInt] else [],
      if 0 < protocol.buffersize then [.number .tcpBuffersize protocol.buffersize.toInt] else [],
      if protocol.ipv6.isSome then setIPv6 protocol.ipv6 else [],
      if protocol.udt.isSome then setUDT protocol.udt else [],
      [.flag .strictCopy protocol.strictCopy] ]

def setCopyMode : CopyMode → List Assignment
  | .any => [.text .copyMode "pull".toList]
  | .pull => [.flag .disableFallback true, .text .copyMode "pull".toList]
  | .push => [.flag .disableFallback true, .text .copyMode "push".toList]
  | .streaming => [.text .copyMode "streamed".toList]

def Call.assignments : Call → List Assignment
  | setLogDir path => [.text .logDir path]
  | setMonitoring set msgDir => [.text .msgDir msgDir, .flag .monitoring set]
  | setPingInterval interval => [.number .pingInterval interval.toInt]
  | setInfosystem infosys => [.text .infosystem infosys]
  | setOptimizerLevel level => [.number .level level.toInt]
  | setDebugLevel level => [.number .debug level.toInt]
  | setProxy path => [.text .proxy path]
  | setUDT set => UrlCopy.setUDT set
  | setIPv6 set => UrlCopy.setIPv6 set
  | setSkipEvict set => [.flag .skipEvict (set.getD false)]
  | setCopyMode copyMode => UrlCopy.setCopyMode copyMode
  | setFTSName hostname => [.text .ftsName hostname]
  | setCloudConfig path => [.text .cloudConfig path]
  | setOAuthFile path => [.text .oauth path]
  | setAuthMethod method => [.text .authMethod method]
  | setRetrieveSEToken set => [.flag .retrieveSeToken set]
  | setFromTransfer transfer isMultiple publishUserDn msgDir =>
      UrlCopy.setFromTransfer jsonCpp realString transfer isMultiple publishUserDn msgDir
  | setFromProtocol protocol => UrlCopy.setFromProtocol protocol
  | setSecondsPerMB value => [.number .secPerMb value.toInt]
  | setNumberOfRetries count => [.number .retry count.toInt]
  | setMaxNumberOfRetries retryMax => [.number .retryMax retryMax.toInt]
  | setDisableDelegation set => [.flag .noDelegation set]
  | setDisableStreaming set => [.flag .noStreaming set]
  | setOverwrite set => [.flag .overwrite set]
  | setThirdPartyTURL thirdPartyTURL => [.text .thirdPartyTURL thirdPartyTURL]
  | getBuffersize => [.get .tcpBuffersize]
  | getNoStreams => [.get .nstreams]
  | getTimeout => [.get .timeout]

/-- The command after the calls. -/
def UrlCopyCmd.ofCalls (calls : List Call) : UrlCopyCmd :=
  (calls.flatMap (Call.assignments jsonCpp realString)).foldl UrlCopyCmd.assign {}

end calls

end Fts3.UrlCopy
