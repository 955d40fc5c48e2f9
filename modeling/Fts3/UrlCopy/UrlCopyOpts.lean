import Fts3.UrlCopy.BulkFile
import Fts3.UrlCopy.UrlCopyCmd

/-!
# The options of `fts_url_copy`

`UrlCopyOpts.cpp`: the process reads its command line with `getopt_long_only`, one option after the other.
-/

namespace Fts3.UrlCopy

open Fts3.Text Fts3.Getopt

inductive Opt
  | key (k : Key)
  | help
  | stderr
  deriving Repr, DecidableEq

namespace Opt

def text (k : TextKey) : Opt :=
  key (.arg (.text k))

def metadata (k : MetadataKey) : Opt :=
  key (.arg (.metadata k))

def number (k : NumberKey) : Opt :=
  key (.arg (.number k))

def flag (k : FlagKey) : Opt :=
  key (.flag k)

end Opt

def requiredArgument (name : String) (val : Opt) : LongOption Opt :=
  { name := name.toList, hasArg := true, val }

def noArgument (name : String) (val : Opt) : LongOption Opt :=
  { name := name.toList, hasArg := false, val }

def longOptions : List (LongOption Opt) :=
  [ requiredArgument "job-id" (.text .jobId),
    requiredArgument "file-id" (.number .fileId),
    requiredArgument "source" (.text .source),
    requiredArgument "destination" (.text .destination),
    requiredArgument "user-filesize" (.number .userFilesize),
    requiredArgument "bulk-file" (.text .bulkFile),
    noArgument "reuse" (.flag .reuse),
    noArgument "job-m-replica" (.flag .jobMReplica),
    noArgument "last-replica" (.flag .lastReplica),
    noArgument "job-multihop" (.flag .jobMultihop),
    noArgument "last-hop" (.flag .lastHop),
    noArgument "archiving" (.flag .archiving),
    requiredArgument "activity" (.text .activity),
    requiredArgument "checksum" (.text .checksum),
    requiredArgument "checksum-mode" (.text .checksumMode),
    noArgument "strict-copy" (.flag .strictCopy),
    noArgument "dst-file-report" (.flag .dstFileReport),
    requiredArgument "3rd-party-turl" (.text .thirdPartyTURL),
    requiredArgument "scitag" (.number .scitag),
    requiredArgument "token-bringonline" (.text .tokenBringonline),
    requiredArgument "dest-token-desc" (.text .destTokenDesc),
    requiredArgument "source-token-desc" (.text .sourceTokenDesc),
    requiredArgument "vo" (.text .vo),
    requiredArgument "user-dn" (.metadata .userDn),
    requiredArgument "proxy" (.text .proxy),
    requiredArgument "oauth" (.text .oauth),
    requiredArgument "source-issuer" (.text .sourceIssuer),
    requiredArgument "dest-issuer" (.text .destIssuer),
    requiredArgument "auth-method" (.text .authMethod),
    requiredArgument "copy-mode" (.text .copyMode),
    noArgument "disable-fallback" (.flag .disableFallback),
    noArgument "retrieve-se-token" (.flag .retrieveSeToken),
    requiredArgument "cloud-config" (.text .cloudConfig),
    requiredArgument "infosystem" (.text .infosystem),
    requiredArgument "alias" (.text .ftsName),
    noArgument "monitoring" (.flag .monitoring),
    requiredArgument "ping-interval" (.number .pingInterval),
    requiredArgument "file-metadata" (.metadata .fileMetadata),
    requiredArgument "transfer-metadata" (.metadata .transferMetadata),
    requiredArgument "job-metadata" (.metadata .jobMetadata),
    requiredArgument "level" (.number .level),
    noArgument "overwrite" (.flag .overwrite),
    requiredArgument "nstreams" (.number .nstreams),
    requiredArgument "tcp-buffersize" (.number .tcpBuffersize),
    requiredArgument "timeout" (.number .timeout),
    noArgument "udt" (.flag .udt),
    noArgument "ipv6" (.flag .ipv6),
    requiredArgument "sec-per-mb" (.number .secPerMb),
    noArgument "ipv4" (.flag .ipv4),
    noArgument "no-delegation" (.flag .noDelegation),
    noArgument "no-streaming" (.flag .noStreaming),
    noArgument "skip-evict" (.flag .skipEvict),
    requiredArgument "retry" (.number .retry),
    requiredArgument "retry_max-max" (.number .retryMax),
    requiredArgument "logDir" (.text .logDir),
    requiredArgument "msgDir" (.text .msgDir),
    noArgument "help" .help,
    requiredArgument "debug" (.number .debug),
    noArgument "stderr" .stderr ]

structure UrlCopyOpts where
  bulkFile : Text := []
  isSessionReuse : Bool := false
  strictCopy : Bool := false
  dstFileReport : Bool := false
  thirdPartyTURL : Text := []
  voName : Text := []
  userDn : Text := []
  proxy : Text := []
  oauthFile : Text := []
  cloudStorageConfig : Text := []
  infosys : Text := []
  ftsName : Text := []
  jobMetadata : Text := []
  authMethod : Text := []
  copyMode : Text := []
  disableCopyFallback : Bool := false
  retrieveSEToken : Bool := false
  optimizerLevel : Int := 0
  overwrite : Bool := false
  noDelegation : Bool := false
  nStreams : Int := 0
  tcpBuffersize : Int := 0
  timeout : Int := 0
  enableUdt : Bool := false
  /-- indeterminate when it is `none` -/
  enableIpv6 : Option Bool := none
  addSecPerMb : Int := 0
  noStreaming : Bool := false
  skipEvict : Bool := false
  enableMonitoring : Bool := false
  pingInterval : Int := 60
  retry : Int := 0
  retryMax : Int := 0
  logDir : Text := "/var/log/fts3".toList
  msgDir : Text := "/var/lib/fts3".toList
  debugLevel : Int := 0
  logToStderr : Bool := false
  /-- what `parse` collects for the transfers -/
  referenceTransfer : Transfer := {}

/-- How the process ends when it does not like its command line. -/
inductive Exit
  | usage
  | badLexicalCast
  | bulkFile
  | required
  deriving Repr, DecidableEq

/-- `strncmp` with the length of the first text. -/
def checksumModeOf (text : Text) : ChecksumMode :=
  if "target".toList <+: text ∨ ['t'] <+: text then .target
  else if "source".toList <+: text ∨ ['s'] <+: text then .source
  else if "both".toList <+: text ∨ ['b'] <+: text then .both
  else .none

/-- The names are the ones of gfal2. -/
def translateCopyMode (text : Text) : Text :=
  if text = "pull".toList then "3rd pull".toList
  else if text = "push".toList then "3rd push".toList
  else if text = "streamed".toList then "streamed".toList
  else []

/-- A signed number that is stored in an unsigned variable. -/
def lexicalCastStored (w : Nat) (text : Text) : Option Nat :=
  (lexicalCastSigned w text).map fun i => (i % 2 ^ w).toNat

/-- The `boost::lexical_cast` of the option. -/
def NumberKey.lexicalCast : NumberKey → Text → Option Nat
  | fileId => lexicalCastUnsigned 64
  | userFilesize => lexicalCastStored 64
  | scitag => lexicalCastUnsigned 32
  | pingInterval => lexicalCastUnsigned 32
  | level => lexicalCastStored 32
  | nstreams => lexicalCastStored 32
  | tcpBuffersize => lexicalCastUnsigned 32
  | timeout => lexicalCastUnsigned 32
  | secPerMb => lexicalCastStored 32
  | retry => lexicalCastStored 32
  | retryMax => lexicalCastStored 32
  | debug => lexicalCastUnsigned 32

namespace UrlCopyOpts

def setReference (opts : UrlCopyOpts) (f : Transfer → Transfer) : UrlCopyOpts :=
  { opts with referenceTransfer := f opts.referenceTransfer }

def setText (opts : UrlCopyOpts) (optarg : Text) : TextKey → UrlCopyOpts
  | .jobId => opts.setReference ({ · with jobId := optarg })
  | .source => opts.setReference ({ · with source := Uri.parse optarg })
  | .destination => opts.setReference ({ · with destination := Uri.parse optarg })
  | .bulkFile => { opts with bulkFile := optarg }
  | .activity => opts.setReference ({ · with activity := optarg })
  | .checksum => opts.setReference (setChecksum · optarg)
  | .checksumMode => opts.setReference ({ · with checksumMode := checksumModeOf optarg })
  | .thirdPartyTURL => { opts with thirdPartyTURL := optarg }
  | .tokenBringonline => opts.setReference ({ · with tokenBringOnline := optarg })
  | .destTokenDesc => opts.setReference ({ · with destTokenDescription := optarg })
  | .sourceTokenDesc => opts.setReference ({ · with sourceTokenDescription := optarg })
  | .vo => { opts with voName := optarg }
  | .proxy => { opts with proxy := optarg }
  | .oauth => { opts with oauthFile := optarg }
  | .sourceIssuer => opts.setReference ({ · with sourceTokenIssuer := optarg })
  | .destIssuer => opts.setReference ({ · with destTokenIssuer := optarg })
  | .authMethod => { opts with authMethod := optarg }
  | .copyMode => { opts with copyMode := translateCopyMode optarg }
  | .cloudConfig => { opts with cloudStorageConfig := optarg }
  | .infosystem => { opts with infosys := optarg }
  | .ftsName => { opts with ftsName := optarg }
  | .logDir => { opts with logDir := optarg }
  | .msgDir => { opts with msgDir := optarg }

/-- Only the metadata of the transfer are put back at once. -/
def setMetadata (opts : UrlCopyOpts) (optarg : Text) : MetadataKey → UrlCopyOpts
  | .userDn => { opts with userDn := optarg }
  | .fileMetadata => opts.setReference ({ · with fileMetadata := optarg })
  | .transferMetadata => opts.setReference ({ · with transferMetadata := replaceMetadataString optarg })
  | .jobMetadata => { opts with jobMetadata := optarg }

def setNumber (opts : UrlCopyOpts) (value : Nat) : NumberKey → UrlCopyOpts
  | .fileId => opts.setReference ({ · with fileId := value })
  | .userFilesize => opts.setReference ({ · with userFileSize := value })
  | .scitag => opts.setReference ({ · with scitag := value })
  | .pingInterval => { opts with pingInterval := value }
  | .level => { opts with optimizerLevel := value }
  | .nstreams => { opts with nStreams := value }
  | .tcpBuffersize => { opts with tcpBuffersize := value }
  | .timeout => { opts with timeout := value }
  | .secPerMb => { opts with addSecPerMb := value }
  | .retry => { opts with retry := value }
  | .retryMax => { opts with retryMax := value }
  | .debug => { opts with debugLevel := value }

def setFlag (opts : UrlCopyOpts) : FlagKey → UrlCopyOpts
  | .reuse => { opts with isSessionReuse := true }
  | .jobMReplica => opts.setReference ({ · with isMultipleReplicaJob := true })
  | .lastReplica => opts.setReference ({ · with isLastReplica := true })
  | .jobMultihop => opts.setReference ({ · with isMultihopJob := true })
  | .lastHop => opts.setReference ({ · with isLastHop := true })
  | .archiving => opts.setReference ({ · with isArchiving := true })
  | .strictCopy => { opts with strictCopy := true }
  | .dstFileReport => { opts with dstFileReport := true }
  | .disableFallback => { opts with disableCopyFallback := true }
  | .retrieveSeToken => { opts with retrieveSEToken := true }
  | .monitoring => { opts with enableMonitoring := true }
  | .overwrite => { opts with overwrite := true }
  | .udt => { opts with enableUdt := true }
  | .ipv6 => { opts with enableIpv6 := some true }
  | .ipv4 => { opts with enableIpv6 := some false }
  | .noDelegation => { opts with noDelegation := true }
  | .noStreaming => { opts with noStreaming := true }
  | .skipEvict => { opts with skipEvict := true }

/-- The switch over what `getopt_long_only` returns. -/
def step (opts : UrlCopyOpts) : Parsed Opt → Except Exit UrlCopyOpts
  | .option (.key (.arg (.text k))) optarg => .ok (opts.setText (optarg.getD []) k)
  | .option (.key (.arg (.metadata k))) optarg => .ok (opts.setMetadata (optarg.getD []) k)
  | .option (.key (.arg (.number k))) optarg =>
      match k.lexicalCast (optarg.getD []) with
      | some value => .ok (opts.setNumber value k)
      | none => .error .badLexicalCast
  | .option (.key (.flag k)) _ => .ok (opts.setFlag k)
  | .option .help _ => .error .usage
  | .option .stderr _ => .ok { opts with logToStderr := true }
  | .nonOption _ => .ok opts
  | .unrecognized => .error .usage

/-- The transfer of the options, or the ones of the bulk file, of which `files` is the text; no file has an empty path. -/
def transfers (files : Text → Text) (opts : UrlCopyOpts) : Except Exit (List Transfer) :=
  if opts.bulkFile = [] ∧ opts.referenceTransfer.source.fullUri ≠ [] ∧ opts.referenceTransfer.destination.fullUri ≠ [] then
    .ok [opts.referenceTransfer]
  else
    match initListFromFile opts.referenceTransfer (if opts.bulkFile = [] then [] else files opts.bulkFile) with
    | .ok [] => .error .required
    | .ok transfers => .ok transfers
    | .error _ => .error .bulkFile

/-- The options with the transfers. -/
def parse (files : Text → Text) (argv : List Text) : Except Exit (UrlCopyOpts × List Transfer) := do
  let opts ← (getoptLongOnly longOptions argv).foldlM step {}
  let transfers ← opts.transfers files
  pure (opts, transfers)

/-- The metadata as they are reported. -/
def decoded (opts : UrlCopyOpts) : UrlCopyOpts :=
  { opts with
    userDn := replaceMetadataString opts.userDn
    jobMetadata := replaceMetadataString opts.jobMetadata
    referenceTransfer := { opts.referenceTransfer with
      fileMetadata := replaceMetadataString opts.referenceTransfer.fileMetadata } }

end UrlCopyOpts

end Fts3.UrlCopy
