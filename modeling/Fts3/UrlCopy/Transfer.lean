import Fts3.Common.Uri

/-!
# Transfers of `fts_url_copy`
-/

namespace Fts3.UrlCopy

inductive ErrorScope
  | transfer
  | destination
  | agent
  | source
  deriving Repr, DecidableEq

inductive ErrorPhase
  | transferPreparation
  | transfer
  | transferFinalization
  | transferService
  deriving Repr, DecidableEq

def EINTR : Int := 4

def EEXIST : Int := 17

def ECANCELED : Int := 125

/-- The characters of a query string. -/
def allowedOpaque : Text :=
  "abcdefghijklmnopqrstuvwxyzABCDEFGHIJKLMNOPQRSTUVWXYZ0123456789~-_.+&=%#?".toList

/-- The loop of `sanitizeQueryString`: `inQuery` while the characters belong to a query string that was replaced. -/
def sanitizeFrom : Bool → Text → Text
  | _, [] => []
  | inQuery, c :: cs =>
      if inQuery ∧ c ∈ allowedOpaque then sanitizeFrom true cs
      else if c = '?' then '?' :: "<redacted>".toList ++ sanitizeFrom true cs
      else c :: sanitizeFrom false cs

def sanitizeQueryString (text : Text) : Text :=
  sanitizeFrom false text

example : sanitizeQueryString "GET https://h/f?authz=a.b failed?".toList =
    "GET https://h/f?<redacted> failed?<redacted>".toList := by
  decide

/-- The text of the error carries no query string. -/
structure UrlCopyError where
  scope : ErrorScope
  phase : ErrorPhase
  code : Int
  msg : Text
  deriving Repr, DecidableEq

def UrlCopyError.new (scope : ErrorScope) (phase : ErrorPhase) (code : Int) (msg : Text) : UrlCopyError :=
  { scope, phase, code, msg := sanitizeQueryString msg }

inductive ChecksumMode
  | none
  | source
  | target
  | both
  deriving Repr, DecidableEq

/-- A transfer as the options of the process describe it. -/
structure Transfer where
  jobId : Text := []
  fileId : Nat := 0
  source : Uri := {}
  destination : Uri := {}
  checksumAlgorithm : Text := []
  checksumValue : Text := []
  userFileSize : Nat := 0
  activity : Text := []
  fileMetadata : Text := []
  transferMetadata : Text := []
  tokenBringOnline : Text := []
  sourceTokenDescription : Text := []
  destTokenDescription : Text := []
  sourceTokenIssuer : Text := []
  destTokenIssuer : Text := []
  scitag : Nat := 0
  isMultipleReplicaJob : Bool := false
  isLastReplica : Bool := false
  isMultihopJob : Bool := false
  isLastHop : Bool := false
  isArchiving : Bool := false
  checksumMode : ChecksumMode := .none
  deriving Repr, DecidableEq, Inhabited

end Fts3.UrlCopy
