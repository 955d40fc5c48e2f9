import Fts3.MySql.Transfers

/-!
# Configuration

`Config.cpp`: what the services ask the database about the retries of a job, the limits of a storage and the shares
of a link.
-/

namespace Fts3.MySql

open Fts3.Sql

/-- The order of `vo_name DESC`: a row without a VO comes last. -/
def ServerConfigRow.before (a b : ServerConfigRow) : Bool :=
  match a.voName, b.voName with
  | some _, none => true
  | some x, some y => y < x
  | none, _ => false

/-- The row for the VO: its own, that for any VO, or that without one, in the order of `vo_name DESC`. -/
def retryConfig (voName : String) (rows : List ServerConfigRow) : Option ServerConfigRow :=
  (rows.filter fun c => c.voName = some voName || c.voName = some "*" || c.voName.isNone).foldl
    (fun best c =>
      match best with
      | none => some c
      | some b => if c.before b then some c else some b) none

/-- The retries of the job or, without any, those of the configuration. A `NULL` in `t_server_config` raises an
exception, which is `none` here. -/
def configuredRetry (jobId : String) : Op (Option Int) := do
  let (nRetries, voName) ← select .rows fun db =>
    match db.jobs.find? jobId with
    | none => (0, "")
    | some j => (j.retry.getD 0, j.voName)
  if nRetries = 0 then
    select .rows fun db =>
      match retryConfig voName db.serverConfig with
      | none => some 0
      | some c => c.retry
  else pure (some (if nRetries ≤ 0 then -1 else nRetries))

def getRetry (node : Node) (jobId : String) : Op (Option Int) := do
  let nRetries ← configuredRetry jobId
  match nRetries with
  | none => pure none
  | some n =>
      -- do not retry multiple replica jobs
      if 0 < n then do
        let mreplica ← select .rows fun db => ((db.jobs.find? jobId).map (·.type)).getD node.uninitialized
        pure (some (if mreplica = .multipleReplica ∨ mreplica = .multiHop then 0 else n))
      else pure (some n)

def getRetryTimes (jobId : String) (fileId : Nat) : Op Int :=
  select .rows fun db => (((db.files.find? fileId).filter fun r => r.jobId = jobId).bind (·.retry)).getD 0

/-! ## Storages and links -/

structure StorageConfig where
  inboundMaxActive : Int := 0
  outboundMaxActive : Int := 0

/-- Everything that is not set in `a` is picked from `b`. -/
def StorageConfig.merge (a b : StorageConfig) : StorageConfig where
  inboundMaxActive := if a.inboundMaxActive ≤ 0 then b.inboundMaxActive else a.inboundMaxActive
  outboundMaxActive := if a.outboundMaxActive ≤ 0 then b.outboundMaxActive else a.outboundMaxActive

/-- The row of `t_se` for the storage; without one nothing is set. -/
def Db.storageConfig (storage : String) (db : Db) : StorageConfig :=
  match db.se.find? fun r => r.storage = storage with
  | none => {}
  | some r => ⟨r.inboundMaxActive.getD 0, r.outboundMaxActive.getD 0⟩

def getStorageConfig (storage : String) : Op StorageConfig := do
  let seConfig ← select .rows (Db.storageConfig storage)
  let seStarConfig ← select .rows (Db.storageConfig "*")
  pure (seConfig.merge seStarConfig)

def getShareConfig (source destination : String) : Op (List ShareConfigRow) :=
  select .rows fun db => db.shareConfig.filter fun c => c.source = source && c.destination = destination

end Fts3.MySql
