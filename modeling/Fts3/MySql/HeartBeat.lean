import Fts3.MySql.Op

/-!
# Heartbeats

`updateHeartBeatInternal`: a node stores its beat, finds its place among the nodes that are alive, and with it
its segment of the hash space. The node with the first segment deletes the old rows of `t_hosts`.
-/

namespace Fts3.MySql

open Fts3.Sql

structure HashSegment where
  index : Nat
  count : Nat
  start : Nat
  last : Nat
  deriving DecidableEq, Repr

/-- Place `index` of `count` nodes; the last one takes over what is left. -/
def HashSegment.of (index count : Nat) : HashSegment :=
  let segsize := 65535 / count
  let segmod := 65535 % count
  { index, count, start := segsize * index
    last := segsize * (index + 1) - 1 + if index = count - 1 then segmod + 1 else 0 }

def HostRow.isAlive (grace now : Nat) (serviceName : String) (h : HostRow) : Bool :=
  (h.beat.any fun t => now ≤ t + grace) && h.serviceName = serviceName

/-- The place of the host among the living ones, by name, and their number. -/
def Db.hostIndex (db : Db) (node : Node) (serviceName : String) : Option (Nat × Nat) :=
  let hosts := db.hosts.filter (·.isAlive node.heartBeatGraceInterval db.now serviceName)
  if hosts.any fun h => h.hostname = node.hostname then
    some (hosts.countP fun h => h.hostname < node.hostname, hosts.length)
  else none

/-- Without its own row among the living ones the node divides by a count of zero, and ends there. -/
def updateHeartBeatInternal (node : Node) (serviceName : String) : Op (Option HashSegment) := do
  beginTx
  let _ ← execute (.updateBeat node.hostname serviceName)
  let place ← select .rows fun db => db.hostIndex node serviceName
  commit
  match place with
  | none => pure none
  | some (index, count) => do
      let segment := HashSegment.of index count
      if segment.start = 0 then do
        -- Delete old entries
        beginTx
        let _ ← execute .deleteOldHosts
        commit
        pure (some segment)
      else pure (some segment)

end Fts3.MySql
