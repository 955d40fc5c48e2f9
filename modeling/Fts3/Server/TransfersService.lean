import Fts3.MySql.Scheduling
import Fts3.Server.MessageProcessing

/-!
# The scheduling round

`VoShares.cpp`, `TransferFileHandler.cpp` and `TransfersService.cpp`: the queues with pending transfers, one VO for
each link, and the executors that are started within the limits of the storages. A round that is interrupted starts
no further executor.
-/

namespace Fts3.Server

open Fts3.Sql Fts3.MySql

/-! ## One VO per link -/

/-- The random choices of a round: also the order of the queues, and the VO of each link, by its position. -/
structure RoundChance extends Chance where
  shuffleQueues : List QueueId → List QueueId := id
  shuffled : ∀ queues, (shuffleQueues queues).Perm queues := by exact fun _ => List.Perm.refl _
  chosen : String × String → List Rat → Nat := fun _ _ => 0

section vo

variable (chance : RoundChance)

/-- The weights of the VOs of a link. Those without one share that of `public`; without any configuration, there is
only this one. -/
def finalWeights (vos : List (String × Nat)) (weights : List (String × Rat)) : List Rat :=
  let publicWeight : Rat := if weights.isEmpty then 1 else (weights.lookup "public").getD 0
  let publicCount := vos.countP fun vo => (weights.lookup vo.1).isNone
  let publicWeight := if 0 < publicCount then publicWeight / publicCount else publicWeight
  vos.map fun vo => (weights.lookup vo.1).getD publicWeight

def queueOf (pair : String × String) (vo : String × Nat) : QueueId where
  sourceSe := pair.1
  destSe := pair.2
  voName := vo.1
  activeCount := vo.2

/-- The queue of the link, picked by the weights of the VOs, and the queues that are never picked. -/
def selectQueueForPair (pair : String × String) (vos : List (String × Nat)) (weights : List (String × Rat)) :
    Option QueueId × List QueueId :=
  let ws := finalWeights vos weights
  let unschedulable := ((vos.zip ws).filter fun e => e.2 ≤ 0).map fun e => queueOf pair e.1
  if unschedulable.length = vos.length then (none, unschedulable)
  else (vos[chance.chosen pair ws]?.map (queueOf pair), unschedulable)

/-- The order of `Pair`. -/
def pairBefore (a b : String × String) : Prop := a.1 < b.1 ∨ a.1 = b.1 ∧ a.2 ≤ b.2

instance (a b : String × String) : Decidable (pairBefore a b) :=
  inferInstanceAs (Decidable (a.1 < b.1 ∨ a.1 = b.1 ∧ a.2 ≤ b.2))

/-- The VOs of a link, in the order of the queues. -/
def vosOf (queues : List QueueId) (pair : String × String) : List (String × Nat) :=
  (queues.filter fun q => q.pair = pair).map fun q => (q.voName, q.activeCount)

def weightsOf (shares : List ShareConfigRow) : List (String × Rat) :=
  shares.foldl (fun m share => mapInsert share.vo (share.active : Rat) m) []

/-- The loop over the links: the picked queues, and the unschedulable ones. -/
def selectQueues (queues : List QueueId) : List (String × String) → Op (List QueueId × List QueueId)
  | [] => pure ([], [])
  | pair :: pairs => do
      let shares ← getShareConfig pair.1 pair.2
      let (chosen, unschedulable) := selectQueueForPair chance pair (vosOf queues pair) (weightsOf shares)
      let rest ← selectQueues queues pairs
      pure (chosen.toList ++ rest.1, unschedulable ++ rest.2)

def applyVoShares (queues : List QueueId) : Op (List QueueId × List QueueId) :=
  selectQueues chance queues ((queues.map QueueId.pair).dedup.insertionSort pairBefore)

end vo

/-! ## The transfers in turn -/

/-- The transfers of each VO. -/
structure FileMap where
  entries : List (String × List TransferFile)
  nodup : (entries.map (·.1)).Nodup
  nonempty : ∀ e ∈ entries, e.2 ≠ []

/-- The transfers by their VOs, in order. -/
def FileMap.byVo (files : List TransferFile) : FileMap where
  entries := ((files.map (·.voName)).dedup.insertionSort (· ≤ ·)).map fun vo => (vo, files.filter fun tf => tf.voName = vo)
  nodup := by
    have hkeys : ∀ vos : List String, (vos.map fun vo => (vo, files.filter fun tf => tf.voName = vo)).map (·.1) = vos := by
      intro vos
      rw [List.map_map]
      exact List.map_id _
    rw [hkeys]
    exact (List.perm_insertionSort _ _).nodup_iff.mpr (List.nodup_dedup _)
  nonempty := by
    intro e he
    obtain ⟨vo, hvo, rfl⟩ := List.mem_map.mp he
    rw [List.mem_insertionSort, List.mem_dedup] at hvo
    obtain ⟨tf, htf, rfl⟩ := List.mem_map.mp hvo
    exact List.ne_nil_of_mem (List.mem_filter.mpr ⟨htf, by simp⟩)

/-- The file indexes of a VO by link, in the order of the links, and the position of the link whose turn it is. -/
structure VoQueue where
  pairs : List ((String × String) × List (String × Int))
  next : Nat := 0

/-- The next file index of the VO; past the last link it wraps around, and a link without any more is removed. -/
def VoQueue.getIndex (q : VoQueue) : Option ((String × Int) × VoQueue) :=
  let i := if q.next < q.pairs.length then q.next else 0
  match q.pairs[i]? with
  | some (pair, index :: rest) =>
      if rest.isEmpty then some (index, { pairs := q.pairs.eraseIdx i, next := i })
      else some (index, { pairs := q.pairs.set i (pair, rest), next := i + 1 })
  | _ => none

/-- `files` are the transfers that have not been handed out, by their indexes; `queues` the VOs that still have an
index. -/
structure TransferFileHandler where
  files : List TransferFile
  queues : List (String × VoQueue)
  vos : List String

namespace TransferFileHandler

/-- The first file of each index. -/
def firstOfIndex (files : List TransferFile) : List TransferFile :=
  files.foldl (fun seen tf => if (seen.map (·.index)).contains tf.index then seen else seen ++ [tf]) []

/-- The file indexes of a VO, each once, by link. -/
def voQueue (files : List TransferFile) : VoQueue where
  pairs := (((firstOfIndex files).map (·.pair)).dedup.insertionSort pairBefore).map fun pair =>
    (pair, ((firstOfIndex files).filter fun tf => tf.pair = pair).map (·.index))

def getMapFromCache (files : FileMap) : TransferFileHandler where
  files := files.entries.flatMap (·.2)
  queues := files.entries.map fun e => (e.1, voQueue e.2)
  vos := files.entries.map (·.1)

/-- From what `getReadyTransfers` has found. -/
def init (files : List TransferFile) : TransferFileHandler := getMapFromCache (.byVo files)

def isEmpty (h : TransferFileHandler) : Bool := h.queues.isEmpty

def size (h : TransferFileHandler) : Nat :=
  (h.queues.map fun vo => (vo.2.pairs.map fun pair => pair.2.length).sum).sum

/-- The next transfer of the VO. -/
def get (h : TransferFileHandler) (vo : String) : Option TransferFile × TransferFileHandler :=
  match h.queues.lookup vo with
  | none => (none, h)
  | some q =>
      match q.getIndex with
      | none => (none, h)
      | some (index, q) =>
          let others := h.queues.filter fun e => e.1 ≠ vo
          let queues := if q.pairs.isEmpty then others else h.queues.map fun e => if e.1 = vo then (vo, q) else e
          (h.files.find? fun tf => tf.index = index,
            { h with files := h.files.eraseP fun tf => tf.index = index, queues })

end TransferFileHandler

/-! ## Slots of the storages -/

/-- The slots left for each storage as a source and as a destination. -/
structure SlotsLeft where
  source : String → Option Int := fun _ => none
  destination : String → Option Int := fun _ => none

namespace SlotsLeft

def limitOf (maxActive : Int) : Int := if 0 < maxActive then maxActive else 60

/-- To reduce queries, fill in one go limits as source and as destination. -/
def fill (m : SlotsLeft) (se : String) (seConfig : StorageConfig) : SlotsLeft where
  source x := if x = se then some (limitOf seConfig.outboundMaxActive) else m.source x
  destination x := if x = se then some (limitOf seConfig.inboundMaxActive) else m.destination x

/-- Take `n` slots of the link. -/
def take (m : SlotsLeft) (sourceSe destSe : String) (n : Nat) : SlotsLeft where
  source x := (m.source x).map fun k => if x = sourceSe then k - n else k
  destination x := (m.destination x).map fun k => if x = destSe then k - n else k

end SlotsLeft

def fillDestination (m : SlotsLeft) (q : QueueId) : Op SlotsLeft :=
  if (m.destination q.destSe).isNone then do
    let seConfig ← getStorageConfig q.destSe
    pure (m.fill q.destSe seConfig)
  else pure m

def fillSource (m : SlotsLeft) (q : QueueId) : Op SlotsLeft :=
  if (m.source q.sourceSe).isNone then do
    let seConfig ← getStorageConfig q.sourceSe
    pure (m.fill q.sourceSe seConfig)
  else pure m

/-- The limits of the storages of the queues, less what is active in these queues. -/
def slotsLeft : List QueueId → SlotsLeft → Op SlotsLeft
  | [], m => pure m
  | q :: queues, m => do
      let m ← fillDestination m q
      let m ← fillSource m q
      -- Once it is filled, decrement
      slotsLeft queues (m.take q.sourceSe q.destSe q.activeCount)

/-! ## The round -/

structure ServeState where
  handler : TransferFileHandler
  availableUrlCopySlots : Int
  slots : SlotsLeft
  started : List TransferFile := []

namespace ServeState

/-- The turn of a VO. An entry that is not in the map is created with no slots. -/
def serve (st : ServeState) (vo : String) : ServeState :=
  if st.availableUrlCopySlots ≤ 0 then st
  else
    match st.handler.get vo with
    -- if this VO has no more files to process just continue
    | (none, handler) => { st with handler }
    | (some tf, handler) =>
        -- just to be sure
        if tf.fileId = 0 ∨ tf.userDn = "" ∨ tf.credId = "" then { st with handler }
        else if (st.slots.destination tf.destSe).getD 0 ≤ 0 then { st with handler }
        else if (st.slots.source tf.sourceSe).getD 0 ≤ 0 then { st with handler }
        else
          { handler
            availableUrlCopySlots := st.availableUrlCopySlots - 1
            slots := st.slots.take tf.sourceSe tf.destSe 1
            started := st.started ++ [tf] }

/-- Loop until all files have been served; each pass over the VOs takes at least one of their file indexes. -/
def serveAll : Nat → ServeState → ServeState
  | 0, st => st
  | n + 1, st =>
      if st.handler.isEmpty ∨ st.availableUrlCopySlots ≤ 0 then st
      else serveAll n (st.handler.vos.foldl serve st)

end ServeState

/-- `MaxUrlCopyProcesses`, and the `fts_url_copy` processes when the round begins and when it starts to fork. -/
structure Processes where
  maxUrlCopy : Int
  atStart : Int := 0
  atFork : Int := 0

section round

variable (node : Node) (tTime : Nat) (chance : RoundChance)

/-- The executors that are started, as the transfers that they are given. -/
def getFiles (processes : Processes) (queues : List QueueId) : Op (List TransferFile) := do
  let slots ← slotsLeft queues {}
  if queues.isEmpty then pure []
  else do
    let voQueues ← getReadyTransfers node tTime chance.toChance queues
    -- an exception ends the round, as no files do
    let tfh := TransferFileHandler.init (voQueues.getD [])
    let st := ServeState.serveAll tfh.size
      { handler := tfh, availableUrlCopySlots := processes.maxUrlCopy - processes.atFork, slots }
    pure st.started

def eperm : Int := 1

/-- The status messages that fail the transfers of queues without a share. -/
def failUnschedulable (unschedulable : List QueueId) : Op (Option (List Message)) := do
  let voQueues ← getReadyTransfers node tTime chance.toChance unschedulable
  pure (voQueues.map fun files => files.map fun tf =>
    { jobId := tf.jobId, fileId := tf.fileId, transferStatus := .failed
      transferMessage := "No share configured for this VO", errcode := eperm })

/-- A round: the executors that it starts, and the messages that it sends. -/
def executeUrlcopy (processes : Processes) : Op (List TransferFile × List Message) :=
  -- Bail out as soon as possible if there are too many url-copy processes
  if processes.maxUrlCopy - processes.atStart ≤ 0 then pure ([], [])
  else do
    let queues ← getQueuesWithPending
    let (queues, unschedulable) ← applyVoShares chance (chance.shuffleQueues queues)
    let failed ← failUnschedulable node tTime chance unschedulable
    match failed with
    -- the exception ends the round
    | none => pure ([], [])
    | some failed =>
        if queues.isEmpty then pure ([], failed)
        else do
          let started ← getFiles node tTime chance processes queues
          pure (started, failed)

end round

end Fts3.Server
