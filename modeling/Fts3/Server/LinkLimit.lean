import Fts3.Server.FileTransferExecutor
import Fts3.Server.MessageProcessing
import Fts3.MySql.Lemmas.Ready
import Fts3.MySql.Lemmas.Writes

/-!
# The limit of a link

Scheduling rounds on any number of nodes and the status messages of their transfers, against the limit that the
optimizer has set for a pair of storages.
-/

namespace Fts3.Server

open Fts3.Sql Fts3.MySql

/-! ## The parties -/

/-- A worker takes the transfer at the place `k` of what a round has fetched; the workers of one round fetch
together. A message reports `ACTIVE` or a terminal state. -/
inductive LinkParty where
  | worker (node : Node) (tTime : Nat) (chance : Chance) (queues : List QueueId) (k : Nat) (spawn : Spawn)
  | message (node : Node) (msg : Message) (reported : msg.transferStatus = .active ∨ msg.transferStatus.terminal = true)

def LinkParty.prog : LinkParty → Op Unit
  | worker node tTime chance queues k spawn => do
      let files ← getReadyTransfers node tTime chance queues
      match (files.getD [])[k]? with
      | none => pure ()
      | some tf => FileTransferExecutor.run node spawn tf
  | message node msg _ => performOtherMessageDbChange node msg

/-- The statements of a run of the parties. -/
def LinkParty.steps (db : Db) (parties : List LinkParty) (schedule : List Nat) : List Step :=
  (Pool.start db (parties.map LinkParty.prog)).trace Stmt.exec schedule

/-! ## The limit -/

def onLink (s d : String) (r : FileRow) : Bool := r.sourceSe = s && r.destSe = d

/-- A live or starting `fts_url_copy`. -/
def running (st : FileState) : Bool := st = .ready || st = .active

/-- The transfers of the pair that run or are about to. -/
def runningOn (s d : String) (db : Db) : Nat :=
  db.files.matched fun r => onLink s d r && running r.fileState

/-- A transfer of the pair becomes `READY` or `ACTIVE`. -/
def startsOn (s d : String) (e : Step) : Bool :=
  match e.act with
  | .update (.file u) => e.pre.files.rows.any fun r => onLink s d r && u.selects r && !running r.fileState &&
      u.writes?.any running
  | _ => false

/-- The `UPDATE` of `updateTransferStatus` to `READY`. -/
def claimsReady (e : Step) : Bool :=
  match e.act with
  | .update (.file (.updateFileTransferStatus u)) => u.newState = .ready
  | _ => false

/-- What a client remembers: the last `ACTIVE` count of the pair. -/
def seeCount (s d : String) : Sel → Db → Option Nat → Option Nat
  | .activeCount s' d', db, n => if s' = s ∧ d' = d then some (db.activeCount s d) else n
  | _, _, n => n

/-- A transfer of the pair only starts with the claim of an executor whose last count covers all that run then. -/
def ClaimCovered (s d : String) (es : List Step) (e : Step) : Prop :=
  startsOn s d e = true → claimsReady e = true ∧
    ∀ n ∈ Event.memory (seeCount s d) none e.caller es, runningOn s d e.pre ≤ n

instance (s d : String) (es : List Step) (e : Step) : Decidable (ClaimCovered s d es e) :=
  inferInstanceAs (Decidable (_ → _ ∧ ∀ n ∈ Event.memory (seeCount s d) none e.caller es, runningOn s d e.pre ≤ n))

/-! ## What the claim asks -/

/-- Every query but the count of a pair. -/
def CountsNothing : Sel → Prop
  | .activeCount _ _ => False
  | _ => True

theorem seeCount_eq {q : Sel} (hq : CountsNothing q) (s d : String) (db : Db) (n : Option Nat) :
    seeCount s d q db n = n := by
  cases q <;> first | rfl | cases hq

theorem asks_queuedPerLink (vo : String) (links : List (String × String)) :
    (queuedPerLink vo links).Asks CountsNothing := by
  induction links with
  | nil => trivial
  | cons link links ih =>
      simp only [queuedPerLink, Proc.bind_eq, select_bind, Proc.asks_select, Proc.asks_ite]
      exact ⟨trivial, fun db => ⟨fun _ => trivial, fun _ => ih.bind fun _ => trivial⟩⟩

theorem asks_getBestNextReplica (node : Node) (j vo : String) :
    (getBestNextReplica node j vo).Asks CountsNothing := by
  simp only [getBestNextReplica, Proc.bind_eq, select_bind, Proc.asks_select]
  refine ⟨trivial, fun db => (asks_queuedPerLink vo _).bind fun pair => ?_⟩
  split
  · trivial
  · exact ⟨trivial, fun _ => trivial⟩

theorem asks_useFileReplica (node : Node) (j : String) (f : Nat) (uuid : Option String) :
    (useFileReplica node j f uuid).Asks CountsNothing := by
  simp only [useFileReplica, Proc.bind_eq, select_bind, Proc.asks_select, Proc.asks_ite]
  refine ⟨trivial, fun db => ⟨fun _ => trivial, fun _ => ⟨trivial, fun db => ⟨trivial, fun db => ?_⟩⟩⟩⟩
  refine ⟨fun _ => (asks_getBestNextReplica node j _).bind fun f' => ?_, fun _ _ => trivial⟩
  simp

theorem asks_afterFileUpdate (node : Node) (j : String) (f : Nat) (job : JobInfo) (st : FileState)
    (uuid : Option String) : (afterFileUpdate node j f job st uuid).Asks CountsNothing := by
  unfold afterFileUpdate
  extract_lets jobAlive
  split
  · split
    · exact (asks_useFileReplica node j f uuid).bind fun _ => trivial
    · trivial
  · split
    · simp [useNextHop, getNextHop, CountsNothing, Proc.ite_bind, commit, Proc.control]
    · simp [setNullDestSURLMultiHop, commit, Proc.control]
  · trivial

theorem asks_updateFileState (node : Node) (a : TransferStatus) (j : String) (f : Nat) :
    (updateFileState node a j f).Asks CountsNothing := by
  have hstore : ∀ job stored uuid archiving,
      (storeFileState node a j f job stored uuid archiving).Asks CountsNothing := by
    intro job stored uuid archiving
    rw [storeFileState_eq, Proc.asks_update]
    intro n
    simp only [Proc.asks_ite]
    exact ⟨fun _ => trivial, fun _ => (asks_afterFileUpdate node j f job _ uuid).bind fun _ => trivial⟩
  simp only [updateFileState, Proc.bind_eq, select_bind, Proc.asks_select, Proc.asks_ite]
  refine ⟨trivial, fun db => ⟨trivial, fun db₁ => ⟨fun _ => trivial, fun _ => ⟨fun _ => ?_, fun _ => hstore _ _ _ _⟩⟩⟩⟩
  refine Proc.Asks.bind ?_ fun archiving => hstore _ _ _ archiving
  simp only [isArchivingTransfer, getNextHop]
  split <;> simp [CountsNothing]

theorem asks_updateFileTransferStatusInternal (node : Node) (a : TransferStatus) :
    (updateFileTransferStatusInternal node a).Asks CountsNothing := by
  have hfile : (fileToUpdate a).Asks CountsNothing := by
    unfold fileToUpdate
    split
    · exact ⟨trivial, fun _ => trivial⟩
    · trivial
  exact hfile.bind fun ids => asks_updateFileState node a ids.1 ids.2

theorem asks_updateJobTransferStatusInternal (node : Node) (j : String) (st : FileState) :
    (updateJobTransferStatusInternal node j st).Asks CountsNothing := by
  have hstore : ∀ st, (storeJobState j st).Asks CountsNothing := by
    intro st
    unfold storeJobState
    split <;> simp
  have hfin : ∀ n old se, (storeFinishedJob node j n old se).Asks CountsNothing := by
    intro n old se
    simp [storeFinishedJob, CountsNothing]
  have hunf : ∀ n old, (storeUnfinishedJob j st n old).Asks CountsNothing := by
    intro n old
    simp only [storeUnfinishedJob, Proc.bind_eq, select_bind, Proc.asks_ite, Proc.asks_select]
    simp [hstore, CountsNothing]
  have hagg : ∀ old se, (aggregateJob node j st old se).Asks CountsNothing := by
    intro old se
    simp [aggregateJob, countFiles, selectCount, hfin, hunf, CountsNothing]
  simp [updateJobTransferStatusInternal, hagg, CountsNothing]

theorem asks_claim (node : Node) (spawn : Spawn) (tf : TransferFile) : (claim node spawn tf).Asks CountsNothing := by
  have hprocess : (executeProcess node spawn tf).Asks CountsNothing := by
    unfold executeProcess
    refine Proc.Asks.bind (p := updateProtocol _) ?_ fun _ => ?_
    · simp [updateProtocol, Spawn.message, commit, Proc.control]
    · cases spawn.pid with
      | none =>
          refine (asks_updateFileTransferStatusInternal node _).bind fun _ => ?_
          exact (asks_updateJobTransferStatusInternal node _ _).bind fun _ => trivial
      | some pid => exact (asks_updateFileTransferStatusInternal node _).bind fun _ => trivial
  refine (asks_updateFileTransferStatusInternal node _).bind fun updated => ?_
  refine (asks_updateJobTransferStatusInternal node _ _).bind fun _ => ?_
  simp [hprocess]

/-! ## What the parties know -/

/-- The optimizer has set the limit of the pair. -/
def HasLimit (s d : String) (limit : Nat) (db : Db) : Prop :=
  ∃ o, db.optimizer.find? (fun o => o.sourceSe = s && o.destSe = d) = some o ∧ o.active = some (limit : Int)

/-- The file is one of the start, with its job and its storages. -/
def SameFile (db₀ : Db) (f : Nat) (j s d : String) : Prop :=
  ∃ r ∈ db₀.files.rows, r.fileId = f ∧ r.jobId = j ∧ r.sourceSe = s ∧ r.destSe = d

/-- The `UPDATE` claims a file of the pair. -/
def ClaimOn (s d : String) (db₀ : Db) : Stmt → Prop
  | .file (.updateFileTransferStatus u) => u.newState = .ready ∧ ∃ j, SameFile db₀ u.fileId j s d
  | _ => False

/-- The limits stay as they are. -/
def keepsLimits : Stmt → Bool
  | .optimizer _ => false
  | _ => true

/-- The `UPDATE` claims no file of the pair. -/
def ClaimsNone (s d : String) (db₀ : Db) (u : Stmt) : Prop := keepsLimits u = true ∧ ¬ClaimOn s d db₀ u

/-- A file of the pair is only claimed by who has last counted less than the limit. -/
def linkRule (s d : String) (limit : Nat) (db₀ : Db) : Rule Db Sel Stmt (Option Nat) where
  inv db := HasLimit s d limit db ∧ ∀ r ∈ db.files.rows, SameFile db₀ r.fileId r.jobId r.sourceSe r.destSe
  see := seeCount s d
  allow u n? := keepsLimits u = true ∧ (ClaimOn s d db₀ u → ∃ n, n? = some n ∧ n < limit)

section rule

variable {s d : String} {limit : Nat} {db₀ : Db}

theorem linkRule_start (h : HasLimit s d limit db₀) : (linkRule s d limit db₀).inv db₀ :=
  ⟨h, fun r hr => ⟨r, hr, rfl, rfl, rfl, rfl⟩⟩

theorem linkRule_exec (u : Stmt) (n : Option Nat) (db : Db) (hallow : (linkRule s d limit db₀).allow u n)
    (h : (linkRule s d limit db₀).inv db) : (linkRule s d limit db₀).inv (u.exec db).2 := by
  obtain ⟨hlimit, hrows⟩ := h
  cases u with
  | file u =>
      refine ⟨hlimit, fun r hr => ?_⟩
      obtain ⟨r₀, hr₀, rfl⟩ := List.mem_map.mp hr
      split
      · have hlink := u.sets_link db.now r₀
        rw [u.sets_fileId, u.sets_jobId, hlink.1, hlink.2]
        exact hrows r₀ hr₀
      · exact hrows r₀ hr₀
  | deleteFiles ids => exact ⟨hlimit, fun r hr => hrows r (List.mem_filter.mp hr).1⟩
  | optimizer u => exact absurd hallow.1 Bool.false_ne_true
  | _ => exact ⟨hlimit, hrows⟩

theorem SameFile.eq {f : Nat} {j s' d' j' : String} (h : SameFile db₀ f j s' d') (h' : SameFile db₀ f j' s d) :
    s' = s ∧ d' = d := by
  obtain ⟨r, hr, hid, -, rfl, rfl⟩ := h
  obtain ⟨r', hr', hid', -, rfl, rfl⟩ := h'
  obtain rfl : r = r' := by
    have hfind := Table.find?_key hr
    rw [hid, ← hid', Table.find?_key hr'] at hfind
    exact (Option.some.inj hfind).symm
  exact ⟨rfl, rfl⟩

/-- A fetched transfer is a row of the table. -/
def Fetched (db₀ : Db) (tf : TransferFile) : Prop :=
  SameFile db₀ tf.fileId tf.jobId tf.sourceSe tf.destSe

theorem readyRows_fetched {node : Node} {tTime : Nat} {q : QueueId} {p : Int} {types : List JobType}
    {ofActivity : FileRow → Bool} {k : Nat} {db : Db} (hdb : (linkRule s d limit db₀).inv db) :
    ∀ tf ∈ readyRows node tTime q p types ofActivity k db, Fetched db₀ tf := by
  intro tf htf
  obtain ⟨r, hr, htf⟩ := List.mem_filterMap.mp (List.mem_of_mem_take htf)
  obtain ⟨job, -, rfl⟩ := Option.map_eq_some_iff.mp htf
  exact hdb.2 r (List.mem_filter.mp ((List.mem_insertionSort _).mp hr)).1

/-! ## The executor and the messages -/

theorem not_claimOn_of_ne {f : Nat} {j s' d' : String} (h : SameFile db₀ f j s' d') (hne : ¬(s' = s ∧ d' = d))
    {u : StatusUpdate} (hu : u.fileId = f) : ¬ClaimOn s d db₀ (.file (.updateFileTransferStatus u)) := by
  rintro ⟨-, j', h'⟩
  exact hne (h.eq (hu ▸ h'))

theorem issues_updateJobStatus_of {P : Stmt → Prop} (hjob : ∀ u, P (.job u))
    (hcancel : ∀ j, P (.file (.cancelUnusedMultihopFiles j))) (node : Node) (j : String) (st : FileState) :
    (updateJobTransferStatusInternal node j st).Issues P :=
  issues_updateJobTransferStatusInternal (fun _ _ _ _ => hjob _) (hjob _) (fun _ => hjob _) (hjob _) (hcancel j) node st

theorem issues_claim {P : Stmt → Prop} {node : Node} {tf : TransferFile}
    (hstatus : ∀ a : TransferStatus, a.jobId = tf.jobId → a.fileId = tf.fileId → a.newFileState ≠ .finished →
      (updateFileTransferStatusInternal node a).Issues P)
    (hupdateJob : ∀ st, (updateJobTransferStatusInternal node tf.jobId st).Issues P)
    (hprotocol : ∀ f params size, P (.file (.updateProtocol f params size))) (spawn : Spawn) :
    (claim node spawn tf).Issues P := by
  have hprocess : (executeProcess node spawn tf).Issues P := by
    unfold executeProcess
    refine Proc.Issues.bind (p := updateProtocol _) ?_ fun _ => ?_
    · simp [updateProtocol, Spawn.message, commit, Proc.control, hprotocol]
    · cases spawn.pid with
      | none => exact (hstatus _ rfl rfl (by simp)).bind fun _ => (hupdateJob _).bind fun _ => trivial
      | some pid => exact (hstatus _ rfl rfl (by simp)).bind fun _ => trivial
  refine (hstatus _ rfl rfl (by simp)).bind fun updated => (hupdateJob _).bind fun _ => ?_
  simp [hprocess]

/-- An executor of another pair claims no file of this one. -/
theorem claim_issues {tf : TransferFile} (htf : Fetched db₀ tf) (hjob : tf.jobId ≠ "") (hid : tf.fileId ≠ 0)
    (hne : ¬(tf.sourceSe = s ∧ tf.destSe = d)) (node : Node) (spawn : Spawn) :
    (claim node spawn tf).Issues (ClaimsNone s d db₀) := by
  refine issues_claim (fun a hj hf _ => ?_) (issues_updateJobStatus_of (fun _ => ⟨rfl, id⟩) (fun _ => ⟨rfl, id⟩) node _)
    (fun _ _ _ => ⟨rfl, id⟩) spawn
  have hown : fileToUpdate a = .ret (a.jobId, a.fileId) := by
    unfold fileToUpdate
    rw [if_neg (by simp [hj, hf, hjob, hid])]
    rfl
  simp only [updateFileTransferStatusInternal, Proc.bind_eq, beginTx_bind, hown, Proc.ret_bind, Proc.issues_tx]
  exact issues_updateFileState (fun _ _ _ => ⟨rfl, id⟩) (fun _ _ => ⟨rfl, id⟩) (fun _ => ⟨rfl, id⟩)
    (fun u hu _ _ _ => ⟨rfl, not_claimOn_of_ne htf hne (hu.trans hf)⟩) a.jobId

theorem isTrAllowed_follows (n : Option Nat) :
    (isTrAllowed s d).Follows (linkRule s d limit db₀)
      (fun allowed n => allowed = some true → ∃ m, n = some m ∧ m < limit) n := by
  simp only [isTrAllowed, Proc.bind_eq, select_bind]
  intro db hdb
  obtain ⟨o, ho, hactive⟩ := hdb.1
  simp only [ho, hactive]
  intro db' hdb' hallowed
  refine ⟨db'.activeCount s d, by simp [linkRule, seeCount], ?_⟩
  simpa using hallowed

theorem run_follows {tf : TransferFile} (htf : Fetched db₀ tf) (hjob : tf.jobId ≠ "") (node : Node) (spawn : Spawn)
    (n : Option Nat) :
    (FileTransferExecutor.run node spawn tf).Follows (linkRule s d limit db₀) (fun _ _ => True) n := by
  unfold FileTransferExecutor.run
  split
  · trivial
  · rename_i hid
    by_cases hlink : tf.sourceSe = s ∧ tf.destSe = d
    · obtain ⟨rfl, rfl⟩ := hlink
      refine (isTrAllowed_follows n).bind fun allowed n hn => ?_
      split
      · rename_i hallowed
        obtain ⟨m, rfl, hm⟩ := hn hallowed
        have hasks : (claim node spawn tf).Asks fun q => ∀ db n,
            (linkRule tf.sourceSe tf.destSe limit db₀).see q db n = n :=
          (asks_claim node spawn tf).mono fun q hq => seeCount_eq hq _ _
        have hissues : (claim node spawn tf).Issues (keepsLimits · = true) :=
          issues_claim (fun a _ _ _ => issues_updateFileTransferStatusInternal (fun _ _ _ => rfl) (fun _ _ => rfl)
            (fun _ => rfl) fun _ _ _ _ => rfl) (issues_updateJobStatus_of (fun _ => rfl) (fun _ => rfl) node _)
            (fun _ _ _ => rfl) spawn
        exact (hasks.follows hissues fun u hu => ⟨hu, fun _ => ⟨m, rfl, hm⟩⟩).mono fun _ _ _ => trivial
      · trivial
    · have hread : (isTrAllowed tf.sourceSe tf.destSe).Issues (ClaimsNone s d db₀) := by
        simp only [isTrAllowed, Proc.bind_eq, select_bind, Proc.issues_select]
        intro db
        split <;> simp [getActiveCount]
      refine Proc.Issues.follows (P := ClaimsNone s d db₀) (hread.bind fun allowed => ?_) fun u hu n =>
        ⟨hu.1, fun hclaim => (hu.2 hclaim).elim⟩
      simp only [Proc.issues_ite]
      exact ⟨fun _ => claim_issues htf hjob hid hlink node spawn, fun _ => trivial⟩

/-- A message stores no `READY`. -/
theorem message_issues (node : Node) (msg : Message)
    (hmsg : msg.transferStatus = .active ∨ msg.transferStatus.terminal = true) :
    (performOtherMessageDbChange node msg).Issues (ClaimsNone s d db₀) := by
  have hready : msg.transferStatus ≠ .ready := by
    intro h
    rw [h] at hmsg
    cases hmsg with
    | inl h => cases h
    | inr h => cases h
  have hlimit : (getRetry node msg.jobId).Issues (ClaimsNone s d db₀) := by
    refine Proc.Issues.bind (p := configuredRetry _) ?_ fun n => ?_
    · simp [configuredRetry]
    · cases n with
      | none => trivial
      | some n => simp
  have hretry : (scheduleRetry node msg).Issues (ClaimsNone s d db₀) := by
    unfold scheduleRetry
    split
    · refine hlimit.bind fun retry => ?_
      cases retry with
      | none => trivial
      | some n => simp [getRetryTimes, setRetryTransfer, ClaimsNone, keepsLimits, ClaimOn, Proc.ite_bind]
    · trivial
  have hterminate : ∀ pid reason, (terminateReuseProcess msg.jobId pid reason false).Issues (ClaimsNone s d db₀) := by
    intro pid reason
    have hfail : (failFiles msg.jobId reason).Issues (ClaimsNone s d db₀) := by
      refine fun db => (Proc.issues_forM _ _ fun f _ => ?_).bind fun _ => issues_commit.mpr trivial
      simp [ClaimsNone, keepsLimits, ClaimOn]
    simp [terminateReuseProcess, hfail]
  have hstatus : (updateFileTransferStatusInternal node msg.status).Issues (ClaimsNone s d db₀) := by
    refine issues_updateFileTransferStatusInternal (fun _ _ _ => ⟨rfl, id⟩) (fun _ _ => ⟨rfl, id⟩) (fun _ => ⟨rfl, id⟩)
      fun u hu hreq _ => ⟨rfl, fun h => ?_⟩
    rcases hu.2 with hnew | ⟨-, hnew⟩
    · exact hready (hreq.symm.trans (hnew.symm.trans h.1))
    · exact absurd (hnew.symm.trans h.1) (by decide)
  have hjob := issues_updateJobStatus_of (P := ClaimsNone s d db₀) (fun _ => ⟨rfl, id⟩) (fun _ => ⟨rfl, id⟩) node
    msg.jobId msg.transferStatus
  refine hretry.bind fun retried => ?_
  simp only [Proc.bind_eq, Proc.issues_ite]
  have htail : ((updateFileTransferStatusInternal node msg.status).bind fun _ =>
      (updateJobTransferStatusInternal node msg.jobId msg.transferStatus).bind fun _ => pure ()).Issues
        (ClaimsNone s d db₀) := hstatus.bind fun _ => hjob.bind fun _ => trivial
  exact ⟨fun _ => trivial, fun _ => ⟨fun _ => (hterminate _ _).bind fun _ => htail, fun _ => htail⟩⟩

theorem LinkParty.follows (hjobs : ∀ r ∈ db₀.files.rows, r.jobId ≠ "") (p : LinkParty) (n : Option Nat) :
    p.prog.Follows (linkRule s d limit db₀) (fun _ _ => True) n := by
  cases p with
  | worker node tTime chance queues k spawn =>
      have hready : (getReadyTransfers node tTime chance queues).Follows (linkRule s d limit db₀)
          (fun tfs _ => ∀ tf ∈ tfs.getD [], Fetched db₀ tf) n :=
        getReadyTransfers_follows (fun _ _ _ _ h => h) (fun _ _ _ hdb _ _ _ _ => readyRows_fetched hdb) n
      refine hready.bind fun files n hfiles => ?_
      cases hk : (files.getD [])[k]? with
      | none => trivial
      | some tf =>
          have htf : Fetched db₀ tf := hfiles tf (List.mem_of_getElem? hk)
          obtain ⟨r, hr, -, hj, -⟩ := id htf
          exact run_follows htf (hj ▸ hjobs r hr) node spawn n
  | message node msg reported =>
      exact (message_issues node msg reported).follows fun u hu n => ⟨hu.1, fun hclaim => (hu.2 hclaim).elim⟩

end rule

/-! ## The limit is kept -/

section limit

variable {s d : String}

/-- What an `UPDATE` adds to the transfers that run. -/
theorem runningOn_update {u : FileUpdate} {db : Db} : runningOn s d ((Stmt.file u).exec db).2 ≤ runningOn s d db +
    db.files.rows.countP fun r => onLink s d r && u.selects r && !running r.fileState && u.writes?.any running := by
  have hcount := (countP_exchange (p := fun r => onLink s d r && running r.fileState) (q := fun _ => false)
    (f := fun r => if u.selects r then u.sets db.now r else r) (by simp) fun r (_ : r ∈ db.files.rows) h => by cases h).1
  have hmono : db.files.rows.countP (fun r => !(onLink s d r && running r.fileState) &&
      (onLink s d (if u.selects r then u.sets db.now r else r) &&
        running (if u.selects r then u.sets db.now r else r).fileState)) ≤
      db.files.rows.countP fun r => onLink s d r && u.selects r && !running r.fileState && u.writes?.any running := by
    refine List.countP_mono_left fun r _ hr => ?_
    simp only [Bool.and_eq_true, Bool.not_eq_true'] at hr
    obtain ⟨hbefore, hlink, hafter⟩ := hr
    split at hlink
    · rename_i hsel
      rw [if_pos hsel, u.sets_fileState] at hafter
      have hlink : onLink s d r = true := by
        simpa [onLink, u.sets_link db.now r] using hlink
      simp only [hlink, Bool.true_and] at hbefore
      cases hw : u.writes? with
      | none =>
          rw [hw, Option.getD_none, hbefore] at hafter
          cases hafter
      | some st =>
          rw [hw, Option.getD_some] at hafter
          simp [hlink, hsel, hbefore, hafter]
    · rename_i hsel
      rw [if_neg hsel] at hafter
      rw [hlink, hafter] at hbefore
      cases hbefore
  have hpost : runningOn s d ((Stmt.file u).exec db).2 = (db.files.rows.map fun r => if u.selects r then u.sets db.now r
      else r).countP fun r => onLink s d r && running r.fileState := rfl
  have hpre : runningOn s d db = db.files.rows.countP fun r => onLink s d r && running r.fileState := rfl
  omega

/-- A claim starts one transfer. -/
theorem claim_starts_one (s d : String) (db : Db) (u : StatusUpdate) : db.files.rows.countP (fun r => onLink s d r &&
    (FileUpdate.updateFileTransferStatus u).selects r && !running r.fileState &&
      (FileUpdate.updateFileTransferStatus u).writes?.any running) ≤ 1 := by
  refine countP_le_one_of_eq (List.Nodup.of_map _ db.files.nodup) fun a ha b hb hpa hpb => ?_
  simp only [Bool.and_eq_true, FileUpdate.selects, decide_eq_true_eq] at hpa hpb
  have hid : a.fileId = b.fileId := hpa.1.1.2.1.trans hpb.1.1.2.1.symm
  have hfind := Table.find?_key ha
  rw [hid, Table.find?_key hb] at hfind
  exact (Option.some.inj hfind).symm

theorem keeps_limit {limit : Nat} {db₀ : Db} {es : List Step} {e : Step} (hexec : e.Executes Stmt.exec)
    (hinv : (linkRule s d limit db₀).inv e.pre) (hcovered : ClaimCovered s d es e)
    (hallow : ∀ u, e.act = .update u → (linkRule s d limit db₀).allow u (Event.memory (seeCount s d) none e.caller es))
    (hpre : runningOn s d e.pre ≤ limit) : runningOn s d e.post ≤ limit := by
  unfold Event.Executes at hexec
  split at hexec
  · rename_i u hact
    rw [hexec.2]
    cases u with
    | file u =>
        have hupdate : runningOn s d ((Stmt.file u).exec e.pre).2 ≤ _ := runningOn_update
        by_cases hstarts : startsOn s d e = true
        · obtain ⟨hclaims, hcount⟩ := hcovered hstarts
          unfold claimsReady at hclaims
          split at hclaims
          · rename_i u' hact'
            obtain rfl : u = .updateFileTransferStatus u' := by
              rw [hact] at hact'
              cases hact'
              rfl
            have hone := claim_starts_one s d e.pre u'
            obtain ⟨r, hr, hstarted⟩ : ∃ r ∈ e.pre.files.rows, (onLink s d r && (FileUpdate.updateFileTransferStatus
                u').selects r && !running r.fileState && running u'.newState) = true := by
              simpa [startsOn, hact, FileUpdate.writes?] using hstarts
            have hclaim : ClaimOn s d db₀ (.file (.updateFileTransferStatus u')) := by
              simp only [onLink, FileUpdate.selects, Bool.and_eq_true, decide_eq_true_eq] at hstarted
              have hsame := hinv.2 r hr
              rw [hstarted.1.1.1.1, hstarted.1.1.1.2, hstarted.1.1.2.1] at hsame
              exact ⟨by simpa using hclaims, r.jobId, hsame⟩
            obtain ⟨n, hn, hlt⟩ := (hallow _ hact).2 hclaim
            have hle := hcount n hn
            omega
          · cases hclaims
        · have hnone : e.pre.files.rows.countP (fun r => onLink s d r && u.selects r && !running r.fileState &&
              u.writes?.any running) = 0 := by
            simpa [startsOn, hact, List.countP_eq_zero] using hstarts
          omega
    | deleteFiles ids =>
        refine Nat.le_trans ?_ hpre
        exact List.Sublist.countP_le List.filter_sublist
    | _ => exact hpre
  · rw [hexec]
    exact hpre

end limit

/-- In a run in which transfers of the pair only start with claims whose count covers all that run, the limit of
the pair is kept. -/
theorem link_limit (s d : String) (limit : Nat) (db : Db) (parties : List LinkParty) (schedule : List Nat)
    (hlimit : HasLimit s d limit db) (hjobs : ∀ r ∈ db.files.rows, r.jobId ≠ "")
    (hstart : runningOn s d db ≤ limit)
    (h : Event.Along (ClaimCovered s d) [] (LinkParty.steps db parties schedule)) :
    ∀ e ∈ LinkParty.steps db parties schedule, runningOn s d e.post ≤ limit := by
  have hfollows : (Pool.start db (parties.map LinkParty.prog)).FollowsAfter (linkRule s d limit db) none [] := by
    refine Pool.followsAfter_start (linkRule_start hlimit) fun p hp => ?_
    obtain ⟨party, -, rfl⟩ := List.mem_map.mp hp
    exact party.follows hjobs none
  have hstep : ∀ e ∈ LinkParty.steps db parties schedule, runningOn s d e.pre ≤ limit → runningOn s d e.post ≤ limit := by
    refine Event.Along.forall (fun es e hcovered hrule => ?_) h (hfollows.along linkRule_exec schedule)
    exact keeps_limit hrule.1 hrule.2.1 hcovered hrule.2.2
  intro e he
  have hkept := (Pool.trace_chained _ schedule).invariant (I := fun db => runningOn s d db ≤ limit) hstep hstart e he
  exact hkept.2

/-- Two transfers wait on a link with room for one. -/
def linkDb : Db where
  files := .ofRows [
    { fileId := 1, jobId := "j", fileState := .submitted, sourceSe := "s", destSe := "d", voName := "v" },
    { fileId := 2, jobId := "j", fileState := .submitted, sourceSe := "s", destSe := "d", voName := "v" }]
  jobs := .ofRows [{ jobId := "j", jobState := .submitted, jobType := some .regular, voName := "v" }]
  optimizer := [{ sourceSe := "s", destSe := "d", active := some 1 }]

def linkRound (hostname : String) : LinkParty :=
  .worker { hostname } 100 {} [{ sourceSe := "s", destSe := "d", voName := "v" }] 0 { pid := some 7 }

def firstActive : LinkParty :=
  .message { hostname := "a" } { jobId := "j", fileId := 1, transferStatus := .active } (.inl rfl)

theorem linkDb_limit : HasLimit "s" "d" 1 linkDb := ⟨_, rfl, rfl⟩

/-- The first transfer is `ACTIVE` when the second round counts. -/
theorem link_limit_firstActive :
    (∀ e ∈ LinkParty.steps linkDb [linkRound "a", firstActive, linkRound "b"]
        (List.replicate 24 0 ++ List.replicate 6 1 ++ List.replicate 2 2), runningOn "s" "d" e.post ≤ 1) ∧
      ((Pool.start linkDb ([linkRound "a", firstActive, linkRound "b"].map LinkParty.prog)).run Stmt.exec
        (List.replicate 24 0 ++ List.replicate 6 1 ++ List.replicate 2 2)).store.fileState? 1 = some .active :=
  ⟨link_limit "s" "d" 1 linkDb _ _ linkDb_limit (by decide) (by decide) (by decide), by decide⟩

/-- The first transfer is still `READY` when the second round counts. -/
theorem link_limit_exceeded_firstReady :
    HasLimit "s" "d" 1 linkDb ∧ runningOn "s" "d" linkDb = 0 ∧
      ¬∀ e ∈ LinkParty.steps linkDb [linkRound "a", linkRound "b"] (List.replicate 24 0 ++ List.replicate 21 1),
        runningOn "s" "d" e.post ≤ 1 :=
  ⟨linkDb_limit, by decide, by decide⟩

end Fts3.Server
