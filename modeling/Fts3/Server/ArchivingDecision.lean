import Fts3.MySql.HopTurns
import Fts3.MySql.Scheduling
import Fts3.Server.FileTransferExecutor
import Fts3.Server.LinkLimit
import Fts3.UrlCopy.CommandCalls

/-!
# Two decisions to archive

`fts_url_copy` is started with `--archiving` and `--last-hop` by what was read when its transfer was fetched. That the
file is to be `ARCHIVING` after it is decided again when it has finished.
-/

namespace Fts3.Server

open Fts3.Sql Fts3.MySql

/-! ## What is known of a fetched transfer -/

/-- The row that a transfer has been read from. -/
structure ReadFrom (j : String) (tf : TransferFile) (db : Db) : Prop where
  job : ∃ job, db.jobs.find? j = some job ∧ tf.jobType = job.type ∧ tf.archiveTimeout = job.archiveTimeout.getD (-1)
  row : ∃ r ∈ db.filesOf j, r.fileId = tf.fileId ∧ r.fileIndex.getD 0 = tf.fileIndex ∧
    (db.isMultihop j = true → r.fileState ≠ .notUsed)

/-- A fetched transfer. `asked` is whether it has been looked up if it is the last hop. -/
structure FetchedFrom (j : String) (asked : Bool) (tf : TransferFile) (db : Db) : Prop extends ReadFrom j tf db where
  lastHop : tf.jobType = .multiHop → tf.lastHop = (asked && db.isLastHop j tf.fileId)

section fetched

variable {j : String} {db db' : Db} {tf : TransferFile}

theorem ReadFrom.kept (h : ReadFrom j tf db) (hkept : TurnsKept j db db') : ReadFrom j tf db' where
  job := by
    obtain ⟨job, hjob, htype, htimeout⟩ := h.job
    obtain ⟨job', hjob'⟩ := Option.isSome_iff_exists.mp (hkept.jobStays (by simp [hjob]))
    obtain ⟨job₀, hjob₀, htype', htimeout'⟩ := hkept.job job' hjob'
    obtain rfl : job = job₀ := Option.some.inj (hjob.symm.trans hjob₀)
    exact ⟨job', hjob', htype.trans htype'.symm, by rw [htimeout, htimeout']⟩
  row := by
    obtain ⟨r, hr, hid, hindex, hstate⟩ := h.row
    obtain ⟨r', hr', hid', hplace, hback⟩ := hkept.next hr
    refine ⟨r', hr', hid'.trans hid, by rw [hplace.fileIndex, hindex], fun hmulti hst => ?_⟩
    have hmulti₀ : db.isMultihop j = true := hkept.isMultihop ▸ hmulti
    exact hstate hmulti₀ (hback hmulti₀ hst)

theorem FetchedFrom.kept {asked : Bool} (h : FetchedFrom j asked tf db) (hkept : TurnsKept j db db') :
    FetchedFrom j asked tf db' where
  toReadFrom := h.toReadFrom.kept hkept
  lastHop hmulti := by rw [hkept.isLastHop, h.lastHop hmulti]

theorem readFrom_ofRow {r : FileRow} {job : JobRow} (hr : r ∈ db.files.rows) (hst : r.fileState ≠ .notUsed)
    (hjob : db.jobs.find? r.jobId = some job) (hj : r.jobId = j) : ReadFrom j (TransferFile.ofRow r job) db where
  job := ⟨job, hj ▸ hjob, rfl, rfl⟩
  row := ⟨r, mem_filesOf.mpr ⟨Table.find?_key hr, hj⟩, rfl, rfl, fun _ => hst⟩

theorem readyRows_readFrom {node : Node} {tTime : Nat} {q : QueueId} {p : Int} {types : List JobType}
    {ofActivity : FileRow → Bool} {n : Nat} :
    ∀ tf ∈ readyRows node tTime q p types ofActivity n db, tf.jobId = j → ReadFrom j tf db ∧ tf.lastHop = false := by
  intro tf htf hj
  have hmem := List.mem_of_mem_take htf
  simp only [List.mem_filterMap, List.mem_insertionSort, Option.map_eq_some_iff, Option.filter_eq_some_iff] at hmem
  obtain ⟨r, hr, job, ⟨hjob, -⟩, rfl⟩ := hmem
  simp only [Table.select, List.mem_filter, FileRow.fetchable, Bool.and_eq_true, decide_eq_true_eq] at hr
  refine ⟨readFrom_ofRow hr.1 ?_ hjob hj, rfl⟩
  rw [hr.2.1.2.1.1.1]
  exact FileState.noConfusion

/-- The index of the hop is the largest one if and only if no hop comes after it. -/
theorem maxIndex_eq_iff (hturn : HopsInTurn j db) {r : FileRow} (hr : r ∈ db.filesOf j) :
    ((db.filesOf j).filterMap (·.fileIndex)).max?.getD 0 = r.fileIndex.getD 0 ↔ db.isLastHop j r.fileId = true := by
  simp only [Db.isLastHop, List.all_eq_true, Bool.or_eq_true, decide_eq_true_eq, Bool.not_eq_true']
  have hrow : ∀ x ∈ db.filesOf j, x.fileId = r.fileId → x = r := fun x hx hid => eq_of_mem_filesOf hx hr hid
  cases hi : r.fileIndex with
  | none =>
      -- a hop without an index is the only one
      have halone : ∀ b ∈ db.filesOf j, b = r := by
        intro b hb
        rcases Nat.lt_trichotomy b.fileId r.fileId with hlt | heq | hgt
        · have := hturn.precedes b hb r hr hlt
          simp [FileRow.precedes, hi] at this
        · exact hrow b hb heq
        · have := hturn.precedes r hr b hb hgt
          simp [FileRow.precedes, hi] at this
      have hnil : (db.filesOf j).filterMap (·.fileIndex) = [] := by
        rw [List.filterMap_eq_nil_iff]
        intro b hb
        rw [halone b hb, hi]
      simp only [hnil, List.max?_nil, Option.getD_none, true_iff]
      intro x hx
      right
      intro b hb
      rw [halone x hx]
      simp [FileRow.precedes, hi]
  | some i =>
      have hmem : i ∈ (db.filesOf j).filterMap (·.fileIndex) := List.mem_filterMap.mpr ⟨r, hr, hi⟩
      obtain ⟨m, hm⟩ : ∃ m, ((db.filesOf j).filterMap (·.fileIndex)).max? = some m :=
        Option.isSome_iff_exists.mp (List.isSome_max?_of_mem hmem)
      have hmax := List.max?_eq_some_iff.mp hm
      simp only [hm, Option.getD_some]
      constructor
      · rintro rfl x hx
        refine (em (x.fileId = r.fileId)).symm.imp_right fun hid b hb => ?_
        rw [hrow x hx hid, FileRow.precedes, hi]
        cases hk : b.fileIndex with
        | none => rfl
        | some k =>
            have := hmax.2 k (List.mem_filterMap.mpr ⟨b, hb, hk⟩)
            simpa using this
      · intro hlast
        obtain ⟨b, hb, hk⟩ := List.mem_filterMap.mp hmax.1
        have hnot := ((hlast r hr).resolve_left fun h => h rfl) b hb
        simp only [FileRow.precedes, hi, hk, decide_eq_false_iff_not] at hnot
        have := hmax.2 i hmem
        omega

end fetched

section fetching

variable {j : String} {asked : Bool}

/-- From a database with the hops in turn on, the fetch returns transfers that are known. -/
def Fetches (j : String) (asked : Bool) (p : Op (List TransferFile)) (db : Db) : Prop :=
  p.Honors Stmt.exec (turnContract j)
    (fun files _ db => InTurn j db ∧ ∀ tf ∈ files, tf.jobId = j → FetchedFrom j asked tf db) 0 db

/-- The same for a fetch that may throw. -/
def TryFetches (j : String) (p : Op (Option (List TransferFile))) (db : Db) : Prop :=
  p.Honors Stmt.exec (turnContract j)
    (fun files _ db => InTurn j db ∧ ∀ tf ∈ files.getD [], tf.jobId = j → FetchedFrom j true tf db) 0 db

theorem tryFetches_nil {files : Option (List TransferFile)} {db : Db} (hdb : InTurn j db) (h : files.getD [] = []) :
    TryFetches j (pure files) db := ⟨hdb, by simp [h]⟩

/-- A client that fetches nothing. -/
theorem fetches_nothing {β : Type} {p : Op β} {db : Db} (hp : p.Within (turnContract j) (InTurn j) db) :
    Fetches j asked (p.bind fun _ => pure []) db := by
  refine Proc.Honors.bind (fun _ g db hdb => ?_) hp
  exact Proc.Honors.weaken (p := .ret []) ⟨hdb, by simp⟩ (Nat.zero_le g)

theorem tryFetches_ite {c : Prop} [Decidable c] {p q : Op (Option (List TransferFile))} {db : Db} (hp : TryFetches j p db)
    (hq : TryFetches j q db) : TryFetches j (if c then p else q) db := by
  split
  · exact hp
  · exact hq

/-- Something that is only read before, and decides nothing. -/
theorem TryFetches.after_read {β : Type} {p : Op β} {k : β → Op (Option (List TransferFile))} {db : Db}
    (hp : p.Issues fun _ => False) (hk : ∀ b db, InTurn j db → TryFetches j (k b) db) (hdb : InTurn j db) :
    TryFetches j (p.bind k) db :=
  (hp.honors_reads allows_plain.stable hdb).bind fun b _ db₁ ⟨hg, hdb₁⟩ => hg ▸ hk b db₁ hdb₁

theorem tryFetches_tryCollect {γ : Type} {xs : List γ} {f : γ → Op (Option (List TransferFile))}
    (hf : ∀ x ∈ xs, ∀ db, InTurn j db → TryFetches j (f x) db) {db : Db} (hdb : InTurn j db) :
    TryFetches j (Proc.tryCollect f xs) db :=
  Proc.honors_tryCollect (R := fun (tf : TransferFile) db => tf.jobId = j → FetchedFrom j true tf db)
    (fun _ _ _ hkept h htf => (h htf).kept hkept) hf hdb

theorem markLast_fetches {tf : TransferFile} {db : Db} (hdb : InTurn j db)
    (htf : tf.jobId = j → ReadFrom j tf db ∧ tf.lastHop = false) : Fetches j true (markLast tf) db := by
  unfold markLast
  split
  · rename_i htype
    intro db₁ h₁
    refine ⟨TurnsKept.keepsInTurn h₁.rely hdb, fun tf' htf' hj => ?_⟩
    obtain rfl := List.mem_singleton.mp htf'
    have hread := (htf hj).1.kept h₁.rely
    exact { job := hread.job, row := hread.row, lastHop := fun hmulti => by simp [htype] at hmulti }
  · rename_i htype
    intro db₁ h₁
    have hdb₁ := TurnsKept.keepsInTurn h₁.rely hdb
    refine ⟨hdb₁, fun tf' htf' hj => ?_⟩
    obtain rfl := List.mem_singleton.mp htf'
    have hread := (htf hj).1.kept h₁.rely
    refine { job := hread.job, row := hread.row, lastHop := fun _ => ?_ }
    obtain ⟨job, hjob, hjobType, -⟩ := hread.job
    obtain ⟨r, hr, hid, hindex, -⟩ := hread.row
    have hmulti : db₁.isMultihop j = true := by simp [Db.isMultihop, hjob, ← hjobType, htype]
    have hmax := maxIndex_eq_iff (hdb₁ hmulti) hr
    rw [hindex, hid] at hmax
    obtain rfl : tf.jobId = j := hj
    rw [Bool.true_and, Bool.eq_iff_iff, decide_eq_true_eq, ← hmax]
  · rename_i hother
    refine ⟨hdb, fun tf' htf' hj => ?_⟩
    obtain rfl := List.mem_singleton.mp htf'
    exact { toReadFrom := (htf hj).1, lastHop := fun hmulti => absurd hmulti hother }

theorem readyOfQueue_fetches {node : Node} {tTime : Nat} {chance : Chance} {q : QueueId} {n : Nat} {db : Db}
    (hdb : InTurn j db) : TryFetches j (readyOfQueue node tTime chance q n) db := by
  have hmark : ∀ p types inActivity n db, InTurn j db →
      Fetches j true (Proc.collect markLast (readyRows node tTime q p types inActivity n db)) db := by
    intro p types inActivity n db hdb
    exact Proc.honors_collect (R := fun (tf : TransferFile) db => tf.jobId = j → FetchedFrom j true tf db)
      (T := fun (tf : TransferFile) db => tf.jobId = j → ReadFrom j tf db ∧ tf.lastHop = false)
      (fun _ _ _ hkept h htf => (h htf).kept hkept) (fun _ _ _ hkept h htf => ⟨(h htf).1.kept hkept, (h htf).2⟩)
      (fun tf _ db hdb htf => markLast_fetches hdb htf) hdb readyRows_readFrom
  refine TryFetches.after_read getMaxPriority_reads (fun maxPriority db hdb => ?_) hdb
  cases maxPriority with
  | none => exact tryFetches_nil hdb rfl
  | some p =>
      refine TryFetches.after_read (getFilesNumPerActivity_reads n) (fun slots db hdb => ?_) hdb
      apply tryFetches_ite
      · simp only [Proc.bind_eq, select_bind]
        intro db₁ h₁
        exact Proc.Honors.bind (fun files g db₂ hmarked => hmarked)
          (hmark p _ _ _ _ (TurnsKept.keepsInTurn h₁.rely hdb))
      · refine tryFetches_tryCollect (fun activity _ db hdb => ?_) hdb
        unfold readyOfActivity
        refine tryFetches_ite (tryFetches_nil hdb rfl) ?_
        cases ofActivity node.activity slots.2 activity.1 with
        | none => exact tryFetches_nil hdb rfl
        | some inActivity =>
            simp only [Proc.bind_eq, select_bind]
            intro db₁ h₁
            refine Proc.Honors.bind (fun files g db₂ hmarked => ?_)
              (hmark p _ _ _ _ (TurnsKept.keepsInTurn h₁.rely hdb))
            obtain ⟨hdb₂, hfiles⟩ := hmarked
            refine ⟨hdb₂, fun tf htf hj => ?_⟩
            obtain ⟨tf', htf', rfl⟩ := List.mem_map.mp htf
            have hknown := hfiles tf' htf' hj
            exact { job := hknown.job, row := hknown.row, lastHop := hknown.lastHop }

theorem getReadyTransfers_fetches {node : Node} {tTime : Nat} {chance : Chance} {queues : List QueueId} {db : Db}
    (hdb : InTurn j db) : TryFetches j (getReadyTransfers node tTime chance queues) db := by
  refine tryFetches_tryCollect (fun q _ db hdb => ?_) hdb
  refine TryFetches.after_read (by simp [getActiveCount]) (fun activeCount db hdb => ?_) hdb
  refine TryFetches.after_read (by simp) (fun maxActive db hdb => ?_) hdb
  apply tryFetches_ite
  · exact tryFetches_nil hdb rfl
  · exact readyOfQueue_fetches hdb

/-- Of a transfer that is started by an operator it is not asked if it is the last hop. -/
theorem getForceStartTransfers_fetches {db : Db} (hdb : InTurn j db) : Fetches j false getForceStartTransfers db := by
  intro db₁ h₁
  refine ⟨TurnsKept.keepsInTurn h₁.rely hdb, fun tf htf hj => ?_⟩
  obtain ⟨r, hr, htf⟩ := List.mem_filterMap.mp htf
  obtain ⟨job, hjob, rfl⟩ := Option.map_eq_some_iff.mp htf
  obtain ⟨hmem, hst⟩ := List.mem_filter.mp hr
  rw [decide_eq_true_eq] at hst
  exact { toReadFrom := readFrom_ofRow hmem (by rw [hst]; exact FileState.noConfusion) hjob hj, lastHop := fun _ => rfl }

end fetching

/-! ## How the process is started -/

section command

variable (jsonCpp : UrlCopy.JsonCpp) (realString : Text → Text)

/-- `fts_url_copy` is started to archive: with `--archiving` and, for a multihop job, with `--last-hop`. -/
def StartedToArchive (s : CommandSettings) (columns : UrlCopy.TransferFile) (tf : TransferFile) : Prop :=
  let cmd := UrlCopy.UrlCopyCmd.ofCalls jsonCpp realString (FileTransferExecutor.calls s (commandFile columns tf))
  .flag .archiving ∈ cmd.flags ∧ (tf.jobType = .multiHop → .flag .lastHop ∈ cmd.flags)

theorem CommandSettings.before_isTransfer (s : CommandSettings) : ∀ c ∈ s.before, c.isTransfer = false := by
  intro c hc
  simp only [before, List.mem_append, List.mem_singleton] at hc
  rcases hc with hc | rfl
  · split at hc
    · rw [List.mem_singleton.mp hc]
      rfl
    · cases hc
  · rfl

theorem CommandSettings.after_isTransfer (s : CommandSettings) (tf : UrlCopy.TransferFile) :
    ∀ c ∈ s.after tf, c.isTransfer = false := by
  have hite : ∀ {p : Prop} [Decidable p] {c x : UrlCopy.Call}, x ∈ (if p then [c] else []) → x = c := by
    intro p _ c x hx
    split at hx
    · exact List.mem_singleton.mp hx
    · cases hx
  intro c hc
  obtain ⟨part, hpart, hc⟩ := List.mem_flatten.mp hc
  simp only [List.mem_cons, List.not_mem_nil, or_false] at hpart
  rcases hpart with rfl | rfl | rfl | rfl | rfl | rfl | rfl | rfl | rfl | rfl | rfl | rfl | rfl | rfl
  all_goals first
    | (rw [hite hc]; rfl)
    | (simp only [List.mem_cons, List.not_mem_nil, or_false] at hc
       rcases hc with rfl | rfl | rfl | rfl <;> rfl)

theorem startedToArchive_iff {s : CommandSettings} {columns : UrlCopy.TransferFile} {tf : TransferFile}
    (hlow : -2 ^ 31 ≤ tf.archiveTimeout) (hhigh : tf.archiveTimeout < 2 ^ 31) :
    StartedToArchive jsonCpp realString s columns tf ↔
      0 < tf.archiveTimeout ∧ (tf.jobType = .multiHop → tf.lastHop = true) := by
  have htimeout : 0 < (commandFile columns tf).archiveTimeout ↔ 0 < tf.archiveTimeout := by
    have hint : (Int32.ofInt tf.archiveTimeout).toInt = tf.archiveTimeout := Int32.toInt_ofInt_of_le hlow hhigh
    change 0 < Int32.ofInt tf.archiveTimeout ↔ _
    rw [Int32.lt_iff_toInt_lt, hint]
    rfl
  have hlastHop : (commandFile columns tf).lastHop ≠ 0 ↔ tf.lastHop = true := by
    cases htf : tf.lastHop <;> simp [commandFile, htf]
  simp only [StartedToArchive, FileTransferExecutor.calls]
  rw [UrlCopy.flag_ofCalls jsonCpp realString (k := .archiving) rfl (by decide) s.before_isTransfer (s.after_isTransfer _),
    UrlCopy.flag_ofCalls jsonCpp realString (k := .lastHop) rfl (by decide) s.before_isTransfer (s.after_isTransfer _),
    decide_eq_true_eq, decide_eq_true_eq, htimeout, hlastHop]

end command

/-! ## Runs -/

/-- The clients of a run: operations of the database, the two services that fetch transfers, and executors of transfers. -/
inductive TransferParty where
  | call (c : MySql.Call)
  | transfers (node : Node) (tTime : Nat) (chance : Chance) (queues : List QueueId)
  | forceStart
  | executor (node : Node) (spawn : Spawn) (tf : TransferFile)

namespace TransferParty

/-- The result is what has been fetched. -/
def prog : TransferParty → Op (List TransferFile)
  | call c => do
      let _ ← c.prog
      pure []
  | transfers node tTime chance queues => do
      let files ← getReadyTransfers node tTime chance queues
      pure (files.getD [])
  | forceStart => getForceStartTransfers
  | executor node spawn tf => do
      FileTransferExecutor.run node spawn tf
      pure []

/-- The service looks up if a hop is the last one. -/
def asks : TransferParty → Bool
  | forceStart => false
  | _ => true

def OwnFile (p : TransferParty) (db : Db) : Prop :=
  match p with
  | call c => c.OwnFile db
  | _ => True

def after (db : Db) (parties : List TransferParty) (schedule : List Nat) : Pool Db Sel Stmt (List TransferFile) :=
  (Pool.start db (parties.map prog)).run Stmt.exec schedule

def steps (db : Db) (parties : List TransferParty) (schedule : List Nat) : List Step :=
  (Pool.start db (parties.map prog)).trace Stmt.exec schedule

end TransferParty

section runs

variable {j : String}

/-- An executor claims a transfer, and does not finish it. -/
theorem run_plain (node : Node) (spawn : Spawn) (tf : TransferFile) :
    (FileTransferExecutor.run node spawn tf).Issues Stmt.Plain := by
  have hclaim : (claim node spawn tf).Issues Stmt.Plain :=
    issues_claim (fun a _ _ hfin => updateFileTransferStatusInternal_plain node hfin)
      (updateJobTransferStatusInternal_plain node tf.jobId) (fun _ _ _ => trivial) spawn
  have hallowed : (isTrAllowed tf.sourceSe tf.destSe).Issues Stmt.Plain := by
    simp only [isTrAllowed, Proc.bind_eq, select_bind, Proc.issues_select]
    intro db
    split <;> simp [getActiveCount]
  unfold FileTransferExecutor.run
  split
  · trivial
  · refine hallowed.bind fun allowed => ?_
    split
    · exact hclaim
    · trivial

theorem TransferParty.fetches {p : TransferParty} {db : Db} (hdb : InTurn j db) (hown : p.OwnFile db) :
    Fetches j p.asks p.prog db := by
  cases p with
  | call c => exact fetches_nothing (c.within_turns hdb hown)
  | transfers node tTime chance queues =>
      exact Proc.Honors.bind (fun _ g _ hfetched => Proc.Honors.weaken (p := .ret _) hfetched (Nat.zero_le g))
        (getReadyTransfers_fetches hdb)
  | forceStart => exact getForceStartTransfers_fetches hdb
  | executor node spawn tf =>
      exact fetches_nothing (allows_plain.within (run_plain node spawn tf) hdb)

/-- The compare-and-set that finishes a transfer. -/
def Step.finishes (f : Nat) (e : Step) : Bool :=
  match e.act with
  | .update (.file (.updateFileTransferStatus a)) => a.fileId = f && a.requested = .finished && e.matched ≠ 0
  | _ => false

/-- The tests of `setFromTransfer` and `isArchivingTransfer` agree: the file is not the last hop, or the archive timeout
is negative, or it is positive and it has been asked if the hop is the last one. -/
def TestsAgree (job : JobRow) (asks isLastHop : Bool) : Prop :=
  job.type = .multiHop ∧ isLastHop = false ∨
    job.archiveTimeout.getD (-1) ≠ 0 ∧ (job.type = .multiHop → asks = true ∨ job.archiveTimeout.getD (-1) < 0)

theorem testsAgree_iff {job : JobRow} {asks isLastHop : Bool} :
    ((-1 < job.archiveTimeout.getD (-1) ∧ (job.type = .multiHop → isLastHop = true)) ↔
      (0 < job.archiveTimeout.getD (-1) ∧ (job.type = .multiHop → (asks && isLastHop) = true))) ↔
    TestsAgree job asks isLastHop := by
  unfold TestsAgree
  generalize job.archiveTimeout.getD (-1) = t
  by_cases hmulti : job.type = .multiHop
  · cases isLastHop with
    | false => simp [hmulti]
    | true =>
        cases asks with
        | false =>
            simp [hmulti]
            omega
        | true =>
            simp [hmulti]
            omega
  · simp [hmulti]
    omega

/-- What a step that finishes a transfer has stored. -/
theorem finishes_archiving {e : Step} (hexec : e.Executes Stmt.exec) {f : Nat} (hfin : Step.finishes f e = true) :
    ∃ a r, e.act = .update (.file (.updateFileTransferStatus a)) ∧ a.requested = .finished ∧
      e.pre.files.find? f = some r ∧ r.fileId = a.fileId ∧ some r.fileState = a.oldState ∧
      (e.post.fileState? f = some .archiving ↔ a.newState = .archiving) := by
  unfold Step.finishes at hfin
  split at hfin
  · rename_i a hact
    simp only [Bool.and_eq_true, decide_eq_true_eq] at hfin
    obtain ⟨⟨rfl, hreq⟩, hmatched⟩ := hfin
    simp only [Event.Executes, hact] at hexec
    rw [hexec.1] at hmatched
    obtain ⟨r, hr, hsel⟩ := Table.matched_pos.mp (Nat.pos_of_ne_zero hmatched)
    have hsel' := hsel
    simp only [FileUpdate.selects, Bool.and_eq_true, decide_eq_true_eq] at hsel
    have hfind : e.pre.files.find? a.fileId = some r := hsel.1 ▸ Table.find?_key hr
    refine ⟨a, r, hact, hreq, hfind, hsel.1, hsel.2, ?_⟩
    simp only [Db.fileState?, hexec.2, exec_file_find?, hfind, Option.map_some, hsel', if_true,
      FileUpdate.sets_fileState, FileUpdate.writes?, Option.getD_some, Option.some.injEq]
  · cases hfin

/-- What holds of a fetched transfer and of its job at every moment after the fetch. -/
structure SinceFetch (j : String) (asked : Bool) (tf : TransferFile) (db₀ db : Db) : Prop where
  fetched : FetchedFrom j asked tf db
  kept : TurnsKept j db₀ db

theorem SinceFetch.next {asked : Bool} {tf : TransferFile} {db₀ db db' : Db} (h : SinceFetch j asked tf db₀ db)
    (hkept : TurnsKept j db db') : SinceFetch j asked tf db₀ db' :=
  ⟨h.fetched.kept hkept, h.kept.trans hkept⟩

/-- In a run that keeps the hops in turn: at every step after a transfer has been returned, it is known, and what is
stored for a finished file is decided from the rows of its job. -/
theorem since_fetch {db : Db} {parties : List TransferParty} {before after : List Nat} (hturn : InTurn j db)
    (hown : ∀ p ∈ parties, p.OwnFile db)
    (hsteps : ∀ e ∈ TransferParty.steps db parties (before ++ after), Step.keepsTurns j e = true) {i : Nat}
    {p : TransferParty} (hp : parties[i]? = some p) {files : List TransferFile}
    (hfiles : (TransferParty.after db parties before).result? i = some files) {tf : TransferFile} (htf : tf ∈ files)
    (hj : tf.jobId = j) :
    ∀ e ∈ (TransferParty.after db parties before).trace Stmt.exec after, e.Executes Stmt.exec ∧
      SinceFetch j p.asks tf db e.pre ∧ ∀ u, e.act = .update u → DecidesArchiving j u e.pre := by
  have hstart : (Pool.start db (parties.map TransferParty.prog)).HonorsEach Stmt.exec (turnContract j)
      (fun i files _ db => ∀ q, parties[i]? = some q → ∀ tf ∈ files, tf.jobId = j → FetchedFrom j q.asks tf db)
      (List.replicate (parties.map TransferParty.prog).length 0) := by
    refine Pool.honorsEach_start (Nat.le_refl 0) fun i c hc => ?_
    rw [List.getElem?_map, Option.map_eq_some_iff] at hc
    obtain ⟨q, hq, rfl⟩ := hc
    refine Proc.Honors.mono (fun files _ db h q' hq' => ?_) (q.fetches hturn (hown q (List.mem_of_getElem? hq)))
    obtain rfl : q = q' := Option.some.inj (hq.symm.trans hq')
    exact h.2
  simp only [TransferParty.steps, Pool.trace_append, List.mem_append] at hsteps
  have hbefore : ∀ e ∈ (Pool.start db (parties.map TransferParty.prog)).trace Stmt.exec before,
      (turnContract j).cond e.act e.last e.pre := fun e he => hsteps e (.inl he)
  have hafter : ∀ e ∈ (TransferParty.after db parties before).trace Stmt.exec after,
      (turnContract j).cond e.act e.last e.pre := fun e he => hsteps e (.inr he)
  obtain ⟨gs, hhonors⟩ := hstart.run before hbefore
  obtain ⟨g, db₁, hfetched, hkept⟩ := hhonors.result hfiles
  have hsince : SinceFetch j p.asks tf db (TransferParty.after db parties before).store := by
    refine ⟨(hfetched p hp tf htf hj).kept hkept, ?_⟩
    exact Pool.run_rel (TurnsKept.refl j) TurnsKept.trans before fun e he => (hstart.trace before hbefore e he).1
  intro e he
  refine ⟨Pool.trace_executes _ after e he, ?_, (hhonors.trace after hafter e he).2⟩
  exact (hhonors.invariant after hafter (fun _ _ h hs => SinceFetch.next hs h) hsince e he).1

/-- After a transfer has been fetched, the file becomes `ARCHIVING` when it is finished exactly if `fts_url_copy` has been
started to archive, if and only if the tests agree on the columns of the job. -/
theorem archiving_decisions_agree_iff (jsonCpp : UrlCopy.JsonCpp) (realString : Text → Text) (s : CommandSettings)
    (columns : UrlCopy.TransferFile) {db : Db} {parties : List TransferParty} {before after : List Nat} {job : JobRow}
    (hjob : db.jobs.find? j = some job) (hcolumn : ∀ t, job.archiveTimeout = some t → -2 ^ 31 ≤ t ∧ t < 2 ^ 31)
    (hturn : InTurn j db) (hown : ∀ p ∈ parties, p.OwnFile db)
    (hsteps : ∀ e ∈ TransferParty.steps db parties (before ++ after), Step.keepsTurns j e = true) {i : Nat}
    {p : TransferParty} (hp : parties[i]? = some p) {files : List TransferFile}
    (hfiles : (TransferParty.after db parties before).result? i = some files) {tf : TransferFile} (htf : tf ∈ files)
    (hj : tf.jobId = j)
    (hcopied : job.type = .multiHop → ∀ r, db.files.find? tf.fileId = some r → r.stageOnly = false) :
    ∀ e ∈ (TransferParty.after db parties before).trace Stmt.exec after, Step.finishes tf.fileId e = true →
      ((e.post.fileState? tf.fileId = some .archiving ↔ StartedToArchive jsonCpp realString s columns tf) ↔
        TestsAgree job p.asks (db.isLastHop j tf.fileId)) := by
  intro e he hfin
  obtain ⟨hexec, ⟨hfetched, hkept⟩, hdecides⟩ := since_fetch hturn hown hsteps hp hfiles htf hj e he
  obtain ⟨a, r, hact, hreq, hr, hid, hold, hpost⟩ := finishes_archiving hexec hfin
  -- the columns of the job are those at the start
  obtain ⟨jobₑ, hjobₑ, htype, htimeout⟩ := hfetched.job
  obtain ⟨job₀, hjob₀, htype₀, htimeout₀⟩ := hkept.job jobₑ hjobₑ
  obtain rfl : job = job₀ := Option.some.inj (hjob.symm.trans hjob₀)
  have hrange : -2 ^ 31 ≤ tf.archiveTimeout ∧ tf.archiveTimeout < 2 ^ 31 := by
    rw [htimeout, htimeout₀]
    cases ht : job.archiveTimeout with
    | none => decide
    | some t => exact hcolumn t ht
  obtain ⟨x, hx, hxid, -, hxstate⟩ := hfetched.row
  have hrf : r.fileId = tf.fileId := Table.find?_some hr
  obtain rfl : x = r := by
    have hfind := (mem_filesOf.mp hx).1
    rw [hxid, hr] at hfind
    exact (Option.some.inj hfind).symm
  have hused : e.pre.isMultihop j = true → x.fileState ≠ .notUsed ∧ x.stageOnly = false := by
    intro hmulti
    refine ⟨hxstate hmulti, ?_⟩
    obtain ⟨x₀, hx₀, hx₀id, hplace, -⟩ := hkept.hop hx
    have hmulti₀ : job.type = .multiHop := by simpa [Db.isMultihop, hjobₑ, htype₀] using hmulti
    rw [hplace.stageOnly]
    exact hcopied hmulti₀ x₀ (by rw [← hrf, ← hx₀id]; exact (mem_filesOf.mp hx₀).1)
  have hstarted : StartedToArchive jsonCpp realString s columns tf ↔ 0 < job.archiveTimeout.getD (-1) ∧
      (job.type = .multiHop → (p.asks && db.isLastHop j tf.fileId) = true) := by
    rw [startedToArchive_iff jsonCpp realString hrange.1 hrange.2, htimeout, htimeout₀, htype, htype₀]
    refine and_congr_right fun _ => forall_congr' fun hmulti => ?_
    rw [hfetched.lastHop (by rw [htype, htype₀, hmulti]), hkept.isLastHop]
  have hnew := hdecides _ hact hreq x hx hid hold hused jobₑ hjobₑ
  rw [hpost, hnew, hstarted, htype₀, htimeout₀, hrf, hkept.isLastHop]
  exact testsAgree_iff

/-- The update with which a transfer ends. -/
def finishedTransfer (fileId : Nat) : TransferParty :=
  .call (.updateTransferStatus { hostname := "a" } { jobId := "j", fileId, processId := 7, newFileState := .finished })

def readyLink (sourceSe destSe : String) : TransferParty :=
  .transfers { hostname := "a" } 100 {} [{ sourceSe, destSe, voName := "v" }]

/-! ### Two hops to a tape -/

def hopsToTape : Db where
  files := .ofRows [
    { fileId := 1, jobId := "j", fileState := .submitted, fileIndex := some 0, sourceSe := "s", destSe := "d"
      voName := "v", sourceSurl := some "root://s/f", destSurl := some "root://d/f" },
    { fileId := 2, jobId := "j", fileState := .notUsed, fileIndex := some 1, sourceSe := "d", destSe := "t"
      voName := "v", sourceSurl := some "root://d/f", destSurl := some "root://t/f" }]
  jobs := .ofRows [
    { jobId := "j", jobState := .submitted, jobType := some .multiHop, voName := "v", archiveTimeout := some 3600 }]

def hopToTape (fileId : Nat) (sourceSe destSe : String) (fileIndex : Int) : TransferFile where
  fileId := fileId
  jobId := "j"
  sourceSe := sourceSe
  destSe := destSe
  voName := "v"
  userDn := ""
  credId := ""
  activity := "default"
  fileIndex := fileIndex
  jobType := .multiHop
  archiveTimeout := 3600
  lastHop := fileIndex = 1

def hopAfterHop : List TransferParty :=
  [.executor { hostname := "a" } { pid := some 7 } (hopToTape 1 "s" "d" 0), finishedTransfer 1, readyLink "d" "t",
    .executor { hostname := "a" } { pid := some 7 } (hopToTape 2 "d" "t" 1), finishedTransfer 2]

theorem hopsToTape_submitted : MultihopJob.Submitted "j" hopsToTape where
  type := ⟨_, rfl, rfl⟩
  precedes := by decide
  first := by decide

theorem hopAfterHop_ownFile : ∀ p ∈ hopAfterHop, p.OwnFile hopsToTape := by
  intro p hp
  simp only [hopAfterHop, List.mem_cons, List.not_mem_nil, or_false] at hp
  rcases hp with rfl | rfl | rfl | rfl | rfl
  · trivial
  · rintro r hr
    cases hr
    rfl
  · trivial
  · trivial
  · rintro r hr
    cases hr
    rfl

/-- The first hop has finished, the second one is fetched, claimed and finished. -/
theorem archiving_decisions_agree_hopAfterHop :
    ∃ e ∈ (TransferParty.after hopsToTape hopAfterHop (List.replicate 32 0 ++ List.replicate 11 1 ++
        List.replicate 6 2)).trace Stmt.exec (List.replicate 31 3 ++ List.replicate 9 4), Step.finishes 2 e = true ∧
      ((e.post.fileState? 2 = some .archiving ↔
          StartedToArchive UrlCopy.JsonCpp.plainLibrary id {} {} (hopToTape 2 "d" "t" 1)) ↔
        TestsAgree { jobId := "j", jobState := .submitted, jobType := some .multiHop, voName := "v"
                     archiveTimeout := some 3600 } true (hopsToTape.isLastHop "j" 2)) := by
  have hsteps : ∀ e ∈ TransferParty.steps hopsToTape hopAfterHop ((List.replicate 32 0 ++ List.replicate 11 1 ++
      List.replicate 6 2) ++ (List.replicate 31 3 ++ List.replicate 9 4)), Step.keepsTurns "j" e = true := by decide
  have hfetched : (TransferParty.after hopsToTape hopAfterHop (List.replicate 32 0 ++ List.replicate 11 1 ++
      List.replicate 6 2)).result? 2 = some [hopToTape 2 "d" "t" 1] := rfl
  obtain ⟨e, he, hfinishes⟩ : ∃ e ∈ (TransferParty.after hopsToTape hopAfterHop (List.replicate 32 0 ++
      List.replicate 11 1 ++ List.replicate 6 2)).trace Stmt.exec (List.replicate 31 3 ++ List.replicate 9 4),
      Step.finishes 2 e = true := by decide
  refine ⟨e, he, hfinishes, ?_⟩
  refine archiving_decisions_agree_iff UrlCopy.JsonCpp.plainLibrary id {} {} (p := readyLink "d" "t") rfl (by simp)
    (fun _ => hopsToTape_submitted.inTurn (by decide)) hopAfterHop_ownFile hsteps rfl hfetched
    (List.mem_singleton.mpr rfl) rfl (fun _ r hr => ?_) e he hfinishes
  cases hr
  rfl

/-! ### An archive timeout of zero -/

def zeroTimeout : Db where
  files := .ofRows [
    { fileId := 1, jobId := "j", fileState := .submitted, fileIndex := some 0, sourceSe := "s", destSe := "d"
      voName := "v" }]
  jobs := .ofRows [
    { jobId := "j", jobState := .submitted, jobType := some .regular, voName := "v", archiveTimeout := some 0 }]

def zeroTimeoutTransfer : TransferFile where
  fileId := 1
  jobId := "j"
  sourceSe := "s"
  destSe := "d"
  voName := "v"
  userDn := ""
  credId := ""
  activity := "default"
  fileIndex := 0
  jobType := .regular

def oneTransfer : List TransferParty :=
  [readyLink "s" "d", .executor { hostname := "a" } { pid := some 7 } zeroTimeoutTransfer, finishedTransfer 1]

/-- The transfer is fetched, claimed and finished. The file becomes `ARCHIVING`, and `--archiving` has not been given. -/
theorem archiving_decisions_disagree_zeroTimeout :
    (TransferParty.after zeroTimeout oneTransfer (List.replicate 5 0)).result? 0 = some [zeroTimeoutTransfer] ∧
      ¬∀ e ∈ (TransferParty.after zeroTimeout oneTransfer (List.replicate 5 0)).trace Stmt.exec
          (List.replicate 19 1 ++ List.replicate 5 2), Step.finishes 1 e = true →
        (e.post.fileState? 1 = some .archiving ↔
          StartedToArchive UrlCopy.JsonCpp.plainLibrary id {} {} zeroTimeoutTransfer) := by
  refine ⟨rfl, fun hagree => ?_⟩
  have hstored : ∃ e ∈ (TransferParty.after zeroTimeout oneTransfer (List.replicate 5 0)).trace Stmt.exec
      (List.replicate 19 1 ++ List.replicate 5 2), (Step.finishes 1 e && e.post.fileState? 1 = some .archiving) = true :=
    List.any_eq_true.mp (by decide)
  obtain ⟨e, he, hfin⟩ := hstored
  rw [Bool.and_eq_true, decide_eq_true_eq] at hfin
  have hstarted := (hagree e he hfin.1).mp hfin.2
  rw [startedToArchive_iff UrlCopy.JsonCpp.plainLibrary id (by decide) (by decide)] at hstarted
  exact absurd hstarted.1 (by decide)

end runs

end Fts3.Server
