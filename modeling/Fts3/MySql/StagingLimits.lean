import Fts3.Common.Limits
import Fts3.MySql.Fetching

/-!
# Limits of staging requests and deletions

The limit on the concurrent operations of a VO on a storage is computed once and applied to each of its credentials.
-/

namespace Fts3.MySql

open Fts3.Sql

/-! ## Staging requests -/

section staging

/-- The configured limit, 0 or less if there is none. -/
def Db.concurrentOps (operation voName host : String) (db : Db) : Int :=
  (MySql.concurrentOps operation voName host).answer Stmt.exec db

def Db.stagingStarted (voName sourceSe : String) (db : Db) : Nat :=
  db.files.matched fun r => r.voName = voName && r.sourceSe = sourceSe && r.fileState = .started

/-- The files that may be started for a VO on a storage with a limit. -/
def Db.stagingRoom (node : Node) (voName sourceSe : String) (db : Db) : Nat :=
  (min (db.concurrentOps "staging" voName sourceSe - db.stagingStarted voName sourceSe) node.stagingBulkSize).toNat

/-- The files of a credential that wait. -/
def Db.stagingWaiting (node : Node) (voName sourceSe credId : String) (db : Db) : Nat :=
  ((db.files.select fun r => r.fileState = .staging && r.inSegment node && r.sourceSe = sourceSe).filterMap fun r =>
    (db.jobs.find? r.jobId).filter fun j => j.credId = credId && j.voName = voName).length

/-- Whether the loop of `getFilesForStaging` gets as far as the number of files in the queue. -/
def Db.stagingFree (node : Node) (voName sourceSe : String) (db : Db) : Bool :=
  ((stagingLimit node voName sourceSe).answer Stmt.exec db).isSome &&
    (countDistinct (·.bringonlineToken) (db.files.select fun r =>
      r.voName = voName && r.fileState = .started && r.sourceSe = sourceSe) : Int) ≤ node.stagingConcurrentRequests

def Db.stagingQueued (voName sourceSe : String) (db : Db) : Nat :=
  db.files.matched fun r => r.voName = voName && r.sourceSe = sourceSe && r.fileState = .staging

/-- Whether the request is made, and the timers afterwards. -/
def Db.stagingTurn (node : Node) (now : Nat) (queued : QueuedStagingFiles) (voName sourceSe : String) (db : Db) :
    Bool × QueuedStagingFiles :=
  if db.stagingFree node voName sourceSe then
    if (db.stagingQueued voName sourceSe : Int) < node.stagingBulkSize then waitForBulk node now sourceSe queued
    else (true, queued)
  else (false, queued)

variable {node : Node} {now : Nat} {queued : QueuedStagingFiles} {voName sourceSe : String} {db : Db}

theorem getFilesForStagingOf_answer :
    (getFilesForStagingOf node now queued voName sourceSe).answer Stmt.exec db =
      (if (db.stagingTurn node now queued voName sourceSe).1 then
          (node.listLinks (db.stagingCredentials node voName sourceSe)).flatMap fun link =>
            db.stagingRows node voName link.1 link.2
              (((stagingLimit node voName sourceSe).answer Stmt.exec db).getD 0).toNat
        else [], (db.stagingTurn node now queued voName sourceSe).2) := by
  rw [getFilesForStagingOf, Proc.bind_eq, Proc.answer_bind, Db.stagingTurn, Db.stagingFree]
  cases hlimit : (stagingLimit node voName sourceSe).answer Stmt.exec db with
  | none => rfl
  | some limit =>
      simp only [Proc.bind_eq, select_bind, Proc.answer_select, Option.isSome_some, Bool.true_and, Option.getD_some,
        decide_eq_true_eq]
      by_cases hrequests : node.stagingConcurrentRequests < (countDistinct (·.bringonlineToken) (db.files.select fun r =>
          r.voName = voName && r.fileState = .started && r.sourceSe = sourceSe) : Int)
      · rw [if_pos hrequests, if_neg (not_le.mpr hrequests)]
        rfl
      · rw [if_neg hrequests, if_pos (not_lt.mp hrequests)]
        simp only [Proc.answer_select]
        change Proc.answer Stmt.exec (if (if (db.stagingQueued voName sourceSe : Int) < node.stagingBulkSize then
          waitForBulk node now sourceSe queued else (true, queued)).1 = false then _ else _) db = _
        cases hturn : (if (db.stagingQueued voName sourceSe : Int) < node.stagingBulkSize then
            waitForBulk node now sourceSe queued else (true, queued)).1 with
        | false => rfl
        | true =>
            simp only [Bool.true_eq_false, if_false, if_true, Proc.answer_select, Proc.answer_bind, Proc.answer_collect]
            rfl

theorem stagingLimit_room (hlimit : 0 < db.concurrentOps "staging" voName sourceSe) :
    (((stagingLimit node voName sourceSe).answer Stmt.exec db).getD 0).toNat = db.stagingRoom node voName sourceSe := by
  have hanswer : (stagingLimit node voName sourceSe).answer Stmt.exec db =
      if db.concurrentOps "staging" voName sourceSe - db.stagingStarted voName sourceSe ≤ 0 then none
      else some (min (db.concurrentOps "staging" voName sourceSe - db.stagingStarted voName sourceSe)
        node.stagingBulkSize) := by
    rw [stagingLimit, Proc.bind_eq, Proc.answer_bind]
    change Proc.answer Stmt.exec (if 0 < db.concurrentOps "staging" voName sourceSe then _ else _) db = _
    rw [if_pos hlimit]
    have hleft : (if 0 < db.stagingStarted voName sourceSe then
        db.concurrentOps "staging" voName sourceSe - db.stagingStarted voName sourceSe
        else db.concurrentOps "staging" voName sourceSe) =
          db.concurrentOps "staging" voName sourceSe - db.stagingStarted voName sourceSe := by
      split <;> omega
    rw [← hleft]
    rfl
  rw [hanswer, Db.stagingRoom]
  split
  · simp only [Option.getD_none]
    omega
  · rfl

/-- The files of a VO on a storage among those that are returned. -/
def StagingOperation.isOf (db : Db) (voName sourceSe : String) (op : StagingOperation) : Bool :=
  op.voName = voName && (db.files.find? op.fileId).any (·.sourceSe = sourceSe)

theorem stagingRows_isOf {credId : String} {limit : Nat} {op : StagingOperation}
    (h : op ∈ db.stagingRows node voName sourceSe credId limit) (voName' sourceSe' : String) :
    op.isOf db voName' sourceSe' = true ↔ (voName', sourceSe') = (voName, sourceSe) := by
  obtain ⟨r, hr, hop⟩ := List.mem_filterMap.mp (List.mem_of_mem_take h)
  obtain ⟨j, -, rfl⟩ := Option.map_eq_some_iff.mp hop
  obtain ⟨hmem, hcond⟩ := List.mem_filter.mp hr
  simp only [Bool.and_eq_true, decide_eq_true_eq] at hcond
  have hfind : db.files.find? (StagingOperation.ofRow node voName r j).fileId = some r := Table.find?_key hmem
  rw [StagingOperation.isOf, hfind, Option.any_some, Bool.and_eq_true, decide_eq_true_eq, decide_eq_true_eq, hcond.2,
    Prod.mk.injEq]
  exact and_congr eq_comm eq_comm

theorem fst_of_mem_stagingCredentials {link : String × String}
    (h : link ∈ db.stagingCredentials node voName sourceSe) : link.1 = sourceSe := by
  obtain ⟨r, hr, hlink⟩ := List.mem_filterMap.mp (List.mem_dedup.mp h)
  obtain ⟨j, -, rfl⟩ := Option.map_eq_some_iff.mp hlink
  obtain ⟨-, hcond⟩ := List.mem_filter.mp hr
  simp only [Bool.and_eq_true, decide_eq_true_eq] at hcond
  exact hcond.2

variable (hlinks : ∀ links, (node.listLinks links).Perm links)

include hlinks

theorem getFilesForStagingOf_isOf {op : StagingOperation}
    (h : op ∈ ((getFilesForStagingOf node now queued voName sourceSe).answer Stmt.exec db).1)
    (voName' sourceSe' : String) : op.isOf db voName' sourceSe' = true ↔ (voName', sourceSe') = (voName, sourceSe) := by
  rw [getFilesForStagingOf_answer] at h
  simp only at h
  split at h
  · obtain ⟨link, hlink, hop⟩ := List.mem_flatMap.mp h
    rw [fst_of_mem_stagingCredentials ((hlinks _).mem_iff.mp hlink)] at hop
    exact stagingRows_isOf hop voName' sourceSe'
  · cases h

/-- What a VO on a storage takes in its turn. -/
theorem length_getFilesForStagingOf (hlimit : 0 < db.concurrentOps "staging" voName sourceSe) :
    ((getFilesForStagingOf node now queued voName sourceSe).answer Stmt.exec db).1.length =
      if (db.stagingTurn node now queued voName sourceSe).1 then
        ((db.stagingCredentials node voName sourceSe).map fun link => min (db.stagingRoom node voName sourceSe)
          (db.stagingWaiting node voName sourceSe link.2)).sum
      else 0 := by
  rw [getFilesForStagingOf_answer]
  simp only
  split
  · rw [List.length_flatMap, ((hlinks _).map _).sum_eq]
    congr 1
    apply List.map_congr_left
    intro link hlink
    rw [fst_of_mem_stagingCredentials hlink, Db.stagingRows, List.length_take, stagingLimit_room hlimit,
      Db.stagingWaiting]
    congr 1
    simp only [List.length_filterMap_eq_countP, Option.isSome_map]
  · rfl

omit hlinks in
theorem filesForStaging_cons (link : String × String) (queues : List (String × String)) (queued : QueuedStagingFiles) :
    (filesForStaging node now (link :: queues) queued).answer Stmt.exec db =
      (((getFilesForStagingOf node now queued link.1 link.2).answer Stmt.exec db).1 ++
        ((filesForStaging node now queues ((getFilesForStagingOf node now queued link.1 link.2).answer Stmt.exec
          db).2).answer Stmt.exec db).1,
      ((filesForStaging node now queues ((getFilesForStagingOf node now queued link.1 link.2).answer Stmt.exec
        db).2).answer Stmt.exec db).2) := by
  simp only [filesForStaging, Proc.bind_eq, Proc.answer_bind]
  rfl

omit hlinks in
theorem filesForStaging_append (pre post : List (String × String)) (queued : QueuedStagingFiles) :
    (filesForStaging node now (pre ++ post) queued).answer Stmt.exec db =
      (((filesForStaging node now pre queued).answer Stmt.exec db).1 ++
        ((filesForStaging node now post ((filesForStaging node now pre queued).answer Stmt.exec db).2).answer
          Stmt.exec db).1,
      ((filesForStaging node now post ((filesForStaging node now pre queued).answer Stmt.exec db).2).answer
        Stmt.exec db).2) := by
  induction pre generalizing queued with
  | nil => rfl
  | cons link pre ih => simp only [List.cons_append, filesForStaging_cons, ih, List.append_assoc]

/-- The other VOs and storages return none of its files. -/
theorem filesForStaging_others {queues : List (String × String)} (h : (voName, sourceSe) ∉ queues)
    (queued : QueuedStagingFiles) :
    ((filesForStaging node now queues queued).answer Stmt.exec db).1.filter (·.isOf db voName sourceSe) = [] := by
  induction queues generalizing queued with
  | nil => rfl
  | cons link queues ih =>
      have hne : (voName, sourceSe) ≠ link := fun heq => h (heq ▸ .head _)
      have hrest : (voName, sourceSe) ∉ queues := fun hmem => h (.tail _ hmem)
      rw [filesForStaging_cons, List.filter_append, ih hrest, List.append_nil, List.filter_eq_nil_iff]
      intro op hop hisOf
      exact hne ((getFilesForStagingOf_isOf hlinks hop voName sourceSe).mp hisOf)

omit hlinks in
theorem not_mem_takeWhile_ne {p : String × String} {l : List (String × String)} : p ∉ l.takeWhile (· ≠ p) :=
  fun h => by simpa using List.all_eq_true.mp List.all_takeWhile p h

/-- The turn of a VO on a storage comes once. -/
theorem exists_turn (hmem : (voName, sourceSe) ∈ db.stagingQueues node) :
    ∃ post, node.listLinks (db.stagingQueues node) =
      (node.listLinks (db.stagingQueues node)).takeWhile (· ≠ (voName, sourceSe)) ++ (voName, sourceSe) :: post ∧
        (voName, sourceSe) ∉ post := by
  have hnodup : (node.listLinks (db.stagingQueues node)).Nodup := (hlinks _).nodup_iff.mpr (List.nodup_dedup _)
  obtain ⟨pre, post, hqueues⟩ := List.append_of_mem ((hlinks _).mem_iff.mpr hmem)
  rw [hqueues] at hnodup ⊢
  have hpre : (voName, sourceSe) ∉ pre := fun h => (List.nodup_append.mp hnodup).2.2 _ h _ (.head _) rfl
  refine ⟨post, ?_, (List.nodup_cons.mp (List.nodup_append.mp hnodup).2.1).1⟩
  rw [List.takeWhile_append_of_pos]
  · simp
  · intro link hlink
    simpa using fun heq : link = (voName, sourceSe) => hpre (heq ▸ hlink)

/-- The timers when the turn of a VO on a storage comes. -/
def Db.timersAt (node : Node) (now : Nat) (queued : QueuedStagingFiles) (voName sourceSe : String) (db : Db) :
    QueuedStagingFiles :=
  ((filesForStaging node now ((node.listLinks (db.stagingQueues node)).takeWhile (· ≠ (voName, sourceSe)))
    queued).answer Stmt.exec db).2

theorem filter_getFilesForStaging :
    ((getFilesForStaging node now queued).answer Stmt.exec db).1.filter (·.isOf db voName sourceSe) =
      if (voName, sourceSe) ∈ db.stagingQueues node then
        ((getFilesForStagingOf node now (db.timersAt node now queued voName sourceSe) voName sourceSe).answer Stmt.exec
          db).1
      else [] := by
  rw [getFilesForStaging, Proc.bind_eq, select_bind, Proc.answer_select, Db.timersAt]
  split
  · rename_i hmem
    obtain ⟨post, hqueues, hpost⟩ := exists_turn hlinks hmem
    rw [hqueues, filesForStaging_append, filesForStaging_cons, ← hqueues, List.filter_append, List.filter_append,
      filesForStaging_others hlinks not_mem_takeWhile_ne, filesForStaging_others hlinks hpost, List.nil_append,
      List.append_nil, List.filter_eq_self]
    intro op hop
    exact (getFilesForStagingOf_isOf hlinks hop voName sourceSe).mpr rfl
  · rename_i hmem
    exact filesForStaging_others hlinks (fun h => hmem ((hlinks _).mem_iff.mp h)) _

/-- One call returns no more files of a VO on a storage than there is room for when its turn has not come, when
the files of its credentials fit, or when they are those of one credential. -/
theorem staging_within_room_iff (hlimit : 0 < db.concurrentOps "staging" voName sourceSe) :
    (((getFilesForStaging node now queued).answer Stmt.exec db).1.filter (·.isOf db voName sourceSe)).length ≤
        db.stagingRoom node voName sourceSe ↔
      (db.stagingTurn node now (db.timersAt node now queued voName sourceSe) voName sourceSe).1 = false ∨
        ((db.stagingCredentials node voName sourceSe).map fun link =>
          db.stagingWaiting node voName sourceSe link.2).sum ≤ db.stagingRoom node voName sourceSe ∨
        db.stagingRoom node voName sourceSe = 0 ∨
        ∀ c ∈ db.stagingCredentials node voName sourceSe, ∀ d ∈ db.stagingCredentials node voName sourceSe,
          0 < db.stagingWaiting node voName sourceSe c.2 → 0 < db.stagingWaiting node voName sourceSe d.2 → c = d := by
  have hnone : (voName, sourceSe) ∉ db.stagingQueues node → db.stagingCredentials node voName sourceSe = [] := by
    intro hmem
    refine List.eq_nil_iff_forall_not_mem.mpr fun link hlink => hmem ?_
    obtain ⟨r, hr, -⟩ := List.mem_filterMap.mp (List.mem_dedup.mp hlink)
    obtain ⟨hrow, hcond⟩ := List.mem_filter.mp hr
    simp only [Bool.and_eq_true, decide_eq_true_eq] at hcond
    obtain ⟨⟨hstaging, hvo⟩, hse⟩ := hcond
    rw [Db.stagingQueues, List.mem_dedup, ← hvo, ← hse]
    apply List.mem_map_of_mem (f := fun r : FileRow => (r.voName, r.sourceSe))
    exact List.mem_filter.mpr ⟨hrow, by simp [hstaging]⟩
  rw [filter_getFilesForStaging hlinks]
  split
  · rw [length_getFilesForStagingOf hlinks hlimit]
    cases hturn : (db.stagingTurn node now (db.timersAt node now queued voName sourceSe) voName sourceSe).1 with
    | false => simp
    | true =>
        have hnodup : (db.stagingCredentials node voName sourceSe).Nodup := List.nodup_dedup _
        rw [if_pos rfl, sum_min_le_iff (w := fun link => db.stagingWaiting node voName sourceSe link.2) hnodup le_rfl]
        simp only [true_and, Bool.true_eq_false, false_or]
  · rename_i hmem
    rw [hnone hmem]
    simp

end staging

/-! ## Deletions -/

section deletions

def Db.deletionsMax (voName sourceSe : String) (db : Db) : Int :=
  if 0 < db.concurrentOps "delete" voName sourceSe then db.concurrentOps "delete" voName sourceSe else maxDeletions

def Db.deletionsStarted (voName sourceSe : String) (db : Db) : Nat :=
  db.dms.matched fun r => r.voName = voName && r.sourceSe = sourceSe && r.fileState = .started

/-- Those that `getFilesForDeletion` counts. -/
def Db.deletionsCounted (voName sourceSe : String) (db : Db) : Nat :=
  db.dms.matched fun r => r.voName = voName && r.sourceSe = sourceSe && r.fileState = .started && r.jobFinished.isNone

/-- The deletions that may be started for a VO on a storage. -/
def Db.deletionRoom (voName sourceSe : String) (db : Db) : Nat :=
  (db.deletionsMax voName sourceSe - db.deletionsStarted voName sourceSe).toNat

def Db.deletionRoomCounted (voName sourceSe : String) (db : Db) : Nat :=
  (db.deletionsMax voName sourceSe - db.deletionsCounted voName sourceSe).toNat

/-- The deletions of a user that wait. -/
def Db.deletionWaiting (node : Node) (voName sourceSe userDn : String) (db : Db) : Nat :=
  ((db.dms.select (DmRow.deletable node sourceSe)).filterMap fun r => (db.jobs.find? r.jobId).filter fun j =>
    j.userDn = userDn && j.voName = voName && j.jobFinished.isNone).length

def DeleteOperation.isOf (db : Db) (voName sourceSe : String) (op : DeleteOperation) : Bool :=
  op.voName = voName && (db.dms.find? op.fileId).any (·.sourceSe = sourceSe)

variable {node : Node} {voName sourceSe : String} {db : Db}

theorem deletionsCounted_le (voName sourceSe : String) (db : Db) :
    db.deletionsCounted voName sourceSe ≤ db.deletionsStarted voName sourceSe := by
  apply List.countP_mono_left
  intro r _ h
  simp only [Bool.and_eq_true] at h ⊢
  exact h.1

theorem getFilesForDeletionOf_answer : (getFilesForDeletionOf node voName sourceSe).answer Stmt.exec db =
    if db.deletionsMax voName sourceSe - db.deletionsCounted voName sourceSe ≤ 0 then []
    else (node.listLinks (db.deletionUsers node voName sourceSe)).flatMap fun link =>
      db.deletionRows node voName link.1 link.2 (db.deletionRoomCounted voName sourceSe) := by
  have hleft : (if 0 < db.deletionsCounted voName sourceSe then
      db.deletionsMax voName sourceSe - db.deletionsCounted voName sourceSe else db.deletionsMax voName sourceSe) =
        db.deletionsMax voName sourceSe - db.deletionsCounted voName sourceSe := by
    split <;> omega
  rw [getFilesForDeletionOf, Proc.bind_eq, Proc.answer_bind]
  simp only [Proc.bind_eq, select_bind, Proc.answer_select]
  change Proc.answer Stmt.exec (if (if 0 < db.deletionsCounted voName sourceSe then
      db.deletionsMax voName sourceSe - db.deletionsCounted voName sourceSe else db.deletionsMax voName sourceSe) ≤ 0
    then _ else Proc.select .rows fun db' => Proc.collect (fun link : String × String => select .rows
      (Db.deletionRows node voName link.1 link.2 (if 0 < db.deletionsCounted voName sourceSe then
      db.deletionsMax voName sourceSe - db.deletionsCounted voName sourceSe else
        db.deletionsMax voName sourceSe).toNat)) _) db = _
  rw [hleft]
  split
  · rfl
  · rw [Proc.answer_select, Proc.answer_collect]
    rfl

theorem deletionRows_isOf {userDn : String} {limit : Nat} {op : DeleteOperation}
    (h : op ∈ db.deletionRows node voName sourceSe userDn limit) (voName' sourceSe' : String) :
    op.isOf db voName' sourceSe' = true ↔ (voName', sourceSe') = (voName, sourceSe) := by
  obtain ⟨⟨r, j⟩, hrow, rfl⟩ := List.mem_map.mp (List.mem_of_mem_take h)
  obtain ⟨r', hr, hpair⟩ := List.mem_filterMap.mp ((List.mem_insertionSort _).mp hrow)
  obtain ⟨j', -, heq⟩ := Option.map_eq_some_iff.mp hpair
  cases heq
  obtain ⟨hmem, hcond⟩ := List.mem_filter.mp hr
  simp only [DmRow.deletable, Bool.and_eq_true, decide_eq_true_eq] at hcond
  rw [DeleteOperation.isOf, Table.find?_key hmem, Option.any_some, Bool.and_eq_true, decide_eq_true_eq,
    decide_eq_true_eq, hcond.2, Prod.mk.injEq]
  exact and_congr eq_comm eq_comm

theorem fst_of_mem_deletionUsers {link : String × String} (h : link ∈ db.deletionUsers node voName sourceSe) :
    link.1 = sourceSe := by
  obtain ⟨r, hr, hlink⟩ := List.mem_filterMap.mp (List.mem_dedup.mp h)
  obtain ⟨j, -, rfl⟩ := Option.map_eq_some_iff.mp hlink
  obtain ⟨-, hcond⟩ := List.mem_filter.mp hr
  simp only [DmRow.deletable, Bool.and_eq_true, decide_eq_true_eq] at hcond
  exact hcond.1.2

variable (hlinks : ∀ links, (node.listLinks links).Perm links)

include hlinks

theorem getFilesForDeletionOf_isOf {op : DeleteOperation}
    (h : op ∈ (getFilesForDeletionOf node voName sourceSe).answer Stmt.exec db) (voName' sourceSe' : String) :
    op.isOf db voName' sourceSe' = true ↔ (voName', sourceSe') = (voName, sourceSe) := by
  rw [getFilesForDeletionOf_answer] at h
  split at h
  · cases h
  · obtain ⟨link, hlink, hop⟩ := List.mem_flatMap.mp h
    rw [fst_of_mem_deletionUsers ((hlinks _).mem_iff.mp hlink)] at hop
    exact deletionRows_isOf hop voName' sourceSe'

/-- What a VO on a storage takes in its turn. -/
theorem length_getFilesForDeletionOf : ((getFilesForDeletionOf node voName sourceSe).answer Stmt.exec db).length =
    ((db.deletionUsers node voName sourceSe).map fun link => min (db.deletionRoomCounted voName sourceSe)
      (db.deletionWaiting node voName sourceSe link.2)).sum := by
  rw [getFilesForDeletionOf_answer]
  split
  · rename_i hfull
    have hzero : db.deletionRoomCounted voName sourceSe = 0 := Int.toNat_of_nonpos hfull
    simp [hzero]
  · rw [List.length_flatMap, ((hlinks _).map _).sum_eq]
    congr 1
    apply List.map_congr_left
    intro link hlink
    rw [fst_of_mem_deletionUsers hlink, Db.deletionRows, List.length_take, Db.deletionWaiting]
    congr 1
    simp only [List.length_map, List.length_insertionSort, List.length_filterMap_eq_countP, Option.isSome_map]

theorem filter_deletions (queues : List (String × String)) (hnodup : queues.Nodup) :
    (queues.flatMap fun link => (getFilesForDeletionOf node link.1 link.2).answer Stmt.exec db).filter
        (·.isOf db voName sourceSe) =
      if (voName, sourceSe) ∈ queues then (getFilesForDeletionOf node voName sourceSe).answer Stmt.exec db else [] := by
  induction queues with
  | nil => rfl
  | cons link queues ih =>
      obtain ⟨hnotin, hrest⟩ := List.nodup_cons.mp hnodup
      rw [List.flatMap_cons, List.filter_append, ih hrest]
      by_cases hlink : (voName, sourceSe) = link
      · subst hlink
        rw [if_neg hnotin, List.append_nil, if_pos (.head _), List.filter_eq_self]
        intro op hop
        exact (getFilesForDeletionOf_isOf hlinks hop voName sourceSe).mpr rfl
      · have hnone : ((getFilesForDeletionOf node link.1 link.2).answer Stmt.exec db).filter
            (·.isOf db voName sourceSe) = [] := by
          rw [List.filter_eq_nil_iff]
          intro op hop hisOf
          exact hlink ((getFilesForDeletionOf_isOf hlinks hop voName sourceSe).mp hisOf)
        rw [hnone, List.nil_append]
        simp only [List.mem_cons, hlink, false_or]

omit hlinks in
/-- The states are stored after the deletions have been fetched. -/
theorem getFilesForDeletion_run (messages : List (MinFileStatus DmState)) :
    ((getFilesForDeletion node messages).run Stmt.exec db).1 =
      (node.listLinks (db.deletionQueues node)).flatMap fun link =>
        (getFilesForDeletionOf node link.1 link.2).answer Stmt.exec db := by
  have hreads : (Proc.collect (fun link : String × String => getFilesForDeletionOf node link.1 link.2)
      (node.listLinks (db.deletionQueues node))).Issues fun _ => False := by
    refine Proc.issues_collect fun link _ => ?_
    have hmax : (MySql.concurrentOps "delete" link.1 link.2).Issues fun _ => False := by
      simp [MySql.concurrentOps, select, Proc.query]
    refine hmax.bind fun max => ?_
    simp only [Proc.bind_eq, select_bind, Proc.issues_select, Proc.issues_ite]
    exact fun db => ⟨fun _ => trivial, fun _ _ => Proc.issues_collect fun link _ => by simp [select, Proc.query]⟩
  have hcollect : Proc.run Stmt.exec _ db = (_, db) := hreads.run_eq_answer db
  rw [Proc.answer_collect] at hcollect
  rw [getFilesForDeletion, Proc.bind_eq, select_bind, Proc.run_select, Proc.bind_eq, Proc.run_bind]
  simp only [hcollect]
  split
  · rfl
  · rw [Proc.bind_eq, Proc.run_bind]
    rfl

/-- The same for the deletions. Those that are `STARTED` in a finished job are not counted. -/
theorem deletions_within_room_iff (messages : List (MinFileStatus DmState)) :
    (((getFilesForDeletion node messages).run Stmt.exec db).1.filter (·.isOf db voName sourceSe)).length ≤
        db.deletionRoom voName sourceSe ↔
      ((db.deletionUsers node voName sourceSe).map fun link =>
          db.deletionWaiting node voName sourceSe link.2).sum ≤ db.deletionRoom voName sourceSe ∨
        db.deletionRoomCounted voName sourceSe = db.deletionRoom voName sourceSe ∧
          (db.deletionRoom voName sourceSe = 0 ∨
            ∀ c ∈ db.deletionUsers node voName sourceSe, ∀ d ∈ db.deletionUsers node voName sourceSe,
              0 < db.deletionWaiting node voName sourceSe c.2 → 0 < db.deletionWaiting node voName sourceSe d.2 →
                c = d) := by
  have hnone : (voName, sourceSe) ∉ db.deletionQueues node → db.deletionUsers node voName sourceSe = [] := by
    intro hmem
    refine List.eq_nil_iff_forall_not_mem.mpr fun link hlink => hmem ?_
    obtain ⟨r, hr, -⟩ := List.mem_filterMap.mp (List.mem_dedup.mp hlink)
    obtain ⟨hrow, hcond⟩ := List.mem_filter.mp hr
    simp only [DmRow.deletable, Bool.and_eq_true, decide_eq_true_eq] at hcond
    obtain ⟨⟨⟨⟨⟨hdelete, -⟩, hstart⟩, hend⟩, hse⟩, hvo⟩ := hcond
    rw [Db.deletionQueues, List.mem_dedup, ← hvo, ← hse]
    apply List.mem_map_of_mem (f := fun r : DmRow => (r.voName, r.sourceSe))
    exact List.mem_filter.mpr ⟨hrow, by simp [hdelete, hstart, hend]⟩
  have hroom : db.deletionRoom voName sourceSe ≤ db.deletionRoomCounted voName sourceSe := by
    have hle := deletionsCounted_le voName sourceSe db
    rw [Db.deletionRoom, Db.deletionRoomCounted]
    omega
  have hnodup : (node.listLinks (db.deletionQueues node)).Nodup := (hlinks _).nodup_iff.mpr (List.nodup_dedup _)
  have husers : (db.deletionUsers node voName sourceSe).Nodup := List.nodup_dedup _
  rw [getFilesForDeletion_run, filter_deletions hlinks _ hnodup]
  split
  · rw [length_getFilesForDeletionOf hlinks,
      sum_min_le_iff (w := fun link => db.deletionWaiting node voName sourceSe link.2) husers hroom]
  · rename_i hmem
    rw [hnone fun h => hmem ((hlinks _).mem_iff.mpr h)]
    simp

end deletions

/-- The limits of the staging requests and of the deletions of a VO on a storage. -/
theorem concurrent_ops_within_limits_iff (node : Node) (hlinks : ∀ links, (node.listLinks links).Perm links)
    (voName sourceSe : String) (db : Db) (now : Nat) (queued : QueuedStagingFiles)
    (messages : List (MinFileStatus DmState)) :
    (0 < db.concurrentOps "staging" voName sourceSe →
      ((((getFilesForStaging node now queued).answer Stmt.exec db).1.filter (·.isOf db voName sourceSe)).length ≤
          db.stagingRoom node voName sourceSe ↔
        (db.stagingTurn node now (db.timersAt node now queued voName sourceSe) voName sourceSe).1 = false ∨
          ((db.stagingCredentials node voName sourceSe).map fun link =>
            db.stagingWaiting node voName sourceSe link.2).sum ≤ db.stagingRoom node voName sourceSe ∨
          db.stagingRoom node voName sourceSe = 0 ∨
          ∀ c ∈ db.stagingCredentials node voName sourceSe, ∀ d ∈ db.stagingCredentials node voName sourceSe,
            0 < db.stagingWaiting node voName sourceSe c.2 → 0 < db.stagingWaiting node voName sourceSe d.2 → c = d)) ∧
    ((((getFilesForDeletion node messages).run Stmt.exec db).1.filter (·.isOf db voName sourceSe)).length ≤
        db.deletionRoom voName sourceSe ↔
      ((db.deletionUsers node voName sourceSe).map fun link =>
          db.deletionWaiting node voName sourceSe link.2).sum ≤ db.deletionRoom voName sourceSe ∨
        db.deletionRoomCounted voName sourceSe = db.deletionRoom voName sourceSe ∧
          (db.deletionRoom voName sourceSe = 0 ∨
            ∀ c ∈ db.deletionUsers node voName sourceSe, ∀ d ∈ db.deletionUsers node voName sourceSe,
              0 < db.deletionWaiting node voName sourceSe c.2 → 0 < db.deletionWaiting node voName sourceSe d.2 →
                c = d)) :=
  ⟨staging_within_room_iff hlinks, deletions_within_room_iff hlinks messages⟩

/-- Two files of a VO wait to be staged and two to be deleted, on a storage with room for one of each. -/
def limitDb (credId : String) : Db where
  files := .ofRows [
    { fileId := 1, jobId := "j", fileState := .staging, sourceSe := "s", voName := "v" },
    { fileId := 2, jobId := "k", fileState := .staging, sourceSe := "s", voName := "v" }]
  dms := .ofRows [
    { fileId := 1, jobId := "j", fileState := .delete, sourceSe := "s", voName := "v" },
    { fileId := 2, jobId := "k", fileState := .delete, sourceSe := "s", voName := "v" }]
  jobs := .ofRows [{ jobId := "j", jobState := .staging, voName := "v", credId := "a", userDn := "a" },
    { jobId := "k", jobState := .staging, voName := "v", credId, userDn := credId }]
  stageReq := [{ voName := "v", host := "s", operation := "staging", concurrentOps := some 1 },
    { voName := "v", host := "s", operation := "delete", concurrentOps := some 1 }]

/-- The files are those of one credential. -/
theorem concurrent_ops_within_limits_oneCredential :
    (((getFilesForStaging { hostname := "h", stagingBulkSize := 2 } 0 []).answer Stmt.exec (limitDb "a")).1.filter
        (·.isOf (limitDb "a") "v" "s")).length ≤ 1 ∧
      (((getFilesForDeletion { hostname := "h", stagingBulkSize := 2 } []).run Stmt.exec (limitDb "a")).1.filter
        (·.isOf (limitDb "a") "v" "s")).length ≤ 1 := by
  have h := concurrent_ops_within_limits_iff { hostname := "h", stagingBulkSize := 2 } (fun _ => .refl _) "v" "s"
    (limitDb "a") 0 [] []
  have hstaging := (h.1 (by decide)).mpr (by decide)
  have hdeletion := h.2.mpr (by decide)
  exact ⟨hstaging, hdeletion⟩

/-- The files are those of two credentials. -/
theorem concurrent_ops_beyond_limits_twoCredentials :
    0 < (limitDb "b").concurrentOps "staging" "v" "s" ∧
      ¬(((getFilesForStaging { hostname := "h", stagingBulkSize := 2 } 0 []).answer Stmt.exec (limitDb "b")).1.filter
        (·.isOf (limitDb "b") "v" "s")).length ≤ (limitDb "b").stagingRoom { hostname := "h", stagingBulkSize := 2 } "v" "s" ∧
      ¬(((getFilesForDeletion { hostname := "h", stagingBulkSize := 2 } []).run Stmt.exec (limitDb "b")).1.filter
        (·.isOf (limitDb "b") "v" "s")).length ≤ (limitDb "b").deletionRoom "v" "s" := by
  decide

end Fts3.MySql
