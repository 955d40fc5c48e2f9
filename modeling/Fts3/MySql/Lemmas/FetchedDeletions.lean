import Fts3.Common.Grouping
import Fts3.MySql.Fetching
import Fts3.MySql.Lemmas.DeletionRows

/-!
# The deletions that are fetched

`getFilesForDeletion` reads the deletions that nothing has been done about, and then stores that they are started.
-/

namespace Fts3.MySql

open Fts3.Sql

/-- The queries of `getFilesForDeletion`. -/
def selectDeletions (node : Node) : Op (List DeleteOperation) := do
  let queues ← select .rows fun db => node.listLinks (db.deletionQueues node)
  Proc.collect (fun (voName, sourceSe) => getFilesForDeletionOf node voName sourceSe) queues

/-- What it stores: first the states that an earlier call could not store. -/
def startedStates (messages : List (MinFileStatus DmState)) (delOps : List DeleteOperation) :
    List (MinFileStatus DmState) :=
  messages ++ delOps.map DeleteOperation.started

theorem getFilesForDeletion_eq (node : Node) (messages : List (MinFileStatus DmState)) :
    getFilesForDeletion node messages = (selectDeletions node).bind fun delOps =>
      if (startedStates messages delOps).isEmpty then pure delOps
      else (updateDeletionsStateInternal node (startedStates messages delOps)).bind fun _ => pure delOps := rfl

/-- The fetched deletion is that of the row, with what its job says. -/
structure FetchedRow (node : Node) (db : Db) (d : DeleteOperation) (r : DmRow) (j : JobRow) : Prop where
  row : db.dms.find? d.fileId = some r
  job : db.jobs.find? r.jobId = some j
  jobId : r.jobId = d.jobId
  surl : r.sourceSurl.getD "" = d.surl
  voName : j.voName = d.voName
  userDn : j.userDn = d.userDn
  waiting : r.fileState = .delete
  hashStart : node.hashStart ≤ r.hashedId
  hashEnd : r.hashedId ≤ node.hashEnd

theorem map_filterMap_sublist {α β γ : Type} {f : α → Option β} {g : β → γ} {key : α → γ}
    (h : ∀ a b, f a = some b → g b = key a) (as : List α) : ((as.filterMap f).map g).Sublist (as.map key) := by
  induction as with
  | nil => exact .slnil
  | cons a as ih =>
      cases hf : f a with
      | none =>
          rw [List.filterMap_cons_none hf, List.map_cons]
          exact ih.cons _
      | some b =>
          rw [List.filterMap_cons_some hf, List.map_cons, List.map_cons, h a b hf]
          exact ih.cons_cons _

section rows

variable {node : Node} {db : Db} {voName sourceSe userDn : String} {limit : Nat} {d : DeleteOperation}

theorem mem_deletionRows (h : d ∈ db.deletionRows node voName sourceSe userDn limit) :
    ∃ r j, FetchedRow node db d r j ∧ r.sourceSe = sourceSe ∧ d.voName = voName ∧ d.userDn = userDn := by
  have hmem := List.mem_of_mem_take h
  rw [List.mem_map] at hmem
  obtain ⟨⟨r, j⟩, hpair, rfl⟩ := hmem
  rw [List.mem_insertionSort, List.mem_filterMap] at hpair
  obtain ⟨r₀, hr, hj⟩ := hpair
  rw [Option.map_eq_some_iff] at hj
  obtain ⟨j₀, hj₀, heq⟩ := hj
  cases heq
  obtain ⟨hjob, hfilter⟩ := Option.filter_eq_some_iff.mp hj₀
  obtain ⟨hrow, hdeletable⟩ := List.mem_filter.mp hr
  simp only [DmRow.deletable, Bool.and_eq_true, decide_eq_true_eq] at hdeletable hfilter
  obtain ⟨⟨⟨⟨hstate, -⟩, hstart⟩, hend⟩, hse⟩ := hdeletable
  exact ⟨r, j, ⟨Table.find?_key hrow, hjob, rfl, rfl, hfilter.1.2, rfl, hstate, hstart, hend⟩, hse, rfl, hfilter.1.1⟩

theorem nodup_deletionRows : ((db.deletionRows node voName sourceSe userDn limit).map (·.fileId)).Nodup := by
  unfold Db.deletionRows
  rw [List.map_take, List.map_map]
  apply List.Nodup.sublist (List.take_sublist _ _)
  apply ((List.perm_insertionSort _ _).map _).nodup_iff.mpr
  have hkeys : ((db.dms.select (DmRow.deletable node sourceSe)).map (·.fileId)).Nodup :=
    db.dms.nodup.sublist (List.filter_sublist.map _)
  refine (map_filterMap_sublist (fun r p hp => ?_) _).nodup hkeys
  obtain ⟨j, -, rfl⟩ := Option.map_eq_some_iff.mp hp
  rfl

/-- What is fetched for one VO on one storage: the rows of each user. -/
theorem answer_getFilesForDeletionOf (node : Node) (voName sourceSe : String) (db : Db) :
    ∃ (users : List (String × String)) (limit : Nat),
      (users = [] ∨ users = node.listLinks (db.deletionUsers node voName sourceSe)) ∧
        (getFilesForDeletionOf node voName sourceSe).answer Stmt.exec db =
          users.flatMap fun u => db.deletionRows node voName u.1 u.2 limit := by
  simp only [getFilesForDeletionOf, Proc.bind_eq, Proc.answer_bind]
  generalize (concurrentOps "delete" voName sourceSe).answer Stmt.exec db = maxValueConfig
  generalize hlimit : (if 0 < _ then _ else _ : Int) = limit
  by_cases hslots : limit ≤ 0
  · refine ⟨[], 0, .inl rfl, ?_⟩
    rw [if_pos hslots]
    rfl
  · refine ⟨_, limit.toNat, .inr rfl, ?_⟩
    rw [if_neg hslots, Proc.answer_bind, Proc.answer_collect]
    rfl

/-- A node lists each of its queues and users once. -/
def Node.ListsOnce (node : Node) : Prop :=
  ∀ links, (node.listLinks links).Perm links

theorem mem_deletionUsers (hnode : node.ListsOnce) {u : String × String}
    (h : u ∈ node.listLinks (db.deletionUsers node voName sourceSe)) : u.1 = sourceSe := by
  rw [(hnode _).mem_iff, Db.deletionUsers, List.mem_dedup, List.mem_filterMap] at h
  obtain ⟨r, hr, hu⟩ := h
  obtain ⟨j, -, rfl⟩ := Option.map_eq_some_iff.mp hu
  have hsel := (List.mem_filter.mp hr).2
  simp only [DmRow.deletable, Bool.and_eq_true, decide_eq_true_eq] at hsel
  exact hsel.1.2

theorem mem_answer_of (hnode : node.ListsOnce) (h : d ∈ (getFilesForDeletionOf node voName sourceSe).answer Stmt.exec db) :
    ∃ r j, FetchedRow node db d r j ∧ r.sourceSe = sourceSe ∧ d.voName = voName := by
  obtain ⟨users, limit, husers, hanswer⟩ := answer_getFilesForDeletionOf node voName sourceSe db
  rw [hanswer, List.mem_flatMap] at h
  obtain ⟨u, hu, hd⟩ := h
  obtain ⟨r, j, hrow, hse, hvo, -⟩ := mem_deletionRows hd
  rcases husers with rfl | rfl
  · cases hu
  · exact ⟨r, j, hrow, hse.trans (mem_deletionUsers hnode hu), hvo⟩

theorem FetchedRow.unique {d d' : DeleteOperation} {r r' : DmRow} {j j' : JobRow} (h : FetchedRow node db d r j)
    (h' : FetchedRow node db d' r' j') (hfile : d.fileId = d'.fileId) : r = r' ∧ j = j' := by
  have hrow : r = r' := Option.some.inj (h.row.symm.trans (hfile ▸ h'.row))
  subst hrow
  exact ⟨rfl, Option.some.inj (h.job.symm.trans h'.job)⟩

theorem nodup_answer_of (hnode : node.ListsOnce) :
    (((getFilesForDeletionOf node voName sourceSe).answer Stmt.exec db).map (·.fileId)).Nodup := by
  obtain ⟨users, limit, husers, hanswer⟩ := answer_getFilesForDeletionOf node voName sourceSe db
  rw [hanswer]
  have hnodup : users.Nodup := by
    rcases husers with rfl | rfl
    · exact List.nodup_nil
    · exact (hnode _).nodup_iff.mpr (List.nodup_dedup _)
  refine nodup_map_flatMap hnodup (fun u _ => nodup_deletionRows) fun u _ u' _ d hd d' hd' hfile => ?_
  obtain ⟨r, j, hrow, hse, -, hdn⟩ := mem_deletionRows hd
  obtain ⟨r', j', hrow', hse', -, hdn'⟩ := mem_deletionRows hd'
  obtain ⟨rfl, rfl⟩ := hrow.unique hrow' hfile
  exact Prod.ext (hse.symm.trans hse') (hdn.symm.trans (hrow.userDn.symm.trans (hrow'.userDn.trans hdn')))

/-- What is fetched is waiting in the segment of the node, and nothing is fetched twice. -/
theorem answer_selectDeletions (hnode : node.ListsOnce) :
    (∀ d ∈ (selectDeletions node).answer Stmt.exec db, ∃ r j, FetchedRow node db d r j) ∧
      (((selectDeletions node).answer Stmt.exec db).map (·.fileId)).Nodup := by
  have hanswer : (selectDeletions node).answer Stmt.exec db = (node.listLinks (db.deletionQueues node)).flatMap
      fun q => (getFilesForDeletionOf node q.1 q.2).answer Stmt.exec db := by
    simp only [selectDeletions, Proc.bind_eq, Proc.answer_bind, Proc.answer_collect]
    rfl
  rw [hanswer]
  constructor
  · intro d hd
    obtain ⟨q, -, hd⟩ := List.mem_flatMap.mp hd
    obtain ⟨r, j, hrow, -⟩ := mem_answer_of hnode hd
    exact ⟨r, j, hrow⟩
  · refine nodup_map_flatMap ((hnode _).nodup_iff.mpr (List.nodup_dedup _)) (fun q _ => nodup_answer_of hnode)
      fun q _ q' _ d hd d' hd' hfile => ?_
    obtain ⟨r, j, hrow, hse, hvo⟩ := mem_answer_of hnode hd
    obtain ⟨r', j', hrow', hse', hvo'⟩ := mem_answer_of hnode hd'
    obtain ⟨rfl, rfl⟩ := hrow.unique hrow' hfile
    exact Prod.ext (hvo.symm.trans (hrow.voName.symm.trans (hrow'.voName.trans hvo'))) (hse.symm.trans hse')

end rows

end Fts3.MySql
