import Fts3.MySql.Lemmas.Stranded

/-!
# Files that a status is not about

The status of a file touches the other files only where they are `NOT_USED`. The file itself is stored in the new state
when its state is still the one that was read.
-/

namespace Fts3.MySql

open Fts3.Sql

variable {node : Node} {db : Db} {f : Nat} {r : FileRow}

/-- The statement leaves the file alone, unless it is `NOT_USED`. -/
def Stmt.Spares (f : Nat) (s : Stmt) : Prop :=
  ∀ db r, db.files.find? f = some r → r.fileState ≠ .notUsed → (s.exec db).2.files.find? f = some r

theorem spares_file {u : FileUpdate} (h : ∀ r, r.fileId = f → r.fileState ≠ .notUsed → u.selects r = false) :
    Stmt.Spares f (.file u) := by
  intro db r hr hst
  rw [exec_file_find?, hr, Option.map_some, h r (Table.find?_some hr) hst]
  rfl

theorem alone_spares {β : Type} {p : Op β} (hp : p.Issues (Stmt.Spares f)) (hr : db.files.find? f = some r)
    (hst : r.fileState ≠ .notUsed) : (p.alone db).files.find? f = some r :=
  hp.run (I := fun db => db.files.find? f = some r) (fun _ db hs h => hs db r h hst) hr

theorem updateJob_spares (node : Node) (j : String) (st : FileState) :
    (updateJobTransferStatusInternal node j st).Issues (Stmt.Spares f) := by
  have hjob : ∀ u, Stmt.Spares f (.job u) := fun u db r hr _ => hr
  refine issues_updateJobTransferStatusInternal (fun _ _ _ _ => hjob _) (hjob _) (fun _ => hjob _) (hjob _) ?_ node st
  exact spares_file fun r _ hst => by simp [FileUpdate.selects, hst]

theorem afterFileUpdate_spares (j : String) (f' : Nat) (job : JobInfo) (st : FileState) (uuid : Option String) :
    (afterFileUpdate node j f' job st uuid).Issues (Stmt.Spares f) := by
  refine issues_afterFileUpdate node j f' job st uuid (fun _ => ?_) (fun _ _ => ?_) ?_
  all_goals exact spares_file fun r _ hst => by simp [FileUpdate.selects, hst]

theorem updateTransferStatus_eq {a : TransferStatus} (hj : a.jobId ≠ "") (hf : a.fileId ≠ 0) :
    updateFileTransferStatusInternal node a = .tx .begin (updateFileState node a a.jobId a.fileId) := by
  simp [updateFileTransferStatusInternal, fileToUpdate, hj, hf]

/-- The compare-and-set on the state that the file is in. -/
theorem storeFileState_stores {a : TransferStatus} (hr : db.files.find? f = some r) (hst : a.newFileState ≠ .notUsed)
    (j : String) (job : JobInfo) (uuid : Option String) :
    ∃ r', ((storeFileState node a j f job (some r.fileState) uuid false).alone db).files.find? f = some r' ∧
      r'.fileState = a.newFileState ∧ r'.reason = some a.errorReason := by
  have hsel : (FileUpdate.updateFileTransferStatus (a.update node f job (some r.fileState) false)).selects r = true := by
    have hid : r.fileId = f := Table.find?_some hr
    simp [FileUpdate.selects, TransferStatus.update, hid]
  refine ⟨(a.update node f job (some r.fileState) false).sets r, ?_, rfl, rfl⟩
  have hrow : ((Stmt.file (.updateFileTransferStatus (a.update node f job (some r.fileState) false))).exec db).2.files.find?
      f = some ((a.update node f job (some r.fileState) false).sets r) := by
    rw [exec_file_find?, hr, Option.map_some, if_pos hsel]
    rfl
  have hmatched : ((Stmt.file (.updateFileTransferStatus (a.update node f job (some r.fileState) false))).exec db).1 ≠ 0 :=
    Nat.pos_iff_ne_zero.mp (Table.matched_pos.mpr ⟨r, Table.mem_of_find? hr, hsel⟩)
  rw [storeFileState_eq, Op.alone, Proc.run_update, if_neg hmatched]
  exact alone_spares ((afterFileUpdate_spares j f job _ uuid).bind fun _ => trivial) hrow hst

/-- A status that is not refused, other than `FINISHED`. -/
theorem updateFileState_stores (node : Node) {a : TransferStatus} (hr : db.files.find? f = some r)
    (href : refused (some r.fileState) a.newFileState a.processId = false) (hfin : a.newFileState ≠ .finished)
    (hst : a.newFileState ≠ .notUsed) (j : String) :
    ∃ r', ((updateFileState node a j f).alone db).files.find? f = some r' ∧ r'.fileState = a.newFileState ∧
      r'.reason = some a.errorReason := by
  obtain ⟨r', hr', hst'⟩ := storeFileState_stores hr hst j (jobInfo node j db) r.destSurlUuid
  refine ⟨r', ?_, hst'⟩
  simp only [updateFileState, Op.alone, Proc.bind_eq, select_bind, Proc.run_select, hr, Option.map_some, Option.bind_some]
  rw [if_neg (by simp [href]), if_neg hfin]
  exact hr'

/-! ## One status after the other -/

/-- The rows have the ids that the submission and the database have given them. -/
def Db.Keyed (db : Db) : Prop :=
  ∀ r ∈ db.files.rows, r.jobId ≠ "" ∧ r.fileId ≠ 0

instance (db : Db) : Decidable db.Keyed :=
  inferInstanceAs (Decidable (∀ r ∈ db.files.rows, r.jobId ≠ "" ∧ r.fileId ≠ 0))

theorem Db.Keyed.exec (hdb : db.Keyed) (s : Stmt) : (s.exec db).2.Keyed := by
  intro r hr
  obtain ⟨r₀, hr₀, hj⟩ := exec_row s (Table.find?_key hr)
  have hid : r₀.fileId = r.fileId := Table.find?_some hr₀
  rw [hj, ← hid]
  exact hdb r₀ (Table.mem_of_find? hr₀)

/-- A status of a file and of its job: the compare-and-set on the file, and the statements that make room for the next
replica or hop and aggregate the job. -/
theorem issues_recoverFile {P : Stmt → Prop} {x : FileRow} (hj : x.jobId ≠ "") (hid : x.fileId ≠ 0)
    (hjob : ∀ u, P (.job u)) (hrep : ∀ j f uuid, P (.file (.useFileReplica j f uuid))) (hhop : ∀ f, P (.file (.useNextHop f)))
    (hnull : ∀ j, P (.file (.setNullDestSURLMultiHop j))) (hcancel : ∀ j, P (.file (.cancelUnusedMultihopFiles j)))
    (hcas : ∀ u : StatusUpdate, u.fileId = x.fileId → P (.file (.updateFileTransferStatus u))) (st : FileState)
    (message : String) : (recoverFile node st message x).Issues P := by
  refine Proc.Issues.bind ?_ fun _ => Proc.Issues.bind ?_ fun _ => trivial
  · rw [updateTransferStatus_eq hj hid, Proc.issues_tx]
    exact issues_updateFileState hrep (fun _ => hhop) hnull (fun u hu _ _ _ => hcas u hu) _
  · exact issues_updateJobTransferStatusInternal (fun _ _ _ _ => hjob _) (hjob _) (fun _ => hjob _) (hjob _)
      (hcancel x.jobId) node st

theorem recoverFile_spares {x : FileRow} (hj : x.jobId ≠ "") (hid : x.fileId ≠ 0) (hne : x.fileId ≠ f)
    (st : FileState) (message : String) : (recoverFile node st message x).Issues (Stmt.Spares f) := by
  apply issues_recoverFile hj hid
  case hjob => exact fun u db r hr _ => hr
  case hcas =>
    intro u hu
    refine spares_file fun r hr _ => ?_
    simp [FileUpdate.selects, hr, hu, Ne.symm hne]
  all_goals
    intros
    exact spares_file fun r _ hst => by simp [FileUpdate.selects, hst]

theorem recoverFile_stores (node : Node) {x : FileRow} (hj : x.jobId ≠ "") (hid : x.fileId ≠ 0)
    (hr : db.files.find? x.fileId = some r) {st : FileState} (href : refused (some r.fileState) st 0 = false)
    (hfin : st ≠ .finished) (hst : st ≠ .notUsed) (message : String) :
    ∃ r', ((recoverFile node st message x).alone db).files.find? x.fileId = some r' ∧ r'.fileState = st ∧
      r'.reason = some message := by
  simp only [recoverFile, Proc.bind_eq]
  rw [updateTransferStatus_eq, Proc.tx_bind, Op.alone, Proc.run_tx, ← Op.alone, Op.alone_bind]
  · obtain ⟨r', hr', hst', hreason⟩ := updateFileState_stores node (a := ⟨x.jobId, x.fileId, 0, st, message, 0, 0, 0, false, ""⟩)
      hr href hfin hst x.jobId
    refine ⟨r', alone_spares ((updateJob_spares node x.jobId st).bind fun _ => trivial) hr' ?_, hst', hreason⟩
    rw [hst']
    exact hst
  · exact hj
  · exact hid

/-- What a loop over distinct files does to one of them. -/
theorem recoverFiles_stores (node : Node) {xs : List FileRow} (hxs : ∀ x ∈ xs, x.jobId ≠ "" ∧ x.fileId ≠ 0)
    (hnodup : (xs.map (·.fileId)).Nodup) (message : FileRow → String) {x : FileRow} (hx : x ∈ xs)
    (hr : db.files.find? x.fileId = some r) (hr' : r.fileState ≠ .notUsed) (st : FileState)
    (href : refused (some r.fileState) st 0 = false) (hfin : st ≠ .finished) (hst : st ≠ .notUsed) :
    ∃ r', (Op.alone (xs.forM fun x => recoverFile node st (message x) x) db).files.find? x.fileId = some r' ∧
      r'.fileState = st ∧ r'.reason = some (message x) := by
  induction xs generalizing db with
  | nil => cases hx
  | cons y xs ih =>
      rw [List.map_cons, List.nodup_cons] at hnodup
      rw [Op.alone, Proc.run_forM_cons]
      have hy := hxs y (by simp)
      have hrest : ∀ z ∈ xs, z.jobId ≠ "" ∧ z.fileId ≠ 0 := fun z hz => hxs z (by simp [hz])
      rcases List.mem_cons.mp hx with rfl | hx
      · obtain ⟨r', hstored, hst', hreason⟩ := recoverFile_stores node hy.1 hy.2 hr href hfin hst (message x)
        refine ⟨r', alone_spares (Proc.issues_forM xs _ fun z hz => ?_) hstored (by rw [hst']; exact hst), hst', hreason⟩
        refine recoverFile_spares (hrest z hz).1 (hrest z hz).2 (fun heq => hnodup.1 ?_) _ _
        rw [← heq]
        exact List.mem_map_of_mem hz
      · have hne : y.fileId ≠ x.fileId := by
          intro heq
          rw [heq] at hnodup
          exact hnodup.1 (List.mem_map_of_mem hx)
        exact ih hrest hnodup.2 hx (alone_spares (recoverFile_spares hy.1 hy.2 hne st (message y)) hr hr')

/-- The files that the predicate selects get the status, each with its own message. -/
def recoverSelected (node : Node) (st : FileState) (p : FileRow → Bool) (message : FileRow → String) : Op Unit := do
  let rows ← select .rows fun db => db.files.select p
  rows.forM fun r => recoverFile node st (message r) r

section selected

variable {p : FileRow → Bool} {st : FileState}

theorem recoverSelected_alone (node : Node) (st : FileState) (p : FileRow → Bool) (message : FileRow → String) (db : Db) :
    (recoverSelected node st p message).alone db =
      Op.alone ((db.files.select p).forM fun r => recoverFile node st (message r) r) db := rfl

theorem recoverSelected_keyed (hdb : db.Keyed) (message : FileRow → String) :
    ((recoverSelected node st p message).alone db).Keyed :=
  Op.alone_keeps (fun s _ hdb => hdb.exec s) _ hdb

/-- The statements are those about the selected files. -/
theorem recoverSelected_run {P : Stmt → Prop} {I : Db → Prop} (message : FileRow → String)
    (hissues : ∀ x ∈ db.files.rows, p x = true → (recoverFile node st (message x) x).Issues P)
    (hI : ∀ s db, P s → I db → I (s.exec db).2) (hdb : I db) : I ((recoverSelected node st p message).alone db) := by
  rw [recoverSelected_alone]
  refine (Proc.issues_forM _ _ fun x hx => ?_).run hI hdb
  obtain ⟨hmem, hp⟩ := List.mem_filter.mp hx
  exact hissues x hmem hp

theorem recoverSelected_spares (hdb : db.Keyed) (hr : db.files.find? f = some r) (hst : r.fileState ≠ .notUsed)
    (hp : p r = false) (message : FileRow → String) :
    ((recoverSelected node st p message).alone db).files.find? f = some r := by
  refine recoverSelected_run (P := Stmt.Spares f) (I := fun db => db.files.find? f = some r) message (fun x hx hpx => ?_)
    (fun s db hs h => hs db r h hst) hr
  refine recoverFile_spares (hdb x hx).1 (hdb x hx).2 (fun heq => ?_) _ _
  rw [← heq, Table.find?_key hx] at hr
  rw [Option.some.inj hr, hp] at hpx
  cases hpx

theorem recoverSelected_stores (node : Node) (hdb : db.Keyed) (hr : db.files.find? f = some r)
    (hr' : r.fileState ≠ .notUsed) (hp : p r = true) (href : refused (some r.fileState) st 0 = false)
    (hfin : st ≠ .finished) (hst : st ≠ .notUsed) (message : FileRow → String) :
    ∃ r', ((recoverSelected node st p message).alone db).files.find? f = some r' ∧ r'.fileState = st ∧
      r'.reason = some (message r) := by
  have hid : r.fileId = f := Table.find?_some hr
  subst hid
  refine recoverFiles_stores node (fun x hx => hdb x (List.mem_filter.mp hx).1) ?_ message ?_ hr hr' st href hfin hst
  · exact db.files.nodup.sublist (List.filter_sublist.map _)
  · exact List.mem_filter.mpr ⟨Table.mem_of_find? hr, hp⟩

end selected

section each

variable {γ : Type} {st : FileState} {p : γ → FileRow → Bool}

theorem recoverEach_spares (hdb : db.Keyed) (hr : db.files.find? f = some r) (hst : r.fileState ≠ .notUsed)
    {message : γ → FileRow → String} {xs : List γ} (hp : ∀ x ∈ xs, p x r = false) :
    (Op.alone (xs.forM fun x => recoverSelected node st (p x) (message x)) db).files.find? f = some r := by
  refine (Op.alone_forM (I := fun db => db.Keyed ∧ db.files.find? f = some r) (fun x hx db hdb => ?_) ⟨hdb, hr⟩).2
  exact ⟨recoverSelected_keyed hdb.1 _, recoverSelected_spares hdb.1 hdb.2 hst (hp x hx) _⟩

/-- A file that one of the selections matches gets the status of the first of them, where none of them matches a file that
has it. -/
theorem recoverEach_stores (node : Node) (st : FileState) (p : γ → FileRow → Bool) (message : γ → FileRow → String)
    (hdb : db.Keyed) (hr : db.files.find? f = some r) (hr' : r.fileState ≠ .notUsed)
    (href : refused (some r.fileState) st 0 = false) (hfin : st ≠ .finished) (hst : st ≠ .notUsed)
    (hskip : ∀ x r, r.fileState = st → p x r = false) {xs : List γ} (hp : ∃ x ∈ xs, p x r = true) :
    ∃ r', (Op.alone (xs.forM fun x => recoverSelected node st (p x) (message x)) db).files.find? f = some r' ∧
      r'.fileState = st ∧ ∃ x ∈ xs, p x r = true ∧ r'.reason = some (message x r) := by
  induction xs generalizing db with
  | nil => simp at hp
  | cons x xs ih =>
      rw [Op.alone, Proc.run_forM_cons, ← Op.alone, ← Op.alone]
      have hkeyed : ((recoverSelected node st (p x) (message x)).alone db).Keyed := recoverSelected_keyed hdb _
      cases hx : p x r with
      | true =>
          obtain ⟨r', hstored, hst', hreason⟩ := recoverSelected_stores node hdb hr hr' hx href hfin hst (message x)
          refine ⟨r', recoverEach_spares hkeyed hstored ?_ fun y _ => hskip y r' hst', hst', x, by simp, hx, hreason⟩
          rw [hst']
          exact hst
      | false =>
          have hrest : ∃ y ∈ xs, p y r = true := by simpa [hx] using hp
          obtain ⟨r', hstored, hst', y, hy, hreason⟩ := ih hkeyed (recoverSelected_spares hdb hr hr' hx _) hrest
          exact ⟨r', hstored, hst', y, by simp [hy], hreason⟩

end each

end Fts3.MySql
