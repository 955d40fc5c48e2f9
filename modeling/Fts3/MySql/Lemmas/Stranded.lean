import Fts3.MySql.Lemmas.Status
import Fts3.MySql.Lemmas.Progress

/-!
# Stranded replicas

A multiple replica job goes on while one of its replicas is live. Whoever ends a replica is to use the next
one; a job without a live replica that still has an unused one is stranded.
-/

namespace Fts3.MySql

open Fts3.Sql

/-! ## The property -/

/-- Live, or finished: the job does not need another replica. -/
def FileState.serves : FileState → Bool
  | submitted | ready | active | staging | started | archiving | tokenPrep | onHold | finished => true
  | _ => false

def OpenReplicaJob (j : String) (db : Db) : Prop :=
  ∃ job, db.jobs.find? j = some job ∧ job.type = .multipleReplica ∧ job.jobState.terminal = false

/-- The job is not over, none of its replicas is live or finished, and one is `NOT_USED`. -/
def Stranded (j : String) (db : Db) : Prop :=
  OpenReplicaJob j db ∧ (∀ r ∈ db.filesOf j, r.fileState.serves = false) ∧
    ∃ r ∈ db.filesOf j, r.fileState = .notUsed

/-! ## One statement -/

section statement

variable {j : String} {db db' : Db}

theorem not_stranded_of_serves {r : FileRow} (hr : r ∈ db.filesOf j) (hst : r.fileState.serves = true) :
    ¬Stranded j db := by
  intro h
  rw [h.2.1 r hr] at hst
  cases hst

theorem openReplicaJob_job {u : JobUpdate} (hg : u.unguarded = false)
    (h : OpenReplicaJob j ((Stmt.job u).exec db).2) : OpenReplicaJob j db := by
  obtain ⟨job', hjob', hty', hlive'⟩ := h
  rw [exec_job_find?, Option.map_eq_some_iff] at hjob'
  obtain ⟨job, hjob, rfl⟩ := hjob'
  split at hty'
  · rename_i hsel
    exact ⟨job, hjob, by rw [← hty', u.sets_type], JobUpdate.selects_not_terminal hg hsel⟩
  · rename_i hsel
    rw [if_neg hsel] at hlive'
    exact ⟨job, hjob, hty', hlive'⟩

/-- The `UPDATE` takes no replica out of service, and makes none `NOT_USED`. -/
def FileUpdate.Serves (j : String) (u : FileUpdate) (db : Db) : Prop :=
  ∀ r ∈ db.filesOf j, u.selects r = true → ∀ st, u.writes? = some st →
    st.serves = true ∨ r.fileState.serves = false ∧ st ≠ .notUsed

theorem FileUpdate.Serves.not_stranded {u : FileUpdate} (hu : u.Serves j db) (h : ¬Stranded j db) :
    ¬Stranded j ((Stmt.file u).exec db).2 := by
  rintro ⟨hjob, hnone, r', hr', hst'⟩
  rw [exec_file_filesOf] at hnone hr'
  obtain ⟨r, hr, rfl⟩ := List.mem_map.mp hr'
  refine h ⟨hjob, fun a ha => ?_, r, hr, ?_⟩
  · have ha' := hnone _ (List.mem_map_of_mem ha)
    split at ha'
    · rename_i hsel
      rw [u.sets_fileState] at ha'
      cases hw : u.writes? with
      | none =>
          rw [hw, Option.getD_none] at ha'
          exact ha'
      | some st =>
          rw [hw, Option.getD_some] at ha'
          rcases hu a ha hsel st hw with hserves | ⟨hserves, -⟩
          · rw [ha'] at hserves
            cases hserves
          · exact hserves
    · exact ha'
  · split at hst'
    · rename_i hsel
      rw [u.sets_fileState] at hst'
      cases hw : u.writes? with
      | none =>
          rw [hw, Option.getD_none] at hst'
          exact hst'
      | some st =>
          rw [hw, Option.getD_some] at hst'
          rcases hu r hr hsel st hw with hserves | ⟨-, hne⟩
          · rw [hst'] at hserves
            cases hserves
          · exact absurd hst' hne
    · exact hst'

/-- What takes no replica of the job out of service: the file `f` belongs to another job, or gets a state that
serves. -/
def Stmt.Serves (F : Nat → Prop) : Stmt → Prop
  | .file (.updateFileTransferStatus u) => u.newState.serves = true ∨ F u.fileId
  | .file (.stagingTerminal f st _) => st.serves = true ∨ F f
  | .file (.updateArchivingState f st _) => st.serves = true ∨ F f
  | .file (.setRetryTransfer _ _ _ _) | .file (.setRetryTransferStaging _ _ _)
  | .file (.resetForRetryStaging _ _ _ _) | .file (.useFileReplica _ _ _) | .file (.useNextHop _)
  | .file (.stagingStarted _ _) | .file (.stagingSubmitted _ _) | .file (.cancelUnusedMultihopFiles _)
  | .file (.recoverStalledStaging _) | .file (.setNullDestSURLMultiHop _) => True
  | .job u => u.unguarded = false
  | .insertRetryError _ | .tick _ => True
  | _ => False

theorem Stmt.Serves.mono {F G : Nat → Prop} {s : Stmt} (hs : s.Serves F) (h : ∀ f, F f → G f) : s.Serves G := by
  unfold Stmt.Serves at hs
  split at hs
  all_goals first | exact hs.imp_right (h _) | exact hs | exact hs.elim

/-- The files with `F` are not files of the job. -/
def Foreign (j : String) (F : Nat → Prop) (db : Db) : Prop :=
  ∀ r ∈ db.filesOf j, ¬F r.fileId

theorem serves_of_writes {u : FileUpdate} {st : FileState} (hw : u.writes? = some st) (h : st.serves = true) :
    u.Serves j db := by
  intro r _ _ st' hw'
  rw [hw] at hw'
  obtain rfl := Option.some.inj hw'
  exact .inl h

theorem serves_of_foreign {u : FileUpdate} {F : Nat → Prop} (hF : Foreign j F db)
    (h : ∀ r, u.selects r = true → F r.fileId) : u.Serves j db :=
  fun r hr hsel => absurd (h r hsel) (hF r hr)

theorem Stmt.Serves.file {u : FileUpdate} {F : Nat → Prop} (h : Stmt.Serves F (.file u)) (hF : Foreign j F db) :
    u.Serves j db := by
  cases u with
  | updateFileTransferStatus a =>
      rcases h with h | h
      · exact serves_of_writes rfl h
      · refine serves_of_foreign hF fun r hsel => ?_
        simp only [FileUpdate.selects, Bool.and_eq_true, decide_eq_true_eq] at hsel
        exact hsel.1 ▸ h
  | stagingTerminal f st reason =>
      rcases h with h | h
      · exact serves_of_writes rfl h
      · refine serves_of_foreign hF fun r hsel => ?_
        simp only [FileUpdate.selects, Bool.and_eq_true, decide_eq_true_eq] at hsel
        exact hsel.1 ▸ h
  | updateArchivingState f st reason =>
      rcases h with h | h
      · exact serves_of_writes rfl h
      · refine serves_of_foreign hF fun r hsel => ?_
        simp only [FileUpdate.selects, decide_eq_true_eq] at hsel
        exact hsel ▸ h
  | cancelUnusedMultihopFiles j' =>
      intro r _ hsel st hw
      simp only [FileUpdate.selects, Bool.and_eq_true, decide_eq_true_eq] at hsel
      refine .inr ⟨by rw [hsel.2]; rfl, ?_⟩
      rw [← Option.some.inj hw]
      decide
  | recoverStalledStaging f => exact fun _ _ _ _ hw => by cases hw
  | setNullDestSURLMultiHop j' => exact fun _ _ _ _ hw => by cases hw
  | setRetryTransfer _ _ _ _ => exact serves_of_writes rfl rfl
  | setRetryTransferStaging _ _ _ => exact serves_of_writes rfl rfl
  | resetForRetryStaging _ _ _ _ => exact serves_of_writes rfl rfl
  | useFileReplica _ _ _ => exact serves_of_writes rfl rfl
  | useNextHop _ => exact serves_of_writes rfl rfl
  | stagingStarted _ _ => exact serves_of_writes rfl rfl
  | stagingSubmitted _ _ => exact serves_of_writes rfl rfl
  | _ => cases h

theorem Foreign.exec {F : Nat → Prop} (hF : Foreign j F db) (s : Stmt) (h : Stmt.Serves F s) :
    Foreign j F (s.exec db).2 := by
  cases s with
  | file u =>
      intro r' hr'
      rw [exec_file_filesOf] at hr'
      obtain ⟨r, hr, rfl⟩ := List.mem_map.mp hr'
      split
      · rw [u.sets_fileId]
        exact hF r hr
      · exact hF r hr
  | job u => exact hF
  | insertRetryError row => exact hF
  | tick d => exact hF
  | _ => cases h

theorem Stmt.Serves.not_stranded {s : Stmt} {F : Nat → Prop} (hs : Stmt.Serves F s)
    (h : Foreign j F db ∧ ¬Stranded j db) : Foreign j F (s.exec db).2 ∧ ¬Stranded j (s.exec db).2 := by
  refine ⟨h.1.exec s hs, ?_⟩
  cases s with
  | file u => exact (hs.file h.1).not_stranded h.2
  | job u => exact fun hpost => h.2 ⟨openReplicaJob_job hs hpost.1, hpost.2⟩
  | insertRetryError row => exact h.2
  | tick d => exact h.2
  | _ => cases hs

end statement

/-- An operation all of whose statements leave the replicas in service. -/
theorem Op.not_stranded {β : Type} {j : String} {F : Nat → Prop} {p : Op β} {db : Db} (hp : p.Issues (Stmt.Serves F))
    (hF : Foreign j F db) (h : ¬Stranded j db) : ¬Stranded j (p.alone db) :=
  (hp.run (I := fun db => Foreign j F db ∧ ¬Stranded j db) (fun _ _ hs h => hs.not_stranded h) ⟨hF, h⟩).2

/-! ## The next replica -/

/-- The database lists each link once, in whatever order. -/
def Node.ListsLinks (node : Node) : Prop :=
  ∀ links link, link ∈ node.listLinks links ↔ link ∈ links

section next

variable {node : Node} {j : String} {db : Db}

theorem queuedPerLink_run (vo : String) (links : List (String × String)) (db : Db) :
    ((queuedPerLink vo links).run Stmt.exec db).2 = db ∧
    (links ≠ [] → ((queuedPerLink vo links).run Stmt.exec db).1 ≠ []) ∧
    ∀ e ∈ ((queuedPerLink vo links).run Stmt.exec db).1, e.1 ∈ links := by
  induction links with
  | nil => simp [queuedPerLink]
  | cons link links ih =>
      obtain ⟨hdb, -, hmem⟩ := ih
      simp only [queuedPerLink, Proc.bind_eq, select_bind, Proc.run_select]
      split
      · simp
      · simp only [Proc.run_bind, Proc.pure_eq, Proc.run_ret, List.mem_cons, forall_eq_or_imp]
        exact ⟨hdb, by simp, by simp, fun e he => .inr (hmem e he)⟩

theorem foldl_mem_of_choice {α : Type} {f : α → α → α} (hf : ∀ b e, f b e = b ∨ f b e = e) (es : List α) (b : α) :
    es.foldl f b ∈ b :: es := by
  induction es generalizing b with
  | nil => simp
  | cons e es ih =>
      rw [List.foldl_cons]
      rcases List.mem_cons.mp (ih (f b e)) with h | h
      · rw [h]
        rcases hf b e with hb | he
        · simp [hb]
        · simp [he]
      · exact List.mem_cons_of_mem _ (List.mem_cons_of_mem _ h)

theorem foldl_least {α : Type} {f : α → α → α} {μ : α → Nat}
    (hf : ∀ b e, μ (f b e) ≤ μ b ∧ μ (f b e) ≤ μ e) (es : List α) (b : α) :
    ∀ e ∈ b :: es, μ (es.foldl f b) ≤ μ e := by
  induction es generalizing b with
  | nil => simp
  | cons e es ih =>
      intro e' he'
      have hstart : μ (es.foldl f (f b e)) ≤ μ (f b e) := ih _ _ (by simp)
      rw [List.foldl_cons]
      rcases List.mem_cons.mp he' with rfl | he'
      · exact hstart.trans (hf e' e).1
      · rcases List.mem_cons.mp he' with rfl | he'
        · exact hstart.trans (hf b e').2
        · exact ih _ e' (List.mem_cons_of_mem _ he')

/-- `min_element` gives a link of the map with the least value. -/
theorem minLink_least {pairs : List ((String × String) × Nat)} (h : pairs ≠ []) :
    ∃ e ∈ pairs, minLink pairs = some e.1 ∧ ∀ e' ∈ pairs, e.2 ≤ e'.2 := by
  cases pairs with
  | nil => exact absurd rfl h
  | cons e es =>
      refine ⟨_, foldl_mem_of_choice (fun b e => ?_) es e, rfl, foldl_least (fun b e => ?_) es e⟩
      · split
        · exact .inr rfl
        · exact .inl rfl
      · split
        · omega
        · omega

/-- When a replica is left, `getBestNextReplica` finds one. -/
theorem getBestNextReplica_run (hlist : node.ListsLinks) (vo : String) {r : FileRow} (hr : r ∈ db.filesOf j)
    (hst : r.fileState = .notUsed) : ((getBestNextReplica node j vo).run Stmt.exec db).2 = db ∧
    ∃ r' ∈ db.filesOf j, r'.fileState = .notUsed ∧
      r'.fileId = ((getBestNextReplica node j vo).run Stmt.exec db).1 := by
  simp only [getBestNextReplica, Proc.bind_eq, select_bind, Proc.run_select, Proc.run_bind]
  obtain ⟨hdb, hne, hmem⟩ := queuedPerLink_run vo (node.listLinks
    (((db.filesOf j).filter fun r => r.fileState = .notUsed).map fun r => (r.sourceSe, r.destSe)).dedup) db
  have hlink : (r.sourceSe, r.destSe) ∈ node.listLinks
      (((db.filesOf j).filter fun r => r.fileState = .notUsed).map fun r => (r.sourceSe, r.destSe)).dedup := by
    rw [hlist, List.mem_dedup]
    exact List.mem_map_of_mem (List.mem_filter.mpr ⟨hr, by simpa using hst⟩)
  obtain ⟨e, he, hmin, -⟩ := minLink_least (hne fun h => by rw [h] at hlink; cases hlink)
  rw [hdb, hmin]
  have hlink' := hmem e he
  rw [hlist, List.mem_dedup] at hlink'
  obtain ⟨r₁, hr₁, heq⟩ := List.mem_map.mp hlink'
  obtain ⟨hr₁, hst₁⟩ := List.mem_filter.mp hr₁
  have hsrc : r₁.sourceSe = e.1.1 := congrArg Prod.fst heq
  have hdst : r₁.destSe = e.1.2 := congrArg Prod.snd heq
  refine ⟨rfl, ?_⟩
  simp only [select, Proc.query, Proc.run_select, Proc.run_ret]
  cases hfind : db.files.rows.find? (fun r => decide (r.fileState = .notUsed) && decide (r.sourceSe = e.1.1) &&
      decide (r.destSe = e.1.2) && decide (r.jobId = j)) with
  | none =>
      rw [List.find?_eq_none] at hfind
      refine absurd ?_ (hfind r₁ (Table.mem_of_find? (mem_filesOf.mp hr₁).1))
      simp only [Bool.and_eq_true, decide_eq_true_eq] at hst₁ ⊢
      exact ⟨⟨⟨hst₁, hsrc⟩, hdst⟩, (mem_filesOf.mp hr₁).2⟩
  | some r₂ =>
      have hsel := List.find?_some hfind
      simp only [Bool.and_eq_true, decide_eq_true_eq] at hsel
      exact ⟨r₂, mem_filesOf.mpr ⟨Table.find?_key (List.mem_of_find?_eq_some hfind), hsel.2⟩, hsel.1.1.1, rfl⟩

theorem useFileReplica_update_serves {f : Nat} {uuid : Option String} {r : FileRow} (hr : r ∈ db.filesOf j)
    (hst : r.fileState = .notUsed) (hid : r.fileId = f) :
    ¬Stranded j ((Stmt.file (.useFileReplica j f uuid)).exec db).2 := by
  have hsel : (FileUpdate.useFileReplica j f uuid).selects r = true := by
    simp [FileUpdate.selects, (mem_filesOf.mp hr).2, hid, hst]
  refine not_stranded_of_serves (r := (FileUpdate.useFileReplica j f uuid).sets db.now r) ?_ rfl
  rw [exec_file_filesOf]
  refine List.mem_map.mpr ⟨r, hr, ?_⟩
  rw [if_pos hsel]

theorem useFileReplica_issues_serves (f : Nat) (uuid : Option String) :
    (useFileReplica node j f uuid).Issues (Stmt.Serves fun _ => False) :=
  issues_useFileReplica node j f uuid fun _ => trivial

/-- After `useFileReplica` the job is not stranded, whatever it was before. -/
theorem useFileReplica_not_stranded (hlist : node.ListsLinks) (hids : ∀ r ∈ db.filesOf j, 0 < r.fileId) (f : Nat)
    (uuid : Option String) : ¬Stranded j ((useFileReplica node j f uuid).alone db) := by
  by_cases hleft : ∃ r ∈ db.filesOf j, r.fileState = .notUsed
  · obtain ⟨r, hr, hst⟩ := hleft
    simp only [useFileReplica, Op.alone, Proc.bind_eq, select_bind, Proc.run_select, updateFile_bind]
    split
    · rename_i hactive
      obtain ⟨r₁, hr₁, hsel⟩ := Table.matched_pos.mp hactive
      simp only [Bool.and_eq_true, decide_eq_true_eq] at hsel
      refine not_stranded_of_serves (mem_filesOf.mpr ⟨Table.find?_key hr₁, hsel.2⟩) ?_
      rcases List.mem_cons.mp hsel.1 with h | h
      · rw [h]
        rfl
      · rw [List.mem_singleton.mp h]
        rfl
    · simp only [Proc.run_select]
      split
      · obtain ⟨hdb, r₁, hr₁, hst₁, hid₁⟩ := getBestNextReplica_run hlist
          (((db.files.find? f).map (·.voName)).getD "") hr hst
        rw [Proc.run_bind, hdb, ← hid₁, if_pos (hids r₁ hr₁)]
        exact useFileReplica_update_serves hr₁ hst₁ rfl
      · obtain ⟨r₁, hr₁, hst₁, hid₁⟩ := minNotUsed_mem_of_unused hr hst
        exact useFileReplica_update_serves hr₁ hst₁ hid₁
  · refine Op.not_stranded (useFileReplica_issues_serves f uuid) (fun _ _ h => h) ?_
    exact fun h => hleft h.2.2

end next

/-! ## What no statement changes -/

/-- The files keep their jobs. -/
theorem exec_row (s : Stmt) {db : Db} {f : Nat} {r' : FileRow} (h : (s.exec db).2.files.find? f = some r') :
    ∃ r, db.files.find? f = some r ∧ r'.jobId = r.jobId := by
  cases s with
  | file u =>
      rw [exec_file_find?, Option.map_eq_some_iff] at h
      obtain ⟨r, hr, rfl⟩ := h
      refine ⟨r, hr, ?_⟩
      split
      · exact u.sets_jobId db.now r
      · rfl
  | deleteFiles ids =>
      simp only [Stmt.exec, Table.find?_delete, Option.filter_eq_some_iff] at h
      exact ⟨r', h.1, rfl⟩
  | _ => exact ⟨r', h, rfl⟩

/-- The replicas have the ids that the database has given them. -/
def PositiveIds (j : String) (db : Db) : Prop :=
  ∀ r ∈ db.filesOf j, 0 < r.fileId

section alone

variable {β γ : Type} {db : Db}

theorem Op.alone_keeps {I : Db → Prop} (hI : ∀ s db, I db → I (Stmt.exec s db).2) (p : Op β) (hdb : I db) :
    I (p.alone db) := by
  have htrue : ∀ p : Op β, p.Issues fun _ => True := by
    intro p
    induction p with
    | ret b => trivial
    | select q k ih => exact ih
    | update u k ih => exact ⟨trivial, ih⟩
    | tx t k ih => exact ih
  exact (htrue p).run (fun s db _ => hI s db) hdb

theorem Op.alone_bind (p : Op β) (f : β → Op γ) (db : Db) :
    Op.alone (Proc.bind p f) db = (f (p.run Stmt.exec db).1).alone (p.alone db) := by
  rw [Op.alone, Proc.run_bind]
  rfl

theorem Op.alone_forM {I : Db → Prop} {xs : List γ} {f : γ → Op PUnit}
    (hf : ∀ x ∈ xs, ∀ db, I db → I ((f x).alone db)) (hdb : I db) : I (Op.alone (xs.forM f) db) := by
  induction xs generalizing db with
  | nil => exact hdb
  | cons x xs ih =>
      rw [Op.alone, Proc.run_forM_cons]
      exact ih (fun y hy => hf y (by simp [hy])) (hf x (by simp) db hdb)

theorem FileOf.alone {j : String} {f : Nat} (hdb : FileOf j f db) (p : Op β) : FileOf j f (p.alone db) := by
  refine Op.alone_keeps (fun s db h r' hr' => ?_) p hdb
  obtain ⟨r, hr, hj⟩ := exec_row s hr'
  exact hj.trans (h r hr)

theorem PositiveIds.exec {j : String} (hdb : PositiveIds j db) (s : Stmt) : PositiveIds j (s.exec db).2 := by
  intro r' hr'
  obtain ⟨hfind, hj'⟩ := mem_filesOf.mp hr'
  obtain ⟨r, hr, hj⟩ := exec_row s hfind
  have hid : r.fileId = r'.fileId := Table.find?_some hr
  rw [← hid]
  exact hdb r (mem_filesOf.mpr ⟨hid ▸ hr, hj.symm.trans hj'⟩)

theorem PositiveIds.alone {j : String} (hdb : PositiveIds j db) (p : Op β) : PositiveIds j (p.alone db) :=
  Op.alone_keeps (fun s _ h => h.exec s) p hdb

/-- A job that is over, or is not a multiple replica job, stays so. -/
theorem Op.not_open {j : String} {F : Nat → Prop} {p : Op β} (hp : p.Issues (Stmt.Serves F))
    (h : ¬OpenReplicaJob j db) : ¬OpenReplicaJob j (p.alone db) := by
  refine hp.run (I := fun db => ¬OpenReplicaJob j db) (fun s db hs h hopen => h ?_) h
  cases s with
  | file u => exact hopen
  | job u => exact openReplicaJob_job hs hopen
  | insertRetryError row => exact hopen
  | tick d => exact hopen
  | _ => cases hs

end alone

/-! ## The status of a replica -/

section status

variable {node : Node} {a : TransferStatus} {j j' : String} {f : Nat} {db : Db}

theorem updateFileState_serves {F : Nat → Prop}
    (h : a.newFileState.serves = true ∨ F f) : (updateFileState node a j' f).Issues (Stmt.Serves F) := by
  refine issues_updateFileState (fun _ _ _ => trivial) (fun _ _ => trivial) (fun _ => trivial) ?_ j'
  intro u hf hu hreq _
  rcases h with h | h
  · left
    rcases hu.2 with heq | ⟨-, heq⟩
    · rw [heq, hreq]
      exact h
    · rw [heq]
      rfl
  · right
    rw [hf]
    exact h

/-- The replica that was ended makes room for the next one. -/
theorem afterFileUpdate_not_stranded (hlist : node.ListsLinks) (hids : PositiveIds j db) {st : FileState}
    (hst : st = .failed ∨ st = .canceled) {job : JobRow} (hjob : db.jobs.find? j = some job)
    (hty : job.type = .multipleReplica) (hlive : job.jobState.terminal = false) (uuid : Option String) :
    ¬Stranded j ((afterFileUpdate node j f (jobInfo node j db) st uuid).alone db) := by
  have halive : (jobInfo node j db).jobState ≠ some .canceled ∧ (jobInfo node j db).jobState ≠ some .failed := by
    simp only [jobInfo, hjob, ne_eq, Option.some.injEq]
    refine ⟨fun h => ?_, fun h => ?_⟩
    · rw [h] at hlive
      cases hlive
    · rw [h] at hlive
      cases hlive
  have htype : (jobInfo node j db).jobType = .multipleReplica := by simp [jobInfo, hjob, hty]
  simp only [afterFileUpdate, htype]
  rw [if_pos ⟨halive, hst⟩]
  simp only [Proc.bind_eq, beginTx_bind, Op.alone, Proc.run_tx, Proc.run_bind]
  exact useFileReplica_not_stranded hlist hids f uuid

/-- The compare-and-set runs alone, so it finds the state that was read before. -/
theorem storeFileState_not_stranded (hlist : node.ListsLinks) (hids : PositiveIds j db)
    (hst : a.newFileState = .failed ∨ a.newFileState = .canceled) {job : JobRow} (hjob : db.jobs.find? j = some job)
    (hty : job.type = .multipleReplica) (hlive : job.jobState.terminal = false) (stored : Option FileState)
    (uuid : Option String) (h : ¬Stranded j db) :
    ¬Stranded j ((storeFileState node a j f (jobInfo node j db) stored uuid false).alone db) := by
  rw [storeFileState_eq, Op.alone, Proc.run_update]
  generalize hu : FileUpdate.updateFileTransferStatus (a.update node f (jobInfo node j db) stored false) = u
  have hids' : PositiveIds j ((Stmt.file u).exec db).2 := hids.exec _
  split
  · rename_i hm
    refine FileUpdate.Serves.not_stranded (fun r hr hsel => ?_) h
    have hpos : 0 < db.files.matched u.selects :=
      Table.matched_pos.mpr ⟨r, Table.mem_of_find? (mem_filesOf.mp hr).1, hsel⟩
    have hm : db.files.matched u.selects = 0 := hm
    omega
  · rw [commit_bind, Proc.run_tx, Proc.run_bind]
    exact afterFileUpdate_not_stranded hlist hids' hst hjob hty hlive uuid

theorem updateFileState_not_stranded (hlist : node.ListsLinks) (hids : PositiveIds j db) (hfile : FileOf j' f db)
    (hst : a.newFileState.serves = true ∨ a.newFileState = .failed ∨ a.newFileState = .canceled)
    (h : ¬Stranded j db) : ¬Stranded j ((updateFileState node a j' f).alone db) := by
  by_cases hj : j' = j
  · subst hj
    rcases hst with hst | hst
    · exact Op.not_stranded (updateFileState_serves (F := fun _ => False) (.inl hst)) (fun _ _ h => h) h
    · by_cases hopen : OpenReplicaJob j' db
      · obtain ⟨job, hjob, hty, hlive⟩ := hopen
        have hnot : a.newFileState ≠ .finished := by rcases hst with h | h <;> rw [h] <;> decide
        simp only [updateFileState, Op.alone, Proc.bind_eq, select_bind, Proc.run_select, if_neg hnot]
        split
        · exact h
        · exact storeFileState_not_stranded hlist hids hst hjob hty hlive _ _ h
      · refine fun hpost => Op.not_open (F := fun f' => f' = f) (updateFileState_serves (.inr rfl)) hopen hpost.1
  · refine Op.not_stranded (updateFileState_serves (F := fun f' => f' = f) (.inr rfl)) ?_ h
    intro r hr hid
    obtain ⟨hfind, hrj⟩ := mem_filesOf.mp hr
    exact hj ((hfile r (hid ▸ hfind)).symm.trans hrj)

theorem updateTransferStatus_not_stranded (hlist : node.ListsLinks) (hids : PositiveIds j db)
    (hfile : FileOf a.jobId a.fileId db)
    (hst : a.newFileState.serves = true ∨ a.newFileState = .failed ∨ a.newFileState = .canceled)
    (h : ¬Stranded j db) : ¬Stranded j ((updateFileTransferStatusInternal node a).alone db) := by
  simp only [updateFileTransferStatusInternal, Op.alone, Proc.bind_eq, beginTx_bind, Proc.run_tx, fileToUpdate]
  split
  · simp only [select_bind, Proc.run_select]
    cases hfind : db.files.rows.find? (fun r => r.pid = some a.processId && r.fileState = .active) with
    | none =>
        simp only [Option.map_none, Option.getD_none]
        exact updateFileState_not_stranded hlist hids hfile hst h
    | some r =>
        simp only [Option.map_some, Option.getD_some]
        refine updateFileState_not_stranded hlist hids (fun r' hr' => ?_) hst h
        rw [Table.find?_key (List.mem_of_find?_eq_some hfind)] at hr'
        rw [Option.some.inj hr']
  · exact updateFileState_not_stranded hlist hids hfile hst h

theorem updateJob_serves (node : Node) (j : String) (st : FileState) :
    (updateJobTransferStatusInternal node j st).Issues (Stmt.Serves fun _ => False) :=
  issues_updateJobTransferStatusInternal (P := Stmt.Serves fun _ => False) (fun _ _ _ _ => rfl) rfl (fun _ => rfl) rfl
    trivial node st

theorem recoverFile_not_stranded (hlist : node.ListsLinks) (hids : PositiveIds j db) {st : FileState}
    (hst : st = .failed ∨ st = .canceled) {r : FileRow} (hfile : FileOf r.jobId r.fileId db) (message : String)
    (h : ¬Stranded j db) : ¬Stranded j ((recoverFile node st message r).alone db) := by
  rw [recoverFile, Proc.bind_eq, Op.alone_bind]
  have hjob := updateJob_serves node r.jobId st
  refine Op.not_stranded (hjob.bind fun _ => trivial) (fun _ _ h => h) ?_
  exact updateTransferStatus_not_stranded hlist hids hfile (.inr hst) h

end status

end Fts3.MySql
