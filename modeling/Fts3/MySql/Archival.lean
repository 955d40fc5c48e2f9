import Fts3.MySql.Backup
import Mathlib.Data.Int.Basic
import Mathlib.Data.List.Basic
import Mathlib.Order.Basic

/-!
# Archival of old jobs

The old jobs are gathered and moved in bulks. A bulk that does not fill up is not moved, and the deletions of a job are not
copied before they are removed.
-/

namespace Fts3.MySql

open Fts3.Sql

/-- What the archival is for: the old jobs, their files and their deletions are gone and nothing else is, what is gone is in
a backup table, and the reported numbers are those of the removed rows. -/
structure Archived (intervalDays : Int) (db db' : Db) (removed : Removed) : Prop where
  jobs : db'.jobs.rows = db.jobs.rows.filter fun r => !r.isOld intervalDays db.now
  files : db'.files.rows = db.files.rows.filter fun r => r.jobId ∉ db.oldJobs intervalDays
  dms : db'.dms.rows = db.dms.rows.filter fun r => r.jobId ∉ db.oldJobs intervalDays
  jobBackup : ∀ r ∈ db.jobs.rows, r ∉ db'.jobs.rows → r ∈ db'.jobBackup
  fileBackup : ∀ r ∈ db.files.rows, r ∉ db'.files.rows → r ∈ db'.fileBackup
  dmBackup : ∀ r ∈ db.dms.rows, r ∉ db'.dms.rows → r ∈ db'.dmBackup
  nJobs : db'.jobs.rows.length + removed.nJobs = db.jobs.rows.length
  nFiles : db'.files.rows.length + removed.nFiles = db.files.rows.length
  nDeletions : db'.dms.rows.length + removed.nDeletions = db.dms.rows.length

/-! ## The bulks -/

/-- The jobs `done` have been moved since `db`. -/
structure Moved (db : Db) (done : List String) (db' : Db) (removed : Removed) : Prop where
  now : db'.now = db.now
  jobs : db'.jobs.rows = db.jobs.rows.filter fun r => r.jobId ∉ done
  files : db'.files.rows = db.files.rows.filter fun r => r.jobId ∉ done
  dms : db'.dms.rows = db.dms.rows.filter fun r => r.jobId ∉ done
  jobBackup : ∀ r ∈ db.jobs.rows, r.jobId ∈ done → r ∈ db'.jobBackup
  fileBackup : ∀ r ∈ db.files.rows, r.jobId ∈ done → r ∈ db'.fileBackup
  dmBackup : db'.dmBackup = db.dmBackup
  nJobs : removed.nJobs = done.length
  nFiles : db'.files.rows.length + removed.nFiles = db.files.rows.length
  nDeletions : db'.dms.rows.length + removed.nDeletions = db.dms.rows.length

section moved

variable {db db' : Db} {done ids : List String} {removed : Removed}

theorem moved_start (db : Db) : Moved db [] db {} where
  now := rfl
  jobs := by simp
  files := by simp
  dms := by simp
  jobBackup := by simp
  fileBackup := by simp
  dmBackup := rfl
  nJobs := rfl
  nFiles := rfl
  nDeletions := rfl

/-- What is left of a table after one more bulk. -/
theorem filter_delete {ρ : Type} (jobOf : ρ → String) (rows : List ρ) (done ids : List String) :
    (rows.filter fun r => jobOf r ∉ done).filter (fun r => !decide (jobOf r ∈ ids)) =
      rows.filter fun r => jobOf r ∉ done ++ ids := by
  rw [List.filter_filter]
  refine List.filter_congr fun r _ => ?_
  by_cases h₁ : jobOf r ∈ done <;> by_cases h₂ : jobOf r ∈ ids <;> simp [h₁, h₂]

theorem length_delete {ρ : Type} (p : ρ → Bool) (rows : List ρ) :
    (rows.filter fun r => !p r).length + rows.countP p = rows.length := by
  induction rows with
  | nil => rfl
  | cons r rows ih =>
      cases hr : p r with
      | false => simp [hr, ← ih, Nat.add_right_comm]
      | true => simp [hr, ← ih, Nat.add_assoc]

/-- What a bulk copies: the rows of its jobs that are still there. -/
theorem mem_copied {ρ : Type} {jobOf : ρ → String} {rows rows' backup : List ρ}
    (hrows : rows' = rows.filter fun r => jobOf r ∉ done)
    (hbackup : ∀ r ∈ rows, jobOf r ∈ done → r ∈ backup) (r : ρ) (hr : r ∈ rows) (hid : jobOf r ∈ done ++ ids) :
    r ∈ backup ++ rows'.filter fun r => jobOf r ∈ ids := by
  subst hrows
  by_cases hdone : jobOf r ∈ done
  · exact List.mem_append_left _ (hbackup r hr hdone)
  · have hids : jobOf r ∈ ids := (List.mem_append.mp hid).resolve_left hdone
    exact List.mem_append_right _ (by simp [hr, hdone, hids])

theorem Moved.bulk (h : Moved db done db' removed) (ids : List String) :
    Moved db (done ++ ids) ((backupBulk true ids).run Stmt.exec db').2
      (removed.add ids.length ((backupBulk true ids).run Stmt.exec db').1) where
  now := h.now
  jobs := by
    rw [← filter_delete, ← h.jobs]
    rfl
  files := by
    rw [← filter_delete, ← h.files]
    rfl
  dms := by
    rw [← filter_delete, ← h.dms]
    rfl
  jobBackup := mem_copied h.jobs h.jobBackup
  fileBackup := mem_copied h.files h.fileBackup
  dmBackup := h.dmBackup
  nJobs := by
    rw [List.length_append, ← h.nJobs]
    rfl
  nFiles := by
    have hlength := length_delete (fun r : FileRow => decide (r.jobId ∈ ids)) db'.files.rows
    have hbefore := h.nFiles
    change (db'.files.rows.filter fun r => !decide (r.jobId ∈ ids)).length + (removed.nFiles + db'.files.rows.countP _) = _
    omega
  nDeletions := by
    have hlength := length_delete (fun r : DmRow => decide (r.jobId ∈ ids)) db'.dms.rows
    have hbefore := h.nDeletions
    change (db'.dms.rows.filter fun r => !decide (r.jobId ∈ ids)).length +
      (removed.nDeletions + db'.dms.rows.countP _) = _
    omega

end moved

/-! ## The loop -/

/-- The host serves transfers and does not drain. -/
def Db.staysOn (node : Node) (db : Db) : Prop :=
  ∀ h ∈ db.hosts, h.hostname = node.hostname → h.serviceName = "fts_server" → h.drain = none ∨ h.drain = some 0

section loop

variable {db db' : Db} {node : Node} {done : List String} {removed : Removed} {bulkSize : Int}

theorem getDrainInternal_run (h : db.staysOn node) : (getDrainInternal node).run Stmt.exec db = (false, db) := by
  refine Prod.ext ?_ rfl
  change ((db.hosts.find? _).bind _).any _ = false
  cases hfind : db.hosts.find? fun h => h.hostname = node.hostname && h.serviceName = "fts_server" with
  | none => rfl
  | some host =>
      have hhost := List.find?_some hfind
      simp only [Bool.and_eq_true, decide_eq_true_eq] at hhost
      rcases h host (List.mem_of_find?_eq_some hfind) hhost.1 hhost.2 with hdrain | hdrain
      · simp [hdrain]
      · simp [hdrain]

theorem staysOn_updateBeat (hon : db.staysOn node) :
    ((Stmt.updateBeat node.hostname "fts_backup").exec db).2.staysOn node := by
  intro h hh hname hservice
  change h ∈ upsertBeat node.hostname "fts_backup" db.now db.hosts at hh
  unfold upsertBeat at hh
  split at hh
  · obtain ⟨h₀, hh₀, rfl⟩ := List.mem_map.mp hh
    split
    · rename_i hkey
      rw [if_pos hkey] at hservice
      exact absurd (hkey.2.symm.trans hservice) (by decide)
    · rename_i hkey
      rw [if_neg hkey] at hname hservice
      exact hon h₀ hh₀ hname hservice
  · cases hh with
    | head => exact absurd hservice (by simp)
    | tail _ hh => exact hon h hh hname hservice

/-- The statements of a heartbeat. -/
def beats (node : Node) (s : Stmt) : Prop := s = .updateBeat node.hostname "fts_backup" ∨ s = .deleteOldHosts

theorem issues_backupBeat (node : Node) : (backupBeat node).Issues (beats node) := by
  refine Proc.Issues.bind (p := updateHeartBeatInternal node "fts_backup") ?_ fun _ => trivial
  simp only [updateHeartBeatInternal, Proc.bind_eq, beginTx_bind, execute_bind, select_bind, commit_bind, Proc.issues_tx,
    Proc.issues_update, Proc.issues_select]
  refine ⟨.inl rfl, fun _ db => ?_⟩
  cases db.hostIndex node "fts_backup" with
  | none => trivial
  | some place => simp [beats]

/-- A heartbeat only changes the hosts. -/
theorem backupBeat_moved (h : Moved db done db' removed) (hon : db'.staysOn node) :
    Moved db done ((backupBeat node).run Stmt.exec db').2 removed ∧
      ((backupBeat node).run Stmt.exec db').2.staysOn node := by
  refine (issues_backupBeat node).run (I := fun db' => Moved db done db' removed ∧ db'.staysOn node) ?_ ⟨h, hon⟩
  rintro s db' (rfl | rfl) ⟨hmoved, hon⟩
  · exact ⟨{ hmoved with }, staysOn_updateBeat hon⟩
  · exact ⟨{ hmoved with }, fun h hh => hon h (List.mem_filter.mp hh).1⟩

theorem beatAndDrain_moved (h : Moved db done db' removed) (hon : db'.staysOn node) (n : Nat) :
    ∃ db'', (beatAndDrain (fun p => p) (backupBeat node) node n).run Stmt.exec db' = (false, db'') ∧
      Moved db done db'' removed ∧ db''.staysOn node := by
  unfold beatAndDrain
  split
  · obtain ⟨hmoved, hon⟩ := backupBeat_moved h hon
    refine ⟨_, ?_, hmoved, hon⟩
    rw [Proc.bind_eq, Proc.run_bind, getDrainInternal_run hon]
  · exact ⟨db', rfl, h, hon⟩

/-- The loop moves as many jobs as fill whole bulks; the last ones stay in the list. -/
theorem backupJobs_moved (hbulk : 1 ≤ bulkSize) (jobs : List String) (l : BackupLoop) (h : Moved db done db' l.removed)
    (hon : db'.staysOn node) (hcount : l.count = l.jobIds.length) (hlt : (l.count : Int) < bulkSize)
    (hdvd : bulkSize ∣ (done.length : Int)) :
    ∃ moved left db'' removed, moved ++ left = done ++ (l.jobIds ++ jobs) ∧
      (backupJobs (fun p => p) (backupBeat node) node true bulkSize jobs l).run Stmt.exec db' = ((removed, false), db'') ∧
      Moved db moved db'' removed ∧ bulkSize ∣ (moved.length : Int) ∧ (left.length : Int) < bulkSize := by
  induction jobs generalizing l done db' with
  | nil => exact ⟨done, l.jobIds, db', l.removed, by simp, rfl, h, hdvd, hcount ▸ hlt⟩
  | cons job jobs ih =>
      obtain ⟨db₁, hrun, hmoved, hon⟩ := beatAndDrain_moved h hon (l.countBeat + 1)
      rw [backupJobs]
      dsimp only
      rw [Proc.bind_eq, Proc.run_bind, hrun]
      simp only [Bool.false_eq_true, if_false]
      have hlen : l.count + 1 = (l.jobIds ++ [job]).length := by simp [hcount]
      generalize (if l.countBeat + 1 = 1000 then 0 else l.countBeat + 1) = countBeat
      split
      · rename_i hfull
        have hnext := hmoved.bulk (l.jobIds ++ [job])
        rw [← hlen] at hnext
        have hdvd' : bulkSize ∣ ((done ++ (l.jobIds ++ [job])).length : Int) := by
          rw [List.length_append, Int.natCast_add, ← hlen, hfull]
          exact Int.dvd_add hdvd (Int.dvd_refl _)
        obtain ⟨moved, left, db₂, removed, happend, hrest⟩ :=
          ih { countBeat, removed := _ } hnext hon rfl hbulk hdvd'
        rw [Proc.bind_eq, Proc.run_bind]
        exact ⟨moved, left, db₂, removed, by simpa using happend, hrest⟩
      · rename_i hfull
        have hlt' : ((l.count + 1 : Nat) : Int) < bulkSize := by omega
        obtain ⟨moved, left, db₂, removed, happend, hrest⟩ :=
          ih { count := l.count + 1, countBeat, jobIds := l.jobIds ++ [job], removed := l.removed } hmoved hon hlen hlt' hdvd
        exact ⟨moved, left, db₂, removed, by simpa using happend, hrest⟩

end loop

/-! ## The whole -/

section whole

variable {db db' : Db} {node : Node} {intervalDays bulkSize : Int}

theorem mem_oldJobs {r : JobRow} (hr : r ∈ db.jobs.rows) :
    r.jobId ∈ db.oldJobs intervalDays ↔ r.isOld intervalDays db.now = true := by
  constructor
  · intro h
    obtain ⟨r', hr', hid⟩ := List.mem_map.mp h
    obtain ⟨hmem, hold⟩ := List.mem_filter.mp hr'
    have hfind := Table.find?_key hr
    rw [← hid, Table.find?_key hmem] at hfind
    rwa [← Option.some.inj hfind]
  · exact fun h => List.mem_map.mpr ⟨r, List.mem_filter.mpr ⟨hr, h⟩, rfl⟩

theorem oldJobs_nodup (db : Db) (intervalDays : Int) : (db.oldJobs intervalDays).Nodup :=
  db.jobs.nodup.sublist (List.filter_sublist.map _)

/-- What is left of a run on the node that leads, without errors and without a drain. -/
theorem backup_moved (intervalDays : Int) (hbulk : 1 ≤ bulkSize)
    (hidle : db.hosts.countP (·.isAlive (30 * 60) db.now "fts_backup") = 0)
    (hlead : ((backupBeat node).run Stmt.exec db).1 = 0) (hon : db.staysOn node) :
    ∃ moved left db' removed, moved ++ left = db.oldJobs intervalDays ∧
      (backup (fun p => p) (backupBeat node) node true intervalDays bulkSize).run Stmt.exec db = (removed, db') ∧
      Moved db moved db' removed ∧ bulkSize ∣ (moved.length : Int) ∧ (left.length : Int) < bulkSize := by
  obtain ⟨hstart, hon⟩ := backupBeat_moved (moved_start db) hon
  have hold : ((backupBeat node).run Stmt.exec db).2.oldJobs intervalDays = db.oldJobs intervalDays := by
    simp only [Db.oldJobs, Table.select, hstart.jobs, hstart.now]
    simp
  obtain ⟨moved, left, db', removed, happend, hrun, hmoved, hdvd, hlt⟩ :=
    backupJobs_moved hbulk (db.oldJobs intervalDays) {} hstart hon rfl hbulk (Int.dvd_zero _)
  refine ⟨moved, left, ((deleteOldRows intervalDays).run Stmt.exec db').2, removed, by simpa using happend, ?_, ?_, hdvd,
    hlt⟩
  · simp only [backup, Proc.bind_eq, select_bind, Proc.run_select, hidle, Nat.lt_irrefl, if_false, Proc.run_bind, hlead,
      if_true, hold, hrun]
    rfl
  · exact { hmoved with }

theorem Moved.archived {removed : Removed} (h : Moved db (db.oldJobs intervalDays) db' removed)
    (hdms : ∀ d ∈ db.dms.rows, d.jobId ∈ db.oldJobs intervalDays → d ∈ db.dmBackup) :
    Archived intervalDays db db' removed := by
  have hjobs : db'.jobs.rows = db.jobs.rows.filter fun r => !r.isOld intervalDays db.now := by
    rw [h.jobs]
    refine List.filter_congr fun r hr => ?_
    simp [mem_oldJobs hr]
  refine ⟨hjobs, h.files, h.dms, ?_, ?_, ?_, ?_, h.nFiles, h.nDeletions⟩
  · intro r hr hgone
    refine h.jobBackup r hr ?_
    by_contra hid
    exact hgone (h.jobs ▸ List.mem_filter.mpr ⟨hr, by simpa using hid⟩)
  · intro r hr hgone
    refine h.fileBackup r hr ?_
    by_contra hid
    exact hgone (h.files ▸ List.mem_filter.mpr ⟨hr, by simpa using hid⟩)
  · intro r hr hgone
    rw [h.dmBackup]
    refine hdms r hr ?_
    by_contra hid
    exact hgone (h.dms ▸ List.mem_filter.mpr ⟨hr, by simpa using hid⟩)
  · have hlength := length_delete (JobRow.isOld intervalDays db.now) db.jobs.rows
    have hold : (db.oldJobs intervalDays).length = db.jobs.rows.countP (JobRow.isOld intervalDays db.now) := by
      rw [Db.oldJobs, List.length_map, Table.select, List.countP_eq_length_filter]
    rw [hjobs, h.nJobs, hold, hlength]

end whole

/-- The old jobs are archived exactly when they fill whole bulks and their deletions are in `t_dm_backup` already. -/
theorem archival_complete (db : Db) (node : Node) (intervalDays bulkSize : Int) (hbulk : 1 ≤ bulkSize)
    (hidle : db.hosts.countP (·.isAlive (30 * 60) db.now "fts_backup") = 0)
    (hlead : ((backupBeat node).run Stmt.exec db).1 = 0) (hon : db.staysOn node) :
    let r := (backup (fun p => p) (backupBeat node) node true intervalDays bulkSize).run Stmt.exec db
    Archived intervalDays db r.2 r.1 ↔
      bulkSize ∣ ((db.oldJobs intervalDays).length : Int) ∧
        ∀ d ∈ db.dms.rows, d.jobId ∈ db.oldJobs intervalDays → d ∈ db.dmBackup := by
  obtain ⟨moved, left, db', removed, happend, hrun, hmoved, hdvd, hlt⟩ :=
    backup_moved intervalDays hbulk hidle hlead hon
  simp only [hrun]
  have hlength : ((db.oldJobs intervalDays).length : Int) = moved.length + left.length := by
    rw [← happend, List.length_append, Int.natCast_add]
  constructor
  · intro h
    have hleft : left = [] := by
      refine List.eq_nil_iff_forall_not_mem.mpr fun id hid => ?_
      have hmem : id ∈ db.oldJobs intervalDays := happend ▸ List.mem_append_right _ hid
      obtain ⟨r, hr, rfl⟩ := List.mem_map.mp hmem
      have hrow : r ∈ db.jobs.rows := (List.mem_filter.mp hr).1
      have hnot : r.jobId ∉ moved := by
        have hnodup := oldJobs_nodup db intervalDays
        rw [← happend, List.nodup_append] at hnodup
        exact fun h => hnodup.2.2 _ h _ hid rfl
      have hstays : r ∈ db'.jobs.rows := hmoved.jobs ▸ List.mem_filter.mpr ⟨hrow, by simpa using hnot⟩
      rw [h.jobs, List.mem_filter, (mem_oldJobs hrow).mp hmem] at hstays
      exact absurd hstays.2 (by simp)
    refine ⟨?_, fun d hd hid => ?_⟩
    · rw [hlength, hleft]
      simpa using hdvd
    · rw [← hmoved.dmBackup]
      refine h.dmBackup d hd ?_
      rw [h.dms, List.mem_filter]
      simp [hid]
  · rintro ⟨hall, hdms⟩
    have hleft : left = [] := by
      rw [hlength] at hall
      have hdvdLeft : bulkSize ∣ (left.length : Int) := (Int.dvd_add_right hdvd).mp hall
      have hzero : (left.length : Int) = 0 := Int.eq_zero_of_dvd_of_nonneg_of_lt (by omega) hlt hdvdLeft
      exact List.length_eq_zero_iff.mp (by omega)
    rw [hleft, List.append_nil] at happend
    subst happend
    exact hmoved.archived hdms

/-- A job that finished at the start of time, with one file. -/
def archivalDb : Db where
  jobs := .ofRows [{ jobId := "j", jobState := .finished, jobFinished := some 0 }]
  files := .ofRows [{ fileId := 1, jobId := "j", fileState := .finished }]
  now := 10 * 86400

theorem archival_complete_single :
    Archived 7 archivalDb
      ((backup (fun p => p) (backupBeat { hostname := "a" }) { hostname := "a" } true 7 1).run Stmt.exec archivalDb).2
      ((backup (fun p => p) (backupBeat { hostname := "a" }) { hostname := "a" } true 7 1).run Stmt.exec archivalDb).1 :=
  (archival_complete archivalDb { hostname := "a" } 7 1 (by decide) (by decide) (by decide)
    (fun h hh => by cases hh)).mpr ⟨Int.one_dvd _, fun d hd => by cases hd⟩

/-- With a bulk size of two the job stays. -/
theorem archival_incomplete :
    archivalDb.hosts.countP (·.isAlive (30 * 60) archivalDb.now "fts_backup") = 0 ∧
      ((backupBeat { hostname := "a" }).run Stmt.exec archivalDb).1 = 0 ∧ archivalDb.staysOn { hostname := "a" } ∧
      ¬Archived 7 archivalDb
        ((backup (fun p => p) (backupBeat { hostname := "a" }) { hostname := "a" } true 7 2).run Stmt.exec archivalDb).2
        ((backup (fun p => p) (backupBeat { hostname := "a" }) { hostname := "a" } true 7 2).run Stmt.exec
          archivalDb).1 := by
  refine ⟨by decide, by decide, (fun h hh => by cases hh), fun h => ?_⟩
  exact absurd (congrArg List.length h.jobs) (by decide)

end Fts3.MySql
