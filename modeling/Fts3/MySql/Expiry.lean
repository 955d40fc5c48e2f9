import Fts3.MySql.Aggregate
import Fts3.MySql.Lemmas.Issued
import Fts3.MySql.Lemmas.Progress
import Fts3.MySql.Lemmas.Sanity

/-!
# Jobs that have been queued for too long

`cancelExpiredJobsForVo` cancels the files of a job in the states that it lists, and leaves the state of the job to
`updateJobTransferStatusInternal`.
-/

namespace Fts3.MySql

open Fts3.Sql

/-! ## Files -/

def FileState.waiting (st : FileState) : Bool :=
  st ∈ [.submitted, .staging, .onHold, .onHoldStaging, .tokenPrep, .forceStart]

def FileState.running (st : FileState) : Bool := st ∈ [.ready, .active, .started, .archiving]

/-- The states that are neither over nor in the list: those in which a file runs, those of a QoS transition, and that of
a hop that is not yet used. -/
def FileState.goesOn (multihop : Bool) (st : FileState) : Bool :=
  st.running || st ∈ [.qosTransition, .qosRequestSubmitted] || multihop && st = .notUsed

def FileRow.expire (multihop : Bool) (now : Nat) (reason : String) (r : FileRow) : FileRow :=
  if r.fileState ∈ FileUpdate.cancelFileStates multihop then
    { r with finishTime := some now, destSurlUuid := none, fileState := .canceled, reason := some reason }
  else r

def FileRow.cancelUnused (r : FileRow) : FileRow :=
  if r.fileState = .notUsed then { r with fileState := .canceled } else r

section expire

variable {multihop : Bool} {now : Nat} {reason : String} {r : FileRow}

@[simp] theorem expire_fileIndex : (r.expire multihop now reason).fileIndex = r.fileIndex := by
  unfold FileRow.expire
  split <;> rfl

theorem expire_fileState : (r.expire multihop now reason).fileState =
    if r.fileState ∈ FileUpdate.cancelFileStates multihop then .canceled else r.fileState := by
  unfold FileRow.expire
  split <;> rfl

/-- None is left to be cancelled again. -/
theorem expire_expire (now' : Nat) (reason' : String) :
    (r.expire multihop now reason).expire multihop now' reason' = r.expire multihop now reason := by
  have hleft : (r.expire multihop now reason).fileState ∉ FileUpdate.cancelFileStates multihop := by
    rw [expire_fileState]
    split
    · cases multihop <;> decide
    · assumption
  rw [FileRow.expire, if_neg hleft]

theorem cancelUnused_cancelUnused (r : FileRow) : r.cancelUnused.cancelUnused = r.cancelUnused := by
  have hleft : r.cancelUnused.fileState ≠ .notUsed := by
    unfold FileRow.cancelUnused
    split
    · simp
    · assumption
  rw [FileRow.cancelUnused, if_neg hleft]

theorem expire_of_kept (h : r.fileState.running = true ∨ r.fileState.terminal = true) :
    r.expire multihop now reason = r := by
  have hkept : r.fileState ∉ FileUpdate.cancelFileStates multihop := by
    revert h
    cases multihop <;> cases r.fileState <;> decide
  rw [FileRow.expire, if_neg hkept]

theorem cancelUnused_of_kept (h : r.fileState.running = true ∨ r.fileState.terminal = true) : r.cancelUnused = r := by
  have hkept : r.fileState ≠ .notUsed := by
    revert h
    cases r.fileState <;> decide
  rw [FileRow.cancelUnused, if_neg hkept]

/-- Of the files that wait, those in `TOKEN_PREP` and `FORCE_START` still do. -/
theorem expire_waiting : (r.expire multihop now reason).fileState.waiting = true ↔
    r.fileState = .tokenPrep ∨ r.fileState = .forceStart := by
  rw [expire_fileState]
  cases multihop <;> cases r.fileState <;> decide

theorem expire_running : (r.expire multihop now reason).fileState.running = r.fileState.running := by
  rw [expire_fileState]
  cases multihop <;> cases r.fileState <;> rfl

theorem cancelUnused_waiting : r.cancelUnused.fileState.waiting = r.fileState.waiting := by
  unfold FileRow.cancelUnused
  split
  · rename_i h
    rw [h]
    rfl
  · rfl

theorem cancelUnused_running : r.cancelUnused.fileState.running = r.fileState.running := by
  unfold FileRow.cancelUnused
  split
  · rename_i h
    rw [h]
    rfl
  · rfl

theorem expire_finished : (r.expire multihop now reason).fileState = .finished ↔ r.fileState = .finished := by
  rw [expire_fileState]
  cases multihop <;> cases r.fileState <;> decide

theorem expire_over (htoken : r.fileState ≠ .tokenPrep) (hforce : r.fileState ≠ .forceStart) :
    (r.expire multihop now reason).fileState = .failed ∨ (r.expire multihop now reason).fileState = .canceled ↔
      r.fileState ≠ .finished ∧ r.fileState.goesOn multihop = false := by
  rw [expire_fileState]
  revert htoken hforce
  cases multihop <;> cases r.fileState <;> decide

end expire

/-! ## Indexes -/

section indexes

variable {rows : List FileRow} {i : Int}

theorem group_map {f : FileRow → FileRow} (hf : ∀ r, (f r).fileIndex = r.fileIndex) (rows : List FileRow) (i : Int) :
    group FileRow.fileIndex (rows.map f) i = (group FileRow.fileIndex rows i).map f := by
  rw [group, List.filter_map, group]
  congr 1
  exact List.filter_congr fun r _ => by simp [hf]

theorem indexes_map {f : FileRow → FileRow} (hf : ∀ r, (f r).fileIndex = r.fileIndex) (rows : List FileRow) :
    indexes (rows.map f) = indexes rows := by
  rw [indexes, indexes, groups, groups, List.filterMap_map]
  congr 2
  exact funext hf

theorem classify_eq_ongoing : classify rows i = .ongoing ↔ ¬(classify rows i = .finished) ∧
    ¬(classify rows i = .canceled ∨ classify rows i = .failed) := by
  cases classify rows i <;> decide

theorem not_terminates_iff {ty : JobType} : ¬Terminates rows ty ↔ (∃ i ∈ indexes rows, classify rows i = .ongoing) ∧
    (ty = .multiHop → ∀ i ∈ indexes rows, ¬(classify rows i = .canceled ∨ classify rows i = .failed)) := by
  have hover : 0 < classSize rows .failed + classSize rows .canceled ↔
      ∃ i ∈ indexes rows, classify rows i = .canceled ∨ classify rows i = .failed := by
    rw [Nat.add_pos_iff_pos_or_pos, classSize_pos, classSize_pos]
    constructor
    · rintro (⟨i, hi, hc⟩ | ⟨i, hi, hc⟩)
      · exact ⟨i, hi, .inr hc⟩
      · exact ⟨i, hi, .inl hc⟩
    · rintro ⟨i, hi, hc | hc⟩
      · exact .inr ⟨i, hi, hc⟩
      · exact .inl ⟨i, hi, hc⟩
  rw [Terminates, hover, not_or, ← ne_eq, ← Nat.pos_iff_ne_zero, classSize_pos]
  refine and_congr_right fun _ => ?_
  simp only [not_and, not_exists]

end indexes

def IndexFinished (rows : List FileRow) (i : Int) : Prop :=
  ∃ r ∈ group FileRow.fileIndex rows i, r.fileState = .finished

def IndexGoesOn (multihop : Bool) (rows : List FileRow) (i : Int) : Prop :=
  ∃ r ∈ group FileRow.fileIndex rows i, r.fileState.goesOn multihop = true

/-- Something of the job goes on: an index without a finished file, and in a multihop job no hop is over otherwise. -/
def StaysOpen (ty : JobType) (rows : List FileRow) : Prop :=
  (∃ i ∈ indexes rows, ¬IndexFinished rows i ∧ IndexGoesOn (ty = .multiHop) rows i) ∧
    (ty = .multiHop → ∀ i ∈ indexes rows, IndexFinished rows i ∨ IndexGoesOn (ty = .multiHop) rows i)

section classes

variable {rows : List FileRow} {i : Int} {multihop : Bool} {now : Nat} {reason : String}

theorem classify_expire_finished :
    classify (rows.map (FileRow.expire multihop now reason)) i = .finished ↔ IndexFinished rows i := by
  rw [classify_eq_finished, group_map fun _ => expire_fileIndex]
  simp [IndexFinished, expire_finished]

theorem classify_expire_over (h : ∀ r ∈ rows, r.fileState ≠ .tokenPrep ∧ r.fileState ≠ .forceStart) :
    classify (rows.map (FileRow.expire multihop now reason)) i = .canceled ∨
        classify (rows.map (FileRow.expire multihop now reason)) i = .failed ↔
      ¬IndexFinished rows i ∧ ¬IndexGoesOn multihop rows i := by
  have hrow : ∀ r ∈ group FileRow.fileIndex rows i,
      ((r.expire multihop now reason).fileState = .failed ∨ (r.expire multihop now reason).fileState = .canceled ↔
        r.fileState ≠ .finished ∧ r.fileState.goesOn multihop = false) := by
    intro r hr
    obtain ⟨htoken, hforce⟩ := h r (List.mem_of_mem_filter hr)
    exact expire_over htoken hforce
  rw [classify_eq_canceled_or_failed, group_map fun _ => expire_fileIndex]
  simp only [List.all_map, List.all_eq_true, Function.comp_apply, Bool.or_eq_true, decide_eq_true_eq, IndexFinished,
    IndexGoesOn, not_exists, not_and, Bool.not_eq_true]
  rw [forall₂_congr hrow]
  exact forall₂_and

theorem not_terminates_expire {ty : JobType} (now : Nat) (reason : String)
    (h : ∀ r ∈ rows, r.fileState ≠ .tokenPrep ∧ r.fileState ≠ .forceStart) :
    ¬Terminates (rows.map (FileRow.expire (ty = .multiHop) now reason)) ty ↔ StaysOpen ty rows := by
  rw [not_terminates_iff, indexes_map fun _ => expire_fileIndex]
  simp only [classify_eq_ongoing, classify_expire_finished, classify_expire_over h, StaysOpen]
  constructor
  · rintro ⟨⟨i, hi, hfinished, hover⟩, hhops⟩
    exact ⟨⟨i, hi, hfinished, by tauto⟩, fun hty i hi => by have := hhops hty i hi; tauto⟩
  · rintro ⟨⟨i, hi, hfinished, hgoes⟩, hhops⟩
    exact ⟨⟨i, hi, hfinished, by tauto⟩, fun hty i hi => by have := hhops hty i hi; tauto⟩

end classes

/-! ## One job -/

/-- What is done to a job that waits for too long: its files, and its state. -/
structure JobView.Expires (job : JobRow) (v v' : JobView) : Prop where
  now : v'.now = v.now
  ended : ∃ reason job', v'.job = some job' ∧ job'.jobId = job.jobId ∧ job'.type = job.type ∧
    (job'.jobState.terminal = true ↔
      Terminates (v.files.map (FileRow.expire (job.type = .multiHop) v.now reason)) job.type) ∧
    (v'.files = v.files.map (FileRow.expire (job.type = .multiHop) v.now reason) ∨
      job'.jobState.terminal = true ∧
        v'.files = (v.files.map (FileRow.expire (job.type = .multiHop) v.now reason)).map FileRow.cancelUnused)

section job

variable {job : JobRow} {db : Db}

theorem cancelExpiredJob_addresses (node : Node) (message : String) (job : JobRow) :
    (cancelExpiredJob node message job).Issues (Stmt.Addresses job.jobId) := by
  have hstatus : (updateJobTransferStatusInternal node job.jobId .canceled).Issues (Stmt.Addresses job.jobId) := by
    refine issues_updateJobTransferStatusInternal ?_ ?_ ?_ ?_ ?_ node .canceled
    all_goals simp +contextual [Stmt.Addresses, JobUpdate.selects, FileUpdate.selects]
  refine ⟨?_, fun _ => hstatus.bind fun _ => trivial⟩
  simp +contextual [Stmt.Addresses, FileUpdate.selects]

theorem cancelExpiredJob_frame (node : Node) (message : String) {job : JobRow} {k : String} (hk : job.jobId ≠ k) (db : Db) :
    ((cancelExpiredJob node message job).run Stmt.exec db).2.view k = db.view k :=
  (cancelExpiredJob_addresses node message job).run (I := fun db' => db'.view k = db.view k)
    (fun _ db' hs hI => (hs.view hk db').trans hI) rfl

theorem exec_cancelExpiredJobs_filesOf (j message : String) (multihop : Bool) (db : Db) :
    ((Stmt.file (.cancelExpiredJobs j message multihop)).exec db).2.filesOf j =
      (db.filesOf j).map (FileRow.expire multihop db.now message) := by
  rw [exec_file_filesOf]
  refine List.map_congr_left fun r hr => ?_
  have hsel : (FileUpdate.cancelExpiredJobs j message multihop).selects r =
      decide (r.fileState ∈ FileUpdate.cancelFileStates multihop) := by
    simp [FileUpdate.selects, (mem_filesOf.mp hr).2]
  rw [hsel, FileRow.expire]
  simp only [decide_eq_true_eq]
  rfl

theorem exec_cancelUnused_filesOf (j : String) (db : Db) :
    ((Stmt.file (.cancelUnusedMultihopFiles j)).exec db).2.filesOf j = (db.filesOf j).map FileRow.cancelUnused := by
  rw [exec_file_filesOf]
  refine List.map_congr_left fun r hr => ?_
  have hsel : (FileUpdate.cancelUnusedMultihopFiles j).selects r = decide (r.fileState = .notUsed) := by
    simp [FileUpdate.selects, (mem_filesOf.mp hr).2]
  rw [hsel, FileRow.cancelUnused]
  simp only [decide_eq_true_eq]
  rfl

/-- The hops that are not used are cancelled with their job, and no other file is. -/
theorem updateJob_files (node : Node) (hjob : db.jobs.find? job.jobId = some job) {state : FileState}
    (hearly : job.returnsEarly state (db.filesOf job.jobId) = false) :
    ((updateJobTransferStatusInternal node job.jobId state).alone db).filesOf job.jobId = db.filesOf job.jobId ∨
      (JobCounts.ofRows (db.filesOf job.jobId)).jobFinished job.type = true ∧
        ((updateJobTransferStatusInternal node job.jobId state).alone db).filesOf job.jobId =
          (db.filesOf job.jobId).map FileRow.cancelUnused := by
  by_cases hfin : (JobCounts.ofRows (db.filesOf job.jobId)).jobFinished job.type = true
  · have hissues : (updateJobTransferStatusInternal node job.jobId state).Issues
        fun s => (∃ u, s = .job u) ∨ s = .file (.cancelUnusedMultihopFiles job.jobId) :=
      issues_updateJobTransferStatusInternal (fun _ _ _ _ => .inl ⟨_, rfl⟩) (.inl ⟨_, rfl⟩) (fun _ => .inl ⟨_, rfl⟩)
        (.inl ⟨_, rfl⟩) (.inr rfl) node state
    have hstep : ∀ (s : Stmt) (db' : Db), ((∃ u, s = .job u) ∨ s = .file (.cancelUnusedMultihopFiles job.jobId)) →
        (db'.filesOf job.jobId = db.filesOf job.jobId ∨
          db'.filesOf job.jobId = (db.filesOf job.jobId).map FileRow.cancelUnused) →
        ((s.exec db').2.filesOf job.jobId = db.filesOf job.jobId ∨
          (s.exec db').2.filesOf job.jobId = (db.filesOf job.jobId).map FileRow.cancelUnused) := by
      rintro s db' (⟨u, rfl⟩ | rfl) h
      · exact h
      · right
        rw [exec_cancelUnused_filesOf]
        rcases h with h | h
        · rw [h]
        · rw [h, List.map_map]
          exact List.map_congr_left fun r _ => cancelUnused_cancelUnused r
    exact (hissues.run hstep (.inl rfl)).imp id fun h => ⟨hfin, h⟩
  · left
    obtain ⟨se, hrun⟩ := updateJob_run node hjob hearly
    have hstore : ∀ st, (storeJobState job.jobId st).Issues fun s => ∃ u, s = .job u := by
      intro st
      unfold storeJobState
      split <;> simp
    have hissues : (storeUnfinishedJob job.jobId state (JobCounts.ofRows (db.filesOf job.jobId))
        (some job.jobState, job.type)).Issues fun s => ∃ u, s = .job u := by
      simp only [storeUnfinishedJob, Proc.bind_eq, select_bind, Proc.issues_ite, Proc.issues_select]
      simp [hstore]
    rw [Op.alone, hrun, aggregateJob, Proc.bind_eq, Proc.run_bind, countFiles_run]
    simp only [hfin, Bool.false_eq_true, if_false]
    refine hissues.run (I := fun db' => db'.filesOf job.jobId = db.filesOf job.jobId) ?_ rfl
    rintro s db' ⟨u, rfl⟩ h
    exact h

theorem updateJob_type (node : Node) (hjob : db.jobs.find? job.jobId = some job) (state : FileState) :
    ∃ job', ((updateJobTransferStatusInternal node job.jobId state).alone db).jobs.find? job.jobId = some job' ∧
      job'.type = job.type := by
  have hissues : (updateJobTransferStatusInternal node job.jobId state).Issues
      fun s => (∃ u, s = .job u) ∨ ∃ u, s = .file u :=
    issues_updateJobTransferStatusInternal (fun _ _ _ _ => .inl ⟨_, rfl⟩) (.inl ⟨_, rfl⟩) (fun _ => .inl ⟨_, rfl⟩)
      (.inl ⟨_, rfl⟩) (.inr ⟨_, rfl⟩) node state
  refine hissues.run (I := fun db' => ∃ job', db'.jobs.find? job.jobId = some job' ∧ job'.type = job.type) ?_
    ⟨job, hjob, rfl⟩
  rintro s db' (⟨u, rfl⟩ | ⟨u, rfl⟩) ⟨job', hjob', htype⟩
  · rw [exec_job_find?, hjob', Option.map_some]
    refine ⟨_, rfl, ?_⟩
    split
    · rw [JobUpdate.sets_type, htype]
    · exact htype
  · exact ⟨job', hjob', htype⟩

theorem returnsEarly_canceled (hlive : job.jobState.terminal = false) (rows : List FileRow) :
    job.returnsEarly .canceled rows = false := by
  have hsame : sameState (some job.jobState) .canceled = false := by
    revert hlive
    cases job.jobState <;> decide
  simp [JobRow.returnsEarly, hsame]

theorem expires_cancelExpiredJob (node : Node) (message : String) (hjob : db.jobs.find? job.jobId = some job)
    (hlive : job.jobState.terminal = false) :
    (db.view job.jobId).Expires job (((cancelExpiredJob node message job).alone db).view job.jobId) := by
  obtain ⟨db₁, hdb₁⟩ : ∃ db₁, db₁ = ((Stmt.file (.cancelExpiredJobs job.jobId message
    (job.jobType = some .multiHop))).exec db).2 := ⟨_, rfl⟩
  have hrun : (cancelExpiredJob node message job).alone db =
      (updateJobTransferStatusInternal node job.jobId .canceled).alone db₁ := by
    simp only [hdb₁, cancelExpiredJob, Op.alone, Proc.bind_eq, updateFile_bind, Proc.run_update, Proc.run_bind]
    rfl
  have hmultihop : decide (job.jobType = some .multiHop) = decide (job.type = .multiHop) := by
    rw [JobRow.type]
    cases job.jobType with
    | none => rfl
    | some ty => simp
  have hfiles₁ : db₁.filesOf job.jobId =
      (db.filesOf job.jobId).map (FileRow.expire (job.type = .multiHop) db.now message) := by
    rw [hdb₁, hmultihop, exec_cancelExpiredJobs_filesOf]
  have hjob₁ : db₁.jobs.find? job.jobId = some job := by
    rw [hdb₁]
    exact hjob
  have hearly := returnsEarly_canceled hlive (db₁.filesOf job.jobId)
  obtain ⟨job', hjob', hstored⟩ := updateJob_alone node hjob₁ hlive hearly
  obtain ⟨job'', hjob'', htype⟩ := updateJob_type node hjob₁ .canceled
  rw [hjob'] at hjob''
  cases hjob''
  have hterminal : job'.jobState.terminal = true ↔ Terminates (db₁.filesOf job.jobId) job.type := by
    rw [← JobCounts.ofRows_jobFinished]
    split at hstored
    · rename_i hfin
      rw [hstored.1]
      simp [hfin, JobCounts.outcome_terminal]
    · rename_i hfin
      simp [hfin, hstored.1]
  refine ⟨?_, message, job', ?_, Table.find?_some hjob', htype, ?_, ?_⟩
  · have hissues := cancelExpiredJob_addresses node message job
    refine hissues.run (I := fun db' => db'.now = db.now) ?_ rfl
    intro s db' hs h
    cases s with
    | file u => exact h
    | job u => exact h
    | _ => cases hs
  · rw [hrun]
    exact hjob'
  · rw [hfiles₁] at hterminal
    exact hterminal
  · simp only [Db.view_files, Db.view_now, hrun, ← hfiles₁]
    rcases updateJob_files node hjob₁ hearly with h | ⟨hfin, h⟩
    · exact .inl h
    · exact .inr ⟨hterminal.mpr ((JobCounts.ofRows_jobFinished _ _).mp hfin), h⟩

end job

/-! ## The whole call -/

/-- The global timeout takes the job. -/
def JobRow.globalTimeout (maxTime : Nat) (vo : String) (now : Nat) (j : JobRow) : Bool :=
  (j.submitTime.any fun t => t + maxTime * 3600 < now) && j.jobState ∈ [.submitted, .staging] &&
    j.jobFinished.isNone && j.voName = vo

/-- Its own timeout takes the job. -/
def JobRow.ownTimeout (vo : String) (now : Nat) (j : JobRow) : Bool :=
  (j.maxTimeInQueue.any fun t => t < (now : Int)) && j.voName = vo &&
    j.jobState ∈ [.submitted, .active, .staging] && j.jobFinished.isNone

/-- The call cancels the job. -/
def JobRow.Selected (maxTime : Nat) (vo : String) (now : Nat) (j : JobRow) : Prop :=
  0 < maxTime ∧ j.globalTimeout maxTime vo now = true ∨ j.ownTimeout vo now = true

instance (maxTime : Nat) (vo : String) (now : Nat) (j : JobRow) : Decidable (j.Selected maxTime vo now) :=
  inferInstanceAs (Decidable (_ ∨ _))

section loop

variable {job : JobRow} {db : Db}

theorem globalTimeout_live {maxTime now : Nat} {vo : String} (h : job.globalTimeout maxTime vo now = true) :
    job.jobState.terminal = false := by
  simp only [JobRow.globalTimeout, Bool.and_eq_true, decide_eq_true_eq] at h
  have hstate := h.1.1.2
  revert hstate
  cases job.jobState <;> decide

theorem ownTimeout_live {now : Nat} {vo : String} (h : job.ownTimeout vo now = true) : job.jobState.terminal = false := by
  simp only [JobRow.ownTimeout, Bool.and_eq_true, decide_eq_true_eq] at h
  have hstate := h.1.2
  revert hstate
  cases job.jobState <;> decide

/-- The loop over the selected jobs does to each what its step does, and nothing to the others. -/
theorem expires_loop (node : Node) (message : String) (p : JobRow → Bool)
    (hjob : db.jobs.find? job.jobId = some job) (hlive : p job = true → job.jobState.terminal = false) :
    if p job then (db.view job.jobId).Expires job
      ((((db.jobs.select p).forM (cancelExpiredJob node message)).run Stmt.exec db).2.view job.jobId)
    else (((db.jobs.select p).forM (cancelExpiredJob node message)).run Stmt.exec db).2.view job.jobId =
      db.view job.jobId := by
  cases hp : p job with
  | true =>
      have hnodup : ((db.jobs.select p).map JobRow.jobId).Nodup := db.jobs.nodup.sublist (List.filter_sublist.map _)
      have hmem : job ∈ db.jobs.select p := List.mem_filter.mpr ⟨Table.mem_of_find? hjob, hp⟩
      obtain ⟨db₁, hview, hrun⟩ := Proc.run_forM_of_mem (Db.view job.jobId) hnodup hmem rfl
        (fun x s hx => cancelExpiredJob_frame node message hx s) db
      rw [hrun, ← hview]
      have hjob₁ : (db₁.view job.jobId).job = some job := by
        rw [hview]
        exact hjob
      exact expires_cancelExpiredJob node message hjob₁ (hlive hp)
  | false =>
      refine Proc.run_forM_of_ne (Db.view job.jobId) _ (fun x hx hid => ?_)
        (fun x s hx => cancelExpiredJob_frame node message hx s) db
      obtain ⟨hmem, hx⟩ := List.mem_filter.mp hx
      have hfind : db.jobs.find? job.jobId = some x := Table.find?_eq_some_iff.mpr ⟨hmem, hid⟩
      rw [hjob] at hfind
      cases hfind
      rw [hp] at hx
      cases hx

/-- A job that both timeouts take is cancelled twice, and the second time nothing changes but its state. -/
theorem JobView.Expires.again {v v₁ v₂ : JobView} {job₁ : JobRow} (h : v.Expires job v₁) (hjob₁ : v₁.job = some job₁)
    (hlive : job₁.jobState.terminal = false) (h' : v₁.Expires job₁ v₂) : v.Expires job v₂ := by
  obtain ⟨reason, job', hjob', hid', htype', hstate', hfiles'⟩ := h.ended
  rw [hjob₁] at hjob'
  cases hjob'
  have hfiles₁ : v₁.files = v.files.map (FileRow.expire (job.type = .multiHop) v.now reason) := by
    rcases hfiles' with hfiles | ⟨hterm, -⟩
    · exact hfiles
    · rw [hlive] at hterm
      cases hterm
  obtain ⟨reason₂, job₂, hjob₂, hid₂, htype₂, hstate₂, hfiles₂⟩ := h'.ended
  have hsame : v₁.files.map (FileRow.expire (job₁.type = .multiHop) v₁.now reason₂) =
      v.files.map (FileRow.expire (job.type = .multiHop) v.now reason) := by
    rw [hfiles₁, htype', List.map_map]
    exact List.map_congr_left fun r _ => expire_expire v₁.now reason₂
  rw [hsame, htype'] at hstate₂
  rw [hsame] at hfiles₂
  exact ⟨h'.now.trans h.now, reason, job₂, hjob₂, hid₂.trans hid', htype₂.trans htype', hstate₂, hfiles₂⟩

theorem cancelGlobalTimeout_alone (node : Node) (maxTime : Nat) (vo : String) (db : Db) :
    ∃ message, (cancelGlobalTimeout node maxTime vo).alone db =
      (((db.jobs.select (JobRow.globalTimeout maxTime vo db.now)).forM (cancelExpiredJob node message)).run Stmt.exec db).2 := by
  refine ⟨"Job has been canceled because it stayed in the queue for too long (global timeout)", ?_⟩
  simp only [Op.alone, cancelGlobalTimeout, Proc.bind_eq, select_bind, beginTx_bind, Proc.run_select, Proc.run_tx,
    Proc.run_bind]
  rfl

theorem cancelOwnTimeout_alone (node : Node) (vo : String) (db : Db) :
    ∃ message, (cancelOwnTimeout node vo).alone db =
      (((db.jobs.select (JobRow.ownTimeout vo db.now)).forM (cancelExpiredJob node message)).run Stmt.exec db).2 := by
  refine ⟨"Job has been canceled because it stayed in the queue for too long (max-time-in-queue timeout)", ?_⟩
  simp only [Op.alone, cancelOwnTimeout, Proc.bind_eq, select_bind, beginTx_bind, Proc.run_select, Proc.run_tx,
    Proc.run_bind]
  rfl

theorem cancelExpiredJobsForVo_alone (node : Node) (maxTime : Nat) (vo : String) (db : Db) :
    (cancelExpiredJobsForVo node maxTime vo).alone db = (cancelOwnTimeout node vo).alone
      (if 0 < maxTime then (cancelGlobalTimeout node maxTime vo).alone db else db) := by
  simp only [cancelExpiredJobsForVo, Op.alone, Proc.bind_eq]
  split
  · simp only [Proc.run_bind]
    rfl
  · simp only [Proc.pure_eq, Proc.ret_bind, Proc.run_bind]
    rfl

theorem expires_cancelExpiredJobsForVo (node : Node) {maxTime : Nat} {vo : String}
    (hjob : db.jobs.find? job.jobId = some job) (hselected : job.Selected maxTime vo db.now) :
    (db.view job.jobId).Expires job (((cancelExpiredJobsForVo node maxTime vo).alone db).view job.jobId) := by
  rw [cancelExpiredJobsForVo_alone]
  obtain ⟨db₁, hdb₁⟩ : ∃ db₁, db₁ = if 0 < maxTime then (cancelGlobalTimeout node maxTime vo).alone db else db := ⟨_, rfl⟩
  rw [← hdb₁]
  obtain ⟨message, hown⟩ := cancelOwnTimeout_alone node vo db₁
  rw [hown]
  by_cases hglobal : 0 < maxTime ∧ job.globalTimeout maxTime vo db.now = true
  · have hfirst : (db.view job.jobId).Expires job (db₁.view job.jobId) := by
      obtain ⟨message₀, hrun⟩ := cancelGlobalTimeout_alone node maxTime vo db
      have hloop := expires_loop node message₀ (JobRow.globalTimeout maxTime vo db.now)
        hjob globalTimeout_live
      rw [if_pos hglobal.2, ← hrun] at hloop
      rw [hdb₁, if_pos hglobal.1]
      exact hloop
    obtain ⟨-, job₁, hjob₁, hid, -⟩ := hfirst.ended
    have hfind : db₁.jobs.find? job₁.jobId = some job₁ := by
      rw [hid]
      exact hjob₁
    have hloop := expires_loop node message (JobRow.ownTimeout vo db₁.now) hfind ownTimeout_live
    rw [hid] at hloop
    split at hloop
    · rename_i hown₁
      exact hfirst.again hjob₁ (ownTimeout_live hown₁) hloop
    · rw [hloop]
      exact hfirst
  · have hview : db₁.view job.jobId = db.view job.jobId := by
      rw [hdb₁]
      split
      · rename_i hpos
        obtain ⟨message₀, hrun⟩ := cancelGlobalTimeout_alone node maxTime vo db
        have hloop := expires_loop node message₀ (JobRow.globalTimeout maxTime vo db.now)
          hjob globalTimeout_live
        rw [if_neg fun h => hglobal ⟨hpos, h⟩, ← hrun] at hloop
        exact hloop
      · rfl
    have hjob₁ : db₁.jobs.find? job.jobId = some job := (congrArg JobView.job hview).trans hjob
    have hnow : db₁.now = db.now := congrArg JobView.now hview
    have hloop := expires_loop node message (JobRow.ownTimeout vo db₁.now) hjob₁ ownTimeout_live
    rw [hnow, if_pos (hselected.resolve_left hglobal), hview] at hloop
    rw [hnow]
    exact hloop

end loop

/-! ## Fully cancelled -/

/-- No file of the job waits, those that run or are over are as they were, and the job is over unless one runs. -/
structure FullyCanceled (j : String) (db db' : Db) : Prop where
  waiting : ∀ r ∈ db'.filesOf j, r.fileState.waiting = false
  kept : ∀ r ∈ db.filesOf j, r.fileState.running = true ∨ r.fileState.terminal = true → r ∈ db'.filesOf j
  job : ∃ job', db'.jobs.find? j = some job' ∧
    (job'.jobState.terminal = true ↔ ∀ r ∈ db'.filesOf j, r.fileState.running = false)

/-- No file of the job is in a state that the list leaves out, and something of the job goes on exactly when a file of
it runs. -/
def JobRow.CancelsFully (job : JobRow) (rows : List FileRow) : Prop :=
  (∀ r ∈ rows, r.fileState ≠ .tokenPrep ∧ r.fileState ≠ .forceStart) ∧
    ((∃ r ∈ rows, r.fileState.running = true) ↔ StaysOpen job.type rows)

section fully

variable {job : JobRow} {db db' : Db}

/-- The states of the files after the call. -/
theorem JobView.Expires.files_map {v v' : JobView} (h : v.Expires job v') : ∃ f : FileRow → FileRow,
    v'.files = v.files.map f ∧ ∀ r, ((f r).fileState.waiting = true ↔ r.fileState = .tokenPrep ∨ r.fileState = .forceStart) ∧
      (f r).fileState.running = r.fileState.running ∧
      (r.fileState.running = true ∨ r.fileState.terminal = true → f r = r) := by
  obtain ⟨reason, job', -, -, -, -, hfiles | ⟨-, hfiles⟩⟩ := h.ended
  · exact ⟨_, hfiles, fun r => ⟨expire_waiting, expire_running, expire_of_kept⟩⟩
  · rw [List.map_map] at hfiles
    refine ⟨_, hfiles, fun r => ⟨?_, ?_, fun hkept => ?_⟩⟩
    · rw [Function.comp_apply, cancelUnused_waiting, expire_waiting]
    · rw [Function.comp_apply, cancelUnused_running, expire_running]
    · rw [Function.comp_apply, expire_of_kept hkept, cancelUnused_of_kept hkept]

theorem fullyCanceled_iff (h : (db.view job.jobId).Expires job (db'.view job.jobId)) :
    FullyCanceled job.jobId db db' ↔ job.CancelsFully (db.filesOf job.jobId) := by
  obtain ⟨f, hfiles, hf⟩ := h.files_map
  obtain ⟨reason, job', hjob', hid, htype, hstate, -⟩ := h.ended
  simp only [Db.view_files] at hfiles hstate
  have hrunning : (∀ r ∈ db'.filesOf job.jobId, r.fileState.running = false) ↔
      ¬∃ r ∈ db.filesOf job.jobId, r.fileState.running = true := by
    simp [hfiles, (hf _).2.1]
  have hwaiting : (∀ r ∈ db'.filesOf job.jobId, r.fileState.waiting = false) ↔
      ∀ r ∈ db.filesOf job.jobId, r.fileState ≠ .tokenPrep ∧ r.fileState ≠ .forceStart := by
    simp only [hfiles, List.forall_mem_map, ← Bool.not_eq_true, (hf _).1, not_or, ne_eq]
  have hkept : ∀ r ∈ db.filesOf job.jobId, r.fileState.running = true ∨ r.fileState.terminal = true →
      r ∈ db'.filesOf job.jobId := by
    intro r hr hst
    rw [hfiles]
    exact List.mem_map.mpr ⟨r, hr, (hf r).2.2 hst⟩
  have hjob : (∃ job', db'.jobs.find? job.jobId = some job' ∧
      (job'.jobState.terminal = true ↔ ∀ r ∈ db'.filesOf job.jobId, r.fileState.running = false)) ↔
        (job'.jobState.terminal = true ↔ ∀ r ∈ db'.filesOf job.jobId, r.fileState.running = false) := by
    have hfind : db'.jobs.find? job.jobId = some job' := hjob'
    simp [hfind]
  have hfully : FullyCanceled job.jobId db db' ↔
      (∀ r ∈ db.filesOf job.jobId, r.fileState ≠ .tokenPrep ∧ r.fileState ≠ .forceStart) ∧
        (job'.jobState.terminal = true ↔ ∀ r ∈ db'.filesOf job.jobId, r.fileState.running = false) :=
    ⟨fun hfull => ⟨hwaiting.mp hfull.waiting, hjob.mp hfull.job⟩,
      fun hfull => ⟨hwaiting.mpr hfull.1, hkept, hjob.mpr hfull.2⟩⟩
  rw [hfully, JobRow.CancelsFully]
  refine and_congr_right fun hlisted => ?_
  rw [hstate, hrunning, ← not_terminates_expire db.now reason hlisted]
  exact iff_not_comm

end fully

/-- A job that the call takes is fully cancelled where the condition holds of its files, and only there. -/
theorem expired_job_fully_canceled_iff (node : Node) (maxTime : Nat) (vo : String) (db : Db) (job : JobRow)
    (hjob : db.jobs.find? job.jobId = some job) (hselected : job.Selected maxTime vo db.now) :
    FullyCanceled job.jobId db ((cancelExpiredJobsForVo node maxTime vo).alone db) ↔
      job.CancelsFully (db.filesOf job.jobId) :=
  fullyCanceled_iff (expires_cancelExpiredJobsForVo node hjob hselected)

def queuedJob : JobRow where
  jobId := "j"
  jobState := .submitted
  voName := "atlas"
  submitTime := some 0

/-- The job was submitted two hours ago, with one file in the given state. -/
def queuedJobDb (st : FileState) : Db where
  files := .ofRows [{ fileId := 1, jobId := "j", fileState := st, fileIndex := some 0 }]
  jobs := .ofRows [queuedJob]
  now := 7200

/-- A file that waits to be started is cancelled with its job. -/
theorem expired_job_with_submitted_file :
    FullyCanceled "j" (queuedJobDb .submitted)
      ((cancelExpiredJobsForVo { hostname := "a" } 1 "atlas").alone (queuedJobDb .submitted)) := by
  have hidle : ∀ r ∈ (queuedJobDb .submitted).filesOf "j", r.fileState.running = false ∧ r.fileState.goesOn false = false := by
    decide
  refine (expired_job_fully_canceled_iff { hostname := "a" } 1 "atlas" (queuedJobDb .submitted) queuedJob rfl
    (by decide)).mpr ⟨by decide, ?_⟩
  constructor
  · rintro ⟨r, hr, hrunning⟩
    rw [(hidle r hr).1] at hrunning
    cases hrunning
  · rintro ⟨⟨i, -, -, r, hr, hgoes⟩, -⟩
    rw [show decide (queuedJob.type = .multiHop) = false from rfl, (hidle r (List.mem_of_mem_filter hr)).2] at hgoes
    cases hgoes

/-- One that waits for its token is not, and the job goes on. -/
theorem expired_job_with_tokenPrep_file :
    ¬FullyCanceled "j" (queuedJobDb .tokenPrep)
      ((cancelExpiredJobsForVo { hostname := "a" } 1 "atlas").alone (queuedJobDb .tokenPrep)) ∧
    (((cancelExpiredJobsForVo { hostname := "a" } 1 "atlas").alone (queuedJobDb .tokenPrep)).jobs.find? "j").map
      (·.jobState) = some .submitted := by
  constructor
  · intro h
    have hwaits : (((cancelExpiredJobsForVo { hostname := "a" } 1 "atlas").alone (queuedJobDb .tokenPrep)).filesOf
        "j").any (fun r => r.fileState.waiting) = true := by
      decide +kernel
    obtain ⟨r, hr, hwaiting⟩ := List.any_eq_true.mp hwaits
    rw [h.waiting r hr] at hwaiting
    cases hwaiting
  · decide +kernel

end Fts3.MySql
