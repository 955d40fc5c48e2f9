import Fts3.MySql.Lemmas.Deletions

/-!
# The states of deletions and of their jobs

`updateDeletionsState` stores the events of a batch in one transaction and the states of their jobs in the next one. The
first does not look at the state of the row, and the second has seven conditions on five counters.
-/

namespace Fts3.MySql

open Fts3.Sql

def DmState.terminal : DmState → Bool
  | .finished | .failed | .canceled => true
  | _ => false

/-! ## The aggregate -/

/-- The state of a deletion job with these rows; `none` while nothing is started. -/
def deletionAggregate (rows : List DmRow) : Option JobState :=
  if rows.all (·.fileState = .finished) then some .finished
  else if rows.all (·.fileState = .failed) then some .failed
  else if rows.all (·.fileState.terminal) then
    if rows.any (·.fileState = .canceled) then some .canceled else some .finishedDirty
  else if rows.any (·.fileState = .started) then some .active
  else none

namespace DmCounts

/-- One of the conditions of `storeDeletionJob` holds: the branch in which it should never be is not reached. -/
def handled (n : DmCounts) : Bool :=
  n.inJob = n.finished || n.inJob = n.failed || n.inJob = n.canceled || (1 ≤ n.started && 1 ≤ n.delete) ||
    (n.inJob = n.terminal && n.canceled = 0 && 0 < n.failed) || (n.inJob = n.terminal && 1 ≤ n.canceled)

theorem inJob_ofRows (rows : List DmRow) : (ofRows rows).inJob = rows.length := by
  induction rows with
  | nil => rfl
  | cons r rows ih =>
      simp only [inJob, ofRows, List.countP_cons, List.length_cons] at ih ⊢
      cases r.fileState <;> simp <;> omega

theorem terminal_ofRows (rows : List DmRow) : (ofRows rows).terminal = rows.countP (·.fileState.terminal) := by
  induction rows with
  | nil => rfl
  | cons r rows ih =>
      simp only [terminal, ofRows, List.countP_cons] at ih ⊢
      cases r.fileState <;> simp [DmState.terminal] at ih ⊢ <;> omega

end DmCounts

/-- All rows of the job are terminal, or some are started and some are still to be. -/
def Covered (rows : List DmRow) : Prop :=
  (∀ r ∈ rows, r.fileState.terminal = true) ∨ (∃ r ∈ rows, r.fileState = .started) ∧ ∃ r ∈ rows, r.fileState = .delete

section counts

variable {rows : List DmRow}

theorem inJob_eq_iff {p : DmRow → Bool} : (DmCounts.ofRows rows).inJob = rows.countP p ↔ rows.all p = true := by
  rw [DmCounts.inJob_ofRows, eq_comm, List.countP_eq_length, List.all_eq_true]

theorem inJob_eq_terminal_iff : (DmCounts.ofRows rows).inJob = (DmCounts.ofRows rows).terminal ↔
    rows.all (·.fileState.terminal) = true := by
  rw [DmCounts.terminal_ofRows, inJob_eq_iff]

theorem inJob_eq_finished_iff : (DmCounts.ofRows rows).inJob = (DmCounts.ofRows rows).finished ↔
    rows.all (·.fileState = .finished) = true := inJob_eq_iff

theorem inJob_eq_failed_iff : (DmCounts.ofRows rows).inJob = (DmCounts.ofRows rows).failed ↔
    rows.all (·.fileState = .failed) = true := inJob_eq_iff

theorem inJob_eq_canceled_iff : (DmCounts.ofRows rows).inJob = (DmCounts.ofRows rows).canceled ↔
    rows.all (·.fileState = .canceled) = true := inJob_eq_iff

theorem countP_pos_iff_any {p : DmRow → Bool} : 0 < rows.countP p ↔ rows.any p = true := by
  rw [List.any_eq_true]
  exact List.countP_pos_iff

theorem started_pos_iff : 1 ≤ (DmCounts.ofRows rows).started ↔ rows.any (·.fileState = .started) = true :=
  countP_pos_iff_any

theorem delete_pos_iff : 1 ≤ (DmCounts.ofRows rows).delete ↔ rows.any (·.fileState = .delete) = true :=
  countP_pos_iff_any

theorem failed_pos_iff : 0 < (DmCounts.ofRows rows).failed ↔ rows.any (·.fileState = .failed) = true :=
  countP_pos_iff_any

theorem canceled_pos_iff : 1 ≤ (DmCounts.ofRows rows).canceled ↔ rows.any (·.fileState = .canceled) = true :=
  countP_pos_iff_any

theorem canceled_eq_zero_iff : (DmCounts.ofRows rows).canceled = 0 ↔ rows.any (·.fileState = .canceled) = false := by
  rw [← Bool.not_eq_true, ← canceled_pos_iff]
  omega

theorem all_terminal_of_all {st : DmState} (hst : st.terminal = true) (h : rows.all (·.fileState = st) = true) :
    rows.all (·.fileState.terminal) = true := by
  rw [List.all_eq_true] at h ⊢
  intro r hr
  rw [of_decide_eq_true (h r hr)]
  exact hst

/-- A terminal row of a job that is not all finished and has no cancelled rows has failed. -/
theorem any_failed (hterminal : rows.all (·.fileState.terminal) = true) (hfinished : rows.all (·.fileState = .finished) = false)
    (hcanceled : rows.any (·.fileState = .canceled) = false) : rows.any (·.fileState = .failed) = true := by
  rw [List.all_eq_false] at hfinished
  obtain ⟨r, hr, hne⟩ := hfinished
  rw [List.all_eq_true] at hterminal
  rw [List.any_eq_false] at hcanceled
  have hrow := hterminal r hr
  have hother := hcanceled r hr
  rw [List.any_eq_true]
  refine ⟨r, hr, ?_⟩
  cases hst : r.fileState with
  | finished => simp [hst] at hne
  | failed => rfl
  | canceled => simp [hst] at hother
  | delete => simp [hst, DmState.terminal] at hrow
  | started => simp [hst, DmState.terminal] at hrow

theorem covered_iff : Covered rows ↔ rows.all (·.fileState.terminal) = true ∨
    rows.any (·.fileState = .started) = true ∧ rows.any (·.fileState = .delete) = true := by
  simp [Covered]

/-- The branch in which it should never be is reached for the jobs that are not covered. -/
theorem handled_iff : (DmCounts.ofRows rows).handled = true ↔ Covered rows := by
  rw [covered_iff]
  simp only [DmCounts.handled, Bool.or_eq_true, Bool.and_eq_true, decide_eq_true_eq, inJob_eq_finished_iff,
    inJob_eq_failed_iff, inJob_eq_canceled_iff, started_pos_iff, delete_pos_iff, inJob_eq_terminal_iff,
    canceled_eq_zero_iff, failed_pos_iff, canceled_pos_iff]
  constructor
  · rintro (((((h | h) | h) | h) | h) | h)
    · exact .inl (all_terminal_of_all rfl h)
    · exact .inl (all_terminal_of_all rfl h)
    · exact .inl (all_terminal_of_all rfl h)
    · exact .inr h
    · exact .inl h.1.1
    · exact .inl h.1
  · rintro (hterminal | hactive)
    · cases hcanceled : rows.any (·.fileState = .canceled) with
      | true => exact .inr ⟨hterminal, rfl⟩
      | false =>
          cases hfinished : rows.all (·.fileState = .finished) with
          | true => exact .inl (.inl (.inl (.inl (.inl rfl))))
          | false => exact .inl (.inr ⟨⟨hterminal, rfl⟩, any_failed hterminal hfinished hcanceled⟩)
    · exact .inl (.inl (.inr hactive))

end counts

/-! ## The transactions -/

/-- What happens to the deletions: the two transactions of `updateDeletionsState`, the cancellation of a row by the user,
and the restart of the daemon. -/
inductive DeletionStep where
  | store (node : Node) (delOpsStatus : List (MinFileStatus DmState))
  | aggregate (jobIds : List String)
  | cancel (fileId : Nat)
  | requeue (node : Node)

def DmRow.cancel (r : DmRow) : DmRow := { r with fileState := .canceled }

theorem DmRow.cancel_fileId (r : DmRow) : r.cancel.fileId = r.fileId := rfl

def DeletionStep.exec : DeletionStep → Db → Db
  | store node ops, db => Op.alone (ops.forM (storeDeletion node)) db
  | aggregate jobIds, db => Op.alone (jobIds.forM storeDeletionJob) db
  | cancel f, db =>
      { db with
        dms := db.dms.update (fun r => r.fileId = f && !r.fileState.terminal) DmRow.cancel DmRow.cancel_fileId }
  | requeue node, db => (requeueStartedDeletes node).alone db

def runDeletions : List DeletionStep → Db → Db
  | [], db => db
  | s :: steps, db => runDeletions steps (s.exec db)

theorem updateDeletionsState_alone (node : Node) (ops : List (MinFileStatus DmState)) (db : Db) :
    (updateDeletionsStateInternal node ops).alone db =
      runDeletions [.store node ops, .aggregate (distinct (ops.map (·.jobId)))] db := by
  simp only [updateDeletionsStateInternal, Op.alone, Proc.bind_eq, beginTx_bind, commit_bind, Proc.run_tx, Proc.run_bind]
  rfl

/-- The state that the event stores in its row, whatever the row says; a failure that is retried looks at the row. -/
def storedState (i : MinFileStatus DmState) (db : Db) : Option DmState :=
  if i.state = .failed ∧ retriesDeletion i db = true then none else some i.state

/-- The event does not find its row in another terminal state than the one it stores. -/
def eventInOrder (i : MinFileStatus DmState) (db : Db) : Bool :=
  (db.dms.find? i.fileId).all fun r => !r.fileState.terminal || (storedState i db).all (· = r.fileState)

/-- Each event of the batch, in the database that the events before it leave. -/
def EventsInOrder (node : Node) : List (MinFileStatus DmState) → Db → Prop
  | [], _ => True
  | i :: ops, db => eventInOrder i db = true ∧ EventsInOrder node ops ((storeDeletion node i).alone db)

instance EventsInOrder.decidable (node : Node) :
    (ops : List (MinFileStatus DmState)) → (db : Db) → Decidable (EventsInOrder node ops db)
  | [], _ => inferInstanceAs (Decidable True)
  | _ :: ops, _ => @instDecidableAnd _ _ _ (EventsInOrder.decidable node ops _)

/-- The events of every batch of the run come in order. -/
def BatchesInOrder : List DeletionStep → Db → Prop
  | [], _ => True
  | .store node ops :: steps, db => EventsInOrder node ops db ∧ BatchesInOrder steps (DeletionStep.exec (.store node ops) db)
  | s :: steps, db => BatchesInOrder steps (s.exec db)

instance BatchesInOrder.decidable : (steps : List DeletionStep) → (db : Db) → Decidable (BatchesInOrder steps db)
  | [], _ => inferInstanceAs (Decidable True)
  | .store _ _ :: steps, _ => @instDecidableAnd _ _ (EventsInOrder.decidable _ _ _) (BatchesInOrder.decidable steps _)
  | .aggregate _ :: steps, _ => BatchesInOrder.decidable steps _
  | .cancel _ :: steps, _ => BatchesInOrder.decidable steps _
  | .requeue _ :: steps, _ => BatchesInOrder.decidable steps _

/-- The job is the aggregate of its rows, with `job_finished` set when all of them are terminal, and the branch in which it
should never be has not been reached. -/
def Aggregated (j : String) (db : Db) : Prop :=
  ∃ job, db.jobs.find? j = some job ∧ deletionAggregate (db.dmsOf j) = some job.jobState ∧
    (job.jobFinished.isSome = true ↔ ∀ r ∈ db.dmsOf j, r.fileState.terminal = true) ∧
    (DmCounts.ofRows (db.dmsOf j)).handled = true

/-- `job_finished` is only set when all rows of the job are terminal. -/
def FinishedAtEnd (j : String) (db : Db) : Prop :=
  ∀ job, db.jobs.find? j = some job → job.jobFinished.isSome = true → ∀ r ∈ db.dmsOf j, r.fileState.terminal = true

/-! ## The rows -/

/-- Every row comes from one of the same job, and a terminal one has kept its state. -/
def KeepsDms (db db' : Db) : Prop :=
  ∀ f r', db'.dms.find? f = some r' → ∃ r, db.dms.find? f = some r ∧ r'.jobId = r.jobId ∧
    (r.fileState.terminal = true → r'.fileState = r.fileState)

section rows

variable {db db' db₁ db₂ db₃ : Db} {node : Node} {f : Nat} {j : String}

theorem KeepsDms.refl (db : Db) : KeepsDms db db :=
  fun _ r hr => ⟨r, hr, rfl, fun _ => rfl⟩

theorem KeepsDms.trans (h₁ : KeepsDms db₁ db₂) (h₂ : KeepsDms db₂ db₃) : KeepsDms db₁ db₃ := by
  intro f r₃ hr₃
  obtain ⟨r₂, hr₂, hjob₂, hstate₂⟩ := h₂ f r₃ hr₃
  obtain ⟨r₁, hr₁, hjob₁, hstate₁⟩ := h₁ f r₂ hr₂
  refine ⟨r₁, hr₁, hjob₂.trans hjob₁, fun hterminal => ?_⟩
  have heq := hstate₁ hterminal
  rw [hstate₂ (heq ▸ hterminal), heq]

theorem keepsDms_update {p : DmRow → Bool} {g : DmRow → DmRow} (hg : ∀ r, (g r).fileId = r.fileId)
    (hdms : db'.dms = db.dms.update p g hg)
    (h : ∀ r ∈ db.dms.rows, p r = true → (g r).jobId = r.jobId ∧
      (r.fileState.terminal = true → (g r).fileState = r.fileState)) : KeepsDms db db' := by
  intro f r' hr'
  rw [hdms, Table.find?_update, Option.map_eq_some_iff] at hr'
  obtain ⟨r, hr, rfl⟩ := hr'
  refine ⟨r, hr, ?_⟩
  by_cases hp : p r = true
  · rw [if_pos hp]
    exact h r (Table.mem_of_find? hr) hp
  · rw [if_neg hp]
    exact ⟨rfl, fun _ => rfl⟩

theorem DmUpdate.sets_jobId (u : DmUpdate) (now : Nat) (r : DmRow) : (u.sets now r).jobId = r.jobId := by
  cases u <;> rfl

/-- An event in order leaves the terminal rows alone. -/
theorem storeDeletion_keeps {i : MinFileStatus DmState} (h : eventInOrder i db = true) :
    KeepsDms db ((storeDeletion node i).alone db) := by
  rw [storeDeletion_alone]
  refine keepsDms_update ((deletionUpdate node i db).sets_fileId db.now) rfl fun r hr hsel => ⟨DmUpdate.sets_jobId _ _ _, ?_⟩
  intro hterminal
  have hstored : r.fileId = i.fileId → ∀ st, storedState i db = some st → st = r.fileState := by
    intro hid st hst
    have hfind : db.dms.find? i.fileId = some r := hid ▸ Table.find?_key hr
    simpa [eventInOrder, hfind, hterminal, hst] using h
  by_cases hretry : i.state = .failed ∧ retriesDeletion i db = true
  · have hupdate : deletionUpdate node i db = retryDeletionUpdate i db := by
      simp [deletionUpdate, hretry.1, hretry.2]
    rw [hupdate, retryDeletionUpdate, DmUpdate.selects] at hsel
    simp only [Bool.and_eq_true, decide_eq_true_eq] at hsel
    exfalso
    have hname := hsel.2
    cases hst : r.fileState with
    | finished => split at hname <;> simp [hst, DmState.name] at hname
    | failed => split at hname <;> simp [hst, DmState.name] at hname
    | canceled => split at hname <;> simp [hst, DmState.name] at hname
    | delete => simp [hst, DmState.terminal] at hterminal
    | started => simp [hst, DmState.terminal] at hterminal
  · have hstate : storedState i db = some i.state := if_neg hretry
    have hresult : r.fileId = i.fileId ∧ ((deletionUpdate node i db).sets db.now r).fileState = i.state := by
      unfold deletionUpdate at hsel ⊢
      cases hst : i.state with
      | failed =>
          have hno : retriesDeletion i db = false := by
            rw [hst] at hretry
            simpa using hretry
          simp only [hst, hno] at hsel ⊢
          exact ⟨by simpa [DmUpdate.selects] using hsel, rfl⟩
      | started =>
          rw [hst] at hsel
          exact ⟨by simpa [DmUpdate.selects] using hsel, rfl⟩
      | _ =>
          rw [hst] at hsel
          exact ⟨by simpa [DmUpdate.selects] using hsel, rfl⟩
    rw [hresult.2]
    exact hstored hresult.1 _ hstate

theorem store_keeps {ops : List (MinFileStatus DmState)} (h : EventsInOrder node ops db) :
    KeepsDms db (DeletionStep.exec (.store node ops) db) := by
  induction ops generalizing db with
  | nil => exact KeepsDms.refl db
  | cons i ops ih =>
      have hcons : DeletionStep.exec (.store node (i :: ops)) db =
          DeletionStep.exec (.store node ops) ((storeDeletion node i).alone db) := by
        rw [DeletionStep.exec, Op.alone, Proc.run_forM_cons]
        rfl
      rw [hcons]
      exact (storeDeletion_keeps h.1).trans (ih h.2)

theorem cancel_keeps : KeepsDms db (DeletionStep.exec (.cancel f) db) := by
  refine keepsDms_update DmRow.cancel_fileId rfl fun r _ hp => ⟨rfl, fun hterminal => ?_⟩
  simp [hterminal] at hp

theorem requeue_keeps : KeepsDms db (DeletionStep.exec (.requeue node) db) := by
  refine keepsDms_update (DmUpdate.sets_fileId (.requeueStartedDeletes node.hashStart node.hashEnd) db.now) rfl
    fun r _ hp => ⟨rfl, fun hterminal => ?_⟩
  simp only [DmUpdate.selects, Bool.and_eq_true, decide_eq_true_eq] at hp
  rw [hp.1.1] at hterminal
  cases hterminal

end rows

/-! ## The job -/

section job

variable {db : Db} {j j' : String}

/-- What `storeDeletionJob` does: it ends the job with the aggregate of its rows, makes it active, or does nothing where it
should never be. -/
theorem storeDeletionJob_cases (j : String) (db : Db) :
    (∃ st reason, deletionAggregate (db.dmsOf j) = some st ∧ (db.dmsOf j).all (·.fileState.terminal) = true ∧
      (storeDeletionJob j).alone db = ((Stmt.job (.deletionsTerminal j st reason)).exec db).2) ∨
    ((db.dmsOf j).all (·.fileState.terminal) = false ∧ deletionAggregate (db.dmsOf j) = some .active ∧
      ((storeDeletionJob j).alone db = ((Stmt.job (.deletionsActive j)).exec db).2 ∨
        db.jobState? j = some .active ∧ (storeDeletionJob j).alone db = db)) ∨
    ¬Covered (db.dmsOf j) ∧ (storeDeletionJob j).alone db = db := by
  simp only [storeDeletionJob, Op.alone, Proc.bind_eq, select_bind, Proc.run_select, inJob_eq_finished_iff,
    inJob_eq_failed_iff, inJob_eq_canceled_iff, started_pos_iff, delete_pos_iff, inJob_eq_terminal_iff,
    canceled_eq_zero_iff, failed_pos_iff, canceled_pos_iff]
  generalize db.dmsOf j = rows
  by_cases hfinished : rows.all (·.fileState = .finished) = true
  · rw [if_pos hfinished]
    exact .inl ⟨.finished, none, if_pos hfinished, all_terminal_of_all rfl hfinished, rfl⟩
  rw [if_neg hfinished]
  by_cases hfailed : rows.all (·.fileState = .failed) = true
  · rw [if_pos hfailed]
    refine .inl ⟨.failed, _, ?_, all_terminal_of_all rfl hfailed, rfl⟩
    rw [deletionAggregate, if_neg hfinished, if_pos hfailed]
  rw [if_neg hfailed]
  by_cases hall : rows.all (·.fileState = .canceled) = true
  · have hterminal := all_terminal_of_all rfl hall
    have hsome : rows.any (·.fileState = .canceled) = true := by
      cases rows with
      | nil => simp at hfinished
      | cons r rows => simp_all
    rw [if_pos hall]
    refine .inl ⟨.canceled, _, ?_, hterminal, rfl⟩
    rw [deletionAggregate, if_neg hfinished, if_neg hfailed, if_pos hterminal, if_pos hsome]
  rw [if_neg hall]
  by_cases hactive : rows.any (·.fileState = .started) = true ∧ rows.any (·.fileState = .delete) = true
  · have hlive : rows.all (·.fileState.terminal) = false := by
      obtain ⟨r, hr, hst⟩ := List.any_eq_true.mp hactive.1
      rw [List.all_eq_false]
      refine ⟨r, hr, ?_⟩
      rw [of_decide_eq_true hst]
      exact Bool.false_ne_true
    rw [if_pos hactive]
    refine .inr (.inl ⟨hlive, ?_, ?_⟩)
    · rw [deletionAggregate, if_neg hfinished, if_neg hfailed, if_neg (by simp [hlive]), if_pos hactive.1]
    · rw [Proc.run_select]
      by_cases hjob : db.jobState? j = some .active
      · rw [if_pos hjob]
        exact .inr ⟨hjob, rfl⟩
      · rw [if_neg hjob]
        exact .inl rfl
  rw [if_neg hactive]
  by_cases hterminal : rows.all (·.fileState.terminal) = true
  · cases hcanceled : rows.any (·.fileState = .canceled) with
    | false =>
        have hdirty := any_failed hterminal (Bool.eq_false_iff.mpr hfinished) hcanceled
        rw [if_pos ⟨hterminal, rfl, hdirty⟩]
        refine .inl ⟨.finishedDirty, _, ?_, hterminal, rfl⟩
        rw [deletionAggregate, if_neg hfinished, if_neg hfailed, if_pos hterminal, if_neg (by simp [hcanceled])]
    | true =>
        rw [if_neg (by simp), if_pos ⟨hterminal, rfl⟩]
        refine .inl ⟨.canceled, _, ?_, hterminal, rfl⟩
        rw [deletionAggregate, if_neg hfinished, if_neg hfailed, if_pos hterminal, if_pos hcanceled]
  · rw [if_neg (fun h => hterminal h.1), if_neg (fun h => hterminal h.1)]
    refine .inr (.inr ⟨?_, rfl⟩)
    rw [covered_iff, not_or]
    exact ⟨hterminal, hactive⟩

/-- Only the job itself is written. -/
theorem storeDeletionJob_frame (j : String) (db : Db) : ((storeDeletionJob j).alone db).dms = db.dms ∧
    ∀ j', j' ≠ j → ((storeDeletionJob j).alone db).jobs.find? j' = db.jobs.find? j' := by
  have hother : ∀ u : JobUpdate, (∀ r, u.selects r = true → r.jobId = j) → ∀ j', j' ≠ j →
      ((Stmt.job u).exec db).2.jobs.find? j' = db.jobs.find? j' := by
    intro u hu j' hne
    rw [exec_job_find?]
    cases hjob : db.jobs.find? j' with
    | none => rfl
    | some job =>
        have hid : job.jobId = j' := Table.find?_some hjob
        rw [Option.map_some, if_neg fun hsel => hne (hid.symm.trans (hu job hsel))]
  rcases storeDeletionJob_cases j db with ⟨st, reason, -, -, hrun⟩ | ⟨-, -, hrun | ⟨-, hrun⟩⟩ | ⟨-, hrun⟩
  · rw [hrun]
    exact ⟨rfl, hother _ fun r hr => by simpa [JobUpdate.selects] using hr⟩
  · rw [hrun]
    exact ⟨rfl, hother _ fun r hr => by simpa [JobUpdate.selects] using hr⟩
  · rw [hrun]
    exact ⟨rfl, fun _ _ => rfl⟩
  · rw [hrun]
    exact ⟨rfl, fun _ _ => rfl⟩

theorem dmsOf_congr {db db' : Db} (h : db'.dms = db.dms) (j : String) : db'.dmsOf j = db.dmsOf j := by
  rw [Db.dmsOf, Db.dmsOf, h]

theorem storeDeletionJob_exists (hjob : (db.jobs.find? j).isSome = true) (j' : String) :
    (((storeDeletionJob j').alone db).jobs.find? j).isSome = true := by
  rcases storeDeletionJob_cases j' db with ⟨st, reason, -, -, hrun⟩ | ⟨-, -, hrun | ⟨-, hrun⟩⟩ | ⟨-, hrun⟩
  · rw [hrun, exec_job_find?, Option.isSome_map]
    exact hjob
  · rw [hrun, exec_job_find?, Option.isSome_map]
    exact hjob
  · rw [hrun]
    exact hjob
  · rw [hrun]
    exact hjob

theorem storeDeletionJob_finishedAtEnd (h : FinishedAtEnd j db) (j' : String) :
    FinishedAtEnd j ((storeDeletionJob j').alone db) := by
  intro job hjob hset
  rw [dmsOf_congr (storeDeletionJob_frame j' db).1]
  by_cases hne : j = j'
  · subst hne
    rcases storeDeletionJob_cases j db with ⟨st, reason, -, hterminal, -⟩ | ⟨-, -, hrun | ⟨-, hrun⟩⟩ | ⟨-, hrun⟩
    · rw [List.all_eq_true] at hterminal
      exact hterminal
    · rw [hrun, exec_job_find?, Option.map_eq_some_iff] at hjob
      obtain ⟨job₀, hjob₀, rfl⟩ := hjob
      refine h job₀ hjob₀ ?_
      split at hset
      · exact hset
      · exact hset
    · rw [hrun] at hjob
      exact h job hjob hset
    · rw [hrun] at hjob
      exact h job hjob hset
  · rw [(storeDeletionJob_frame j' db).2 j hne] at hjob
    exact h job hjob hset

/-- The job of rows that are covered is their aggregate. -/
theorem storeDeletionJob_aggregated (hcovered : Covered (db.dmsOf j)) (hfinished : FinishedAtEnd j db)
    (hjob : (db.jobs.find? j).isSome = true) : Aggregated j ((storeDeletionJob j).alone db) := by
  obtain ⟨job, hjob⟩ := Option.isSome_iff_exists.mp hjob
  have hid : job.jobId = j := Table.find?_some hjob
  have hlater := storeDeletionJob_finishedAtEnd hfinished j
  unfold Aggregated
  rw [dmsOf_congr (storeDeletionJob_frame j db).1]
  rcases storeDeletionJob_cases j db with ⟨st, reason, hst, hterminal, hrun⟩ | ⟨hlive, hst, hrun⟩ | ⟨hnot, -⟩
  · rw [List.all_eq_true] at hterminal
    refine ⟨(JobUpdate.deletionsTerminal j st reason).sets db.now job, ?_, hst, iff_of_true rfl hterminal,
      handled_iff.mpr hcovered⟩
    rw [hrun, exec_job_find?, hjob, Option.map_some, if_pos (by simp [JobUpdate.selects, hid])]
  · have hnone : ∀ job', ((storeDeletionJob j).alone db).jobs.find? j = some job' → job'.jobState = .active →
        ∃ job, ((storeDeletionJob j).alone db).jobs.find? j = some job ∧
          deletionAggregate (db.dmsOf j) = some job.jobState ∧
          (job.jobFinished.isSome = true ↔ ∀ r ∈ db.dmsOf j, r.fileState.terminal = true) ∧
          (DmCounts.ofRows (db.dmsOf j)).handled = true := by
      intro job' hjob' hactive
      have hrows : ¬∀ r ∈ db.dmsOf j, r.fileState.terminal = true := by
        rw [← List.all_eq_true, hlive]
        exact Bool.false_ne_true
      refine ⟨job', hjob', hactive ▸ hst, iff_of_false (fun hset => hrows ?_) hrows, handled_iff.mpr hcovered⟩
      rw [← dmsOf_congr (storeDeletionJob_frame j db).1]
      exact hlater job' hjob' hset
    rcases hrun with hrun | ⟨hactive, hrun⟩
    · refine hnone ((JobUpdate.deletionsActive j).sets db.now job) ?_ rfl
      rw [hrun, exec_job_find?, hjob, Option.map_some, if_pos (by simp [JobUpdate.selects, hid])]
    · refine hnone job (by rw [hrun]; exact hjob) ?_
      simpa [Db.jobState?, hjob] using hactive
  · exact absurd hcovered hnot

theorem aggregate_cons (j : String) (js : List String) (db : Db) : DeletionStep.exec (.aggregate (j :: js)) db =
    DeletionStep.exec (.aggregate js) ((storeDeletionJob j).alone db) := by
  rw [DeletionStep.exec, Op.alone, Proc.run_forM_cons]
  rfl

theorem aggregate_dms (js : List String) (db : Db) : (DeletionStep.exec (.aggregate js) db).dms = db.dms := by
  induction js generalizing db with
  | nil => rfl
  | cons j js ih => rw [aggregate_cons, ih, (storeDeletionJob_frame j db).1]

theorem aggregate_finishedAtEnd {js : List String} (h : FinishedAtEnd j db) :
    FinishedAtEnd j (DeletionStep.exec (.aggregate js) db) := by
  induction js generalizing db with
  | nil => exact h
  | cons j' js ih =>
      rw [aggregate_cons]
      exact ih (storeDeletionJob_finishedAtEnd h j')

theorem aggregate_of_not_mem {js : List String} (h : j ∉ js) :
    (DeletionStep.exec (.aggregate js) db).jobs.find? j = db.jobs.find? j := by
  induction js generalizing db with
  | nil => rfl
  | cons j' js ih =>
      rw [List.mem_cons, not_or] at h
      rw [aggregate_cons, ih h.2, (storeDeletionJob_frame j' db).2 j h.1]

theorem Aggregated.congr {db' : Db} (h : Aggregated j db) (hjobs : db'.jobs.find? j = db.jobs.find? j)
    (hdms : db'.dms = db.dms) : Aggregated j db' := by
  unfold Aggregated
  rw [hjobs, dmsOf_congr hdms]
  exact h

/-- After the second transaction a job of the batch is the aggregate of its rows exactly if they are covered. -/
theorem aggregate_aggregated {js : List String} (hj : j ∈ js) (hfinished : FinishedAtEnd j db)
    (hjob : (db.jobs.find? j).isSome = true) :
    Aggregated j (DeletionStep.exec (.aggregate js) db) ↔ Covered (db.dmsOf j) := by
  constructor
  · rintro ⟨job, -, -, -, hhandled⟩
    rw [dmsOf_congr (aggregate_dms js db)] at hhandled
    exact handled_iff.mp hhandled
  · intro hcovered
    induction js generalizing db with
    | nil => cases hj
    | cons j' js ih =>
        rw [aggregate_cons]
        by_cases hjs : j ∈ js
        · refine ih hjs (storeDeletionJob_finishedAtEnd hfinished j') (storeDeletionJob_exists hjob j') ?_
          rw [dmsOf_congr (storeDeletionJob_frame j' db).1]
          exact hcovered
        · obtain rfl : j = j' := (List.mem_cons.mp hj).resolve_right hjs
          exact (storeDeletionJob_aggregated hcovered hfinished hjob).congr (aggregate_of_not_mem hjs)
            (aggregate_dms js _)

end job

/-! ## Runs -/

section runs

variable {db db' : Db} {j : String} {steps : List DeletionStep}

theorem FinishedAtEnd.keeps (h : FinishedAtEnd j db) (hdms : KeepsDms db db') (hjobs : db'.jobs = db.jobs) :
    FinishedAtEnd j db' := by
  intro job hjob hset r' hr'
  rw [hjobs] at hjob
  obtain ⟨hrow, hr'j⟩ := List.mem_filter.mp hr'
  obtain ⟨r, hr, hsame, hstate⟩ := hdms r'.fileId r' (Table.find?_key hrow)
  have hterminal := h job hjob hset r (List.mem_filter.mpr ⟨Table.mem_of_find? hr, by
    simpa [← hsame] using hr'j⟩)
  rw [hstate hterminal]
  exact hterminal

theorem store_jobs (node : Node) (ops : List (MinFileStatus DmState)) (db : Db) :
    (DeletionStep.exec (.store node ops) db).jobs = db.jobs := by
  induction ops generalizing db with
  | nil => rfl
  | cons i ops ih =>
      have hcons : DeletionStep.exec (.store node (i :: ops)) db =
          DeletionStep.exec (.store node ops) ((storeDeletion node i).alone db) := by
        rw [DeletionStep.exec, Op.alone, Proc.run_forM_cons]
        rfl
      rw [hcons, ih, storeDeletion_alone]
      rfl

/-- What a step of a run in order keeps. -/
theorem step_keeps {s : DeletionStep} (h : BatchesInOrder (s :: steps) db) :
    KeepsDms db (s.exec db) ∧ (FinishedAtEnd j db → FinishedAtEnd j (s.exec db)) ∧ BatchesInOrder steps (s.exec db) := by
  cases s with
  | store node ops =>
      exact ⟨store_keeps h.1, fun hfin => hfin.keeps (store_keeps h.1) (store_jobs node ops db), h.2⟩
  | aggregate js =>
      refine ⟨fun f r hr => ⟨r, ?_, rfl, fun _ => rfl⟩, aggregate_finishedAtEnd, h⟩
      rw [aggregate_dms] at hr
      exact hr
  | cancel f => exact ⟨cancel_keeps, fun hfin => hfin.keeps cancel_keeps rfl, h⟩
  | requeue node => exact ⟨requeue_keeps, fun hfin => hfin.keeps requeue_keeps rfl, h⟩

theorem run_keeps (h : BatchesInOrder steps db) : KeepsDms db (runDeletions steps db) := by
  induction steps generalizing db with
  | nil => exact KeepsDms.refl db
  | cons s steps ih =>
      obtain ⟨hkeeps, -, hrest⟩ := step_keeps (j := "") h
      exact hkeeps.trans (ih hrest)

theorem runDeletions_append (steps steps' : List DeletionStep) (db : Db) :
    runDeletions (steps ++ steps') db = runDeletions steps' (runDeletions steps db) := by
  induction steps generalizing db with
  | nil => rfl
  | cons s steps ih => exact ih _

/-- What holds at any moment of a run in order. -/
theorem run_prefix {steps' : List DeletionStep} (h : BatchesInOrder (steps ++ steps') db) :
    BatchesInOrder steps' (runDeletions steps db) ∧ (FinishedAtEnd j db → FinishedAtEnd j (runDeletions steps db)) := by
  induction steps generalizing db with
  | nil => exact ⟨h, id⟩
  | cons s steps ih =>
      obtain ⟨-, hfin, hrest⟩ := step_keeps (j := j) h
      obtain ⟨hlater, hrun⟩ := ih hrest
      exact ⟨hlater, fun h => hrun (hfin h)⟩

end runs

/-- In a run whose events come in order, a terminal row keeps its state, and each time `updateDeletionsState` ends, a job of
its batch is the aggregate of its rows exactly if they are all terminal or some are started and some are still to be. -/
theorem deletion_state_machine (db : Db) (steps : List DeletionStep) (h : BatchesInOrder steps db) :
    (∀ before after, steps = before ++ after → ∀ f r r', (runDeletions before db).dms.find? f = some r →
      r.fileState.terminal = true → (runDeletions steps db).dms.find? f = some r' → r'.fileState = r.fileState) ∧
    ∀ before jobIds after, steps = before ++ .aggregate jobIds :: after → ∀ j ∈ jobIds, FinishedAtEnd j db →
      ((runDeletions before db).jobs.find? j).isSome = true →
      (Aggregated j (runDeletions (before ++ [.aggregate jobIds]) db) ↔ Covered ((runDeletions before db).dmsOf j)) := by
  constructor
  · rintro before after rfl f r r' hr hterminal hr'
    obtain ⟨hlater, -⟩ := run_prefix (j := "") h
    rw [runDeletions_append] at hr'
    obtain ⟨r₀, hr₀, -, hstate⟩ := run_keeps hlater f r' hr'
    obtain rfl := Option.some.inj (hr.symm.trans hr₀)
    exact hstate hterminal
  · rintro before jobIds after rfl j hj hfinished hjob
    obtain ⟨-, hfin⟩ := run_prefix (j := j) h
    rw [runDeletions_append]
    exact aggregate_aggregated hj (hfin hfinished) hjob

/-- A job with two deletions that nothing has been done about. -/
def deletionsDb : Db where
  dms := .ofRows [{ fileId := 1, jobId := "j", fileState := .delete }, { fileId := 2, jobId := "j", fileState := .delete }]
  jobs := .ofRows [{ jobId := "j", jobState := .delete, jobType := some .regular }]

def deletionEvent (f : Nat) (state : DmState) : MinFileStatus DmState := { jobId := "j", fileId := f, state }

/-- One deletion is started while the other one waits. -/
theorem deletion_state_machine_started : Aggregated "j"
    (runDeletions [.store { hostname := "a" } [deletionEvent 1 .started], .aggregate ["j"]] deletionsDb) := by
  refine ((deletion_state_machine deletionsDb [.store { hostname := "a" } [deletionEvent 1 .started], .aggregate ["j"]]
    (by decide)).2 [.store { hostname := "a" } [deletionEvent 1 .started]] ["j"] [] rfl "j" (by decide) ?_ rfl).mpr ?_
  · intro job hjob hset
    cases hjob
    cases hset
  · exact covered_iff.mpr (by decide)

/-- Both deletions are started: the job is not active. One of them has finished, and the replayed event starts it again. -/
theorem deletion_states_broken :
    let node : Node := { hostname := "a" }
    let started := (updateDeletionsStateInternal node [deletionEvent 1 .started, deletionEvent 2 .started]).alone deletionsDb
    let finished := (updateDeletionsStateInternal node [deletionEvent 1 .finished]).alone started
    let late := (updateDeletionsStateInternal node [deletionEvent 1 .started]).alone finished
    started.jobState? "j" = some .delete ∧ deletionAggregate (started.dmsOf "j") = some .active ∧
    (DmCounts.ofRows (started.dmsOf "j")).handled = false ∧
    (finished.dms.find? 1).map (·.fileState) = some .finished ∧ (late.dms.find? 1).map (·.fileState) = some .started := by
  decide

end Fts3.MySql
