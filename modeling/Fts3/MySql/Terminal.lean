import Fts3.MySql.Lemmas.Writes

/-!
# Terminal states are absorbing

Most statements that write `file_state` or `job_state` have a condition on the old value. For the ones
that have none, what a run needs is that none of them finds a row that is already terminal.
-/

namespace Fts3.MySql

open Fts3.Sql

/-! ## Files -/

/-- An `UPDATE` without a condition on `file_state` finds no row in another terminal state than the one it
writes. -/
def FileUpdate.sparesTerminal (u : FileUpdate) (db : Db) : Bool :=
  !u.unguarded || db.files.rows.all fun r =>
    !(u.selects r && r.fileState.terminal) || u.writes? = some r.fileState

def Step.sparesTerminalFiles (e : Step) : Bool :=
  match e.act with
  | .update (.file u) => u.sparesTerminal e.pre
  | _ => true

/-- Of the files that are terminal after `schedule₁` none has another state after `schedule₂`. -/
def FilesAbsorbing (db : Db) (calls : List Call) (schedule₁ schedule₂ : List Nat) : Prop :=
  ∀ f st, (System.after db calls schedule₁).store.fileState? f = some st → st.terminal = true →
    ∀ st', (System.after db calls (schedule₁ ++ schedule₂)).store.fileState? f = some st' → st' = st

theorem FileUpdate.sets_terminal {u : FileUpdate} {db : Db} (hi : Stmt.Issued (.file u))
    (hs : u.sparesTerminal db = true) {now : Nat} {r : FileRow} (hr : r ∈ db.files.rows)
    (hsel : u.selects r = true) (hterm : r.fileState.terminal = true) :
    (u.sets now r).fileState = r.fileState := by
  rw [u.sets_fileState]
  cases hw : u.writes? with
  | none => rfl
  | some st =>
      cases hg : u.unguarded with
      | false => simp [u.selects_not_terminal hi hw hg hsel] at hterm
      | true =>
          have hrow := hs
          simp only [sparesTerminal, hg, Bool.not_true, Bool.false_or, List.all_eq_true] at hrow
          simpa [hsel, hterm, hw] using hrow r hr

theorem Step.files_absorbs {e : Step} (he : e.Executes Stmt.exec) (hi : ∀ u, e.act = .update u → u.Issued)
    (h : e.sparesTerminalFiles = true) :
    Table.Absorbs FileRow.fileState FileState.terminal e.pre.files e.post.files := by
  unfold Event.Executes at he
  unfold sparesTerminalFiles at h
  split at he
  · rename_i s hs
    rw [he.2]
    rw [hs] at h
    cases s with
    | file u =>
        exact Table.absorbs_update (u.sets_fileId e.pre.now) fun r hr hsel hterm =>
          FileUpdate.sets_terminal (hi _ hs) h hr hsel hterm
    | deleteFiles js => exact Table.absorbs_delete _ _
    | _ => exact Table.Absorbs.refl _
  · rw [he]
    exact Table.Absorbs.refl _

theorem fileState?_eq_some {db : Db} {f : Nat} {st : FileState} (h : db.fileState? f = some st) :
    ∃ r, db.files.find? f = some r ∧ r.fileState = st := by
  simpa [Db.fileState?] using h

theorem jobState?_eq_some {db : Db} {j : String} {st : JobState} (h : db.jobState? j = some st) :
    ∃ r, db.jobs.find? j = some r ∧ r.jobState = st := by
  simpa [Db.jobState?] using h

/-- In a run in which no unconditional write finds a terminal file, terminal files keep their state, from
any moment on. -/
theorem files_absorbing (db : Db) (calls : List Call) (schedule₁ schedule₂ : List Nat)
    (h : ∀ e ∈ System.steps db calls (schedule₁ ++ schedule₂), Step.sparesTerminalFiles e = true) :
    FilesAbsorbing db calls schedule₁ schedule₂ := by
  have hrel : Table.Absorbs FileRow.fileState FileState.terminal (System.after db calls schedule₁).store.files
      (System.after db calls (schedule₁ ++ schedule₂)).store.files := by
    refine after_rel (R := fun s t : Db => Table.Absorbs FileRow.fileState FileState.terminal s.files t.files)
      (fun _ => Table.Absorbs.refl _) Table.Absorbs.trans fun e he => ?_
    obtain ⟨hexec, hissued⟩ := steps_spec he
    exact Step.files_absorbs hexec hissued (h e he)
  intro f st hst hterm st' hst'
  obtain ⟨r', hr', rfl⟩ := fileState?_eq_some hst'
  obtain ⟨r, hr, hkept⟩ := hrel f r' hr'
  have hrst : r.fileState = st := by simpa [Db.fileState?, hr] using hst
  rw [← hrst]
  exact hkept (by rw [hrst]; exact hterm)

def archivingDb : Db where
  files := .ofRows [{ fileId := 1, jobId := "j", fileState := .archiving, fileIndex := some 0 }]
  jobs := .ofRows [{ jobId := "j", jobState := .archiving, jobType := some .regular }]

/-- The archive monitor reports the file as archived, and then it is cancelled. -/
def archivedInTime : List Call :=
  [.updateArchivingState { hostname := "b" } [{ jobId := "j", fileId := 1, state := .finished }],
    .updateTransferStatus { hostname := "a" } { jobId := "j", fileId := 1, newFileState := .canceled }]

theorem files_absorbing_archivedInTime :
    (System.after archivingDb archivedInTime [0, 0, 0]).store.fileState? 1 = some .finished ∧
      FilesAbsorbing archivingDb archivedInTime [0, 0, 0] [1, 1, 1, 1] :=
  ⟨by decide, files_absorbing archivingDb archivedInTime [0, 0, 0] [1, 1, 1, 1] (by decide)⟩

/-- The archiving times out, and then the archive monitor reports the file as archived. -/
def archivedLate : List Call :=
  [.updateTransferStatus { hostname := "a" } { jobId := "j", fileId := 1, newFileState := .failed },
    .updateArchivingState { hostname := "b" } [{ jobId := "j", fileId := 1, state := .finished }]]

theorem files_not_absorbing_archivedLate :
    ¬FilesAbsorbing archivingDb archivedLate [0, 0, 0, 0, 0] [1, 1, 1] := by
  intro h
  have := h 1 .failed (by decide) rfl .finished (by decide)
  cases this

/-! ## Jobs -/

/-- `job_finished` is set exactly for the terminal jobs. -/
def Db.Stamped (db : Db) : Prop :=
  ∀ j ∈ db.jobs.rows, j.jobFinished.isSome = j.jobState.terminal

instance (db : Db) : Decidable db.Stamped :=
  inferInstanceAs (Decidable (∀ j ∈ db.jobs.rows, j.jobFinished.isSome = j.jobState.terminal))

/-- An `UPDATE` that does not look at the terminal states finds no job in another one than it writes, and
one that does not set `job_finished` does not write a terminal state. -/
def JobUpdate.sparesTerminal (u : JobUpdate) (db : Db) : Bool :=
  db.jobs.rows.all fun r => !u.selects r ||
    ((!u.unguarded || !r.jobState.terminal || u.writes = r.jobState) && (u.stamps || !u.writes.terminal))

/-- The step is no such write of `job_state` that finds its job in a state it should not be in. -/
def Step.sparesTerminalJobs (e : Step) : Bool :=
  match e.act with
  | .update (.job u) => u.sparesTerminal e.pre
  | _ => true

/-- Of the jobs that are terminal after `schedule₁` none has another state after `schedule₂`, and then
`job_finished` is set exactly for the terminal ones. -/
def JobsAbsorbing (db : Db) (calls : List Call) (schedule₁ schedule₂ : List Nat) : Prop :=
  (∀ j st, (System.after db calls schedule₁).store.jobState? j = some st → st.terminal = true →
    ∀ st', (System.after db calls (schedule₁ ++ schedule₂)).store.jobState? j = some st' → st' = st) ∧
  (System.after db calls (schedule₁ ++ schedule₂)).store.Stamped

theorem JobUpdate.sparesTerminal_row {u : JobUpdate} {db : Db} (hs : u.sparesTerminal db = true) {r : JobRow}
    (hr : r ∈ db.jobs.rows) (hsel : u.selects r = true) :
    (u.unguarded = true → r.jobState.terminal = true → u.writes = r.jobState) ∧
      (u.stamps = false → u.writes.terminal = false) := by
  simp only [sparesTerminal, List.all_eq_true] at hs
  have h := hs r hr
  simp only [hsel, Bool.not_true, Bool.false_or, Bool.and_eq_true, Bool.or_eq_true, Bool.not_eq_true',
    decide_eq_true_eq] at h
  refine ⟨fun hg hterm => ?_, fun hst => ?_⟩
  · simpa [hg, hterm] using h.1
  · simpa [hst] using h.2

theorem JobUpdate.sets_terminal {u : JobUpdate} {db : Db} (hs : u.sparesTerminal db = true) {now : Nat}
    {r : JobRow} (hr : r ∈ db.jobs.rows) (hsel : u.selects r = true) (hterm : r.jobState.terminal = true) :
    (u.sets now r).jobState = r.jobState := by
  rw [u.sets_jobState]
  cases hg : u.unguarded with
  | true => exact (sparesTerminal_row hs hr hsel).1 hg hterm
  | false => simp [selects_not_terminal hg hsel] at hterm

theorem JobUpdate.sets_stamped {u : JobUpdate} {db : Db} (hi : Stmt.Issued (.job u))
    (hs : u.sparesTerminal db = true) {now : Nat} {r : JobRow} (hr : r ∈ db.jobs.rows)
    (hsel : u.selects r = true) (hst : r.jobFinished.isSome = r.jobState.terminal) :
    (u.sets now r).jobFinished.isSome = (u.sets now r).jobState.terminal := by
  rw [u.sets_jobState, u.sets_jobFinished]
  obtain ⟨hkept, hlive⟩ := sparesTerminal_row hs hr hsel
  cases hstamp : u.stamps with
  | true => simp [writes_terminal_of_stamps hi hstamp]
  | false =>
      have hw := hlive hstamp
      -- a row that is matched without being stamped was not terminal
      have hlive : r.jobState.terminal = false := by
        cases hg : u.unguarded with
        | false => exact selects_not_terminal hg hsel
        | true =>
            rw [← Bool.not_eq_true]
            intro hterm
            rw [hkept hg hterm, hterm] at hw
            cases hw
      simp [hst, hlive, hw]

theorem Step.jobs_absorbs {e : Step} (he : e.Executes Stmt.exec) (hi : ∀ u, e.act = .update u → u.Issued)
    (h : e.sparesTerminalJobs = true) :
    Table.Absorbs JobRow.jobState JobState.terminal e.pre.jobs e.post.jobs ∧
      (e.pre.Stamped → e.post.Stamped) := by
  unfold Event.Executes at he
  unfold sparesTerminalJobs at h
  split at he
  · rename_i s hs
    rw [he.2]
    rw [hs] at h
    cases s with
    | job u =>
        refine ⟨Table.absorbs_update (u.sets_jobId e.pre.now) fun r hr hsel hterm =>
          JobUpdate.sets_terminal h hr hsel hterm, fun hpre => ?_⟩
        exact Table.forall_update (u.sets_jobId e.pre.now) (fun r hr hsel hst =>
          JobUpdate.sets_stamped (hi _ hs) h hr hsel hst) hpre
    | deleteJobs js =>
        exact ⟨Table.absorbs_delete _ _, fun hpre r hr => hpre r (List.mem_filter.mp hr).1⟩
    | _ => exact ⟨Table.Absorbs.refl _, id⟩
  · rw [he]
    exact ⟨Table.Absorbs.refl _, id⟩

/-- In a run in which no `UPDATE` with a missing condition finds its job in a terminal state, terminal jobs
keep their state, from any moment on, and `job_finished` is always set exactly for them. -/
theorem jobs_absorbing (db : Db) (calls : List Call) (schedule₁ schedule₂ : List Nat) (hdb : db.Stamped)
    (h : ∀ e ∈ System.steps db calls (schedule₁ ++ schedule₂), Step.sparesTerminalJobs e = true) :
    JobsAbsorbing db calls schedule₁ schedule₂ := by
  have hstep : ∀ e ∈ System.steps db calls (schedule₁ ++ schedule₂),
      Table.Absorbs JobRow.jobState JobState.terminal e.pre.jobs e.post.jobs ∧
        (e.pre.Stamped → e.post.Stamped) := by
    intro e he
    obtain ⟨hexec, hissued⟩ := steps_spec he
    exact Step.jobs_absorbs hexec hissued (h e he)
  have hrel : Table.Absorbs JobRow.jobState JobState.terminal (System.after db calls schedule₁).store.jobs
      (System.after db calls (schedule₁ ++ schedule₂)).store.jobs :=
    after_rel (R := fun s t : Db => Table.Absorbs JobRow.jobState JobState.terminal s.jobs t.jobs)
      (fun _ => Table.Absorbs.refl _) Table.Absorbs.trans fun e he => (hstep e he).1
  have hstamped : (System.after db calls []).store.Stamped →
      (System.after db calls ([] ++ (schedule₁ ++ schedule₂))).store.Stamped :=
    after_rel (R := fun s t : Db => s.Stamped → t.Stamped) (fun _ => id) (fun h₁ h₂ => h₂ ∘ h₁)
      fun e he => (hstep e he).2
  refine ⟨?_, hstamped hdb⟩
  intro j st hst hterm st' hst'
  obtain ⟨r', hr', rfl⟩ := jobState?_eq_some hst'
  obtain ⟨r, hr, hkept⟩ := hrel j r' hr'
  have hrst : r.jobState = st := by simpa [Db.jobState?, hr] using hst
  rw [← hrst]
  exact hkept (by rw [hrst]; exact hterm)

def submittedDb : Db where
  files := .ofRows [{ fileId := 1, jobId := "j", fileState := .submitted, fileIndex := some 0 }]
  jobs := .ofRows [{ jobId := "j", jobState := .submitted, jobType := some .sessionReuse }]

/-- The job is cancelled, and then the fork of its process fails. -/
def cancelledThenForkFailed : List Call :=
  [.updateTransferStatus { hostname := "a" } { jobId := "j", fileId := 1, newFileState := .canceled },
    .updateJobStatus { hostname := "a" } "j" .canceled, .forkFailed { hostname := "b" } "j"]

theorem jobs_absorbing_cancelled :
    JobsAbsorbing submittedDb cancelledThenForkFailed (List.replicate 5 0) (List.replicate 11 1) ∧
      (System.after submittedDb cancelledThenForkFailed (List.replicate 5 0 ++ List.replicate 11 1)).store.jobState?
        "j" = some .canceled :=
  ⟨jobs_absorbing submittedDb cancelledThenForkFailed _ _ (by decide) (by decide), by decide⟩

theorem jobs_not_absorbing_forkFailed :
    submittedDb.Stamped ∧ ¬JobsAbsorbing submittedDb cancelledThenForkFailed
      (List.replicate 5 0 ++ List.replicate 11 1) (List.replicate 4 2) := by
  refine ⟨by decide, fun h => ?_⟩
  have := h.1 "j" .canceled (by decide) rfl .failed (by decide)
  cases this

end Fts3.MySql
