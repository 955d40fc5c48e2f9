import Fts3.MySql.Aggregate
import Fts3.MySql.Lemmas.Sanity

/-!
# What the sanity checks repair

`fixJobNonTerminallAllFilesTerminal` is to terminate the jobs that have no work left, and only these, in
the state in which `updateJobStatus` would.
-/

namespace Fts3.MySql

open Fts3.Sql

/-! ## Live work -/

def DmState.live (st : DmState) : Bool := st = .delete || st = .started

/-- The check sets `job_finished` only for jobs that own no live file and no live deletion afterwards. -/
def SparesLiveWork (db : Db) : Prop :=
  ∀ job ∈ db.jobs.rows, job.jobFinished = none →
    (∃ job', (fixJobNonTerminallAllFilesTerminal.alone db).jobs.find? job.jobId = some job' ∧
      job'.jobFinished ≠ none) →
    (∀ r ∈ (fixJobNonTerminallAllFilesTerminal.alone db).filesOf job.jobId, r.fileState.live = false) ∧
      ∀ d ∈ (fixJobNonTerminallAllFilesTerminal.alone db).dmsOf job.jobId, d.fileState.live = false

def overlooked : List FileState :=
  [.ready, .staging, .started, .archiving, .forceStart, .tokenPrep, .onHold, .onHoldStaging, .qosTransition,
    .qosRequestSubmitted]

/-- A job that the check terminates has no live deletion, and as a multiple replica job no file in an
overlooked state. -/
def JobRow.NothingOverlooked (job : JobRow) (rows : List FileRow) (dms : List DmRow) : Prop :=
  job.Fixable rows → (job.type = .multipleReplica → ∀ r ∈ rows, r.fileState ∉ overlooked) ∧
    ∀ d ∈ dms, d.fileState.live = false

theorem live_iff_overlooked {st : FileState} (ha : st ≠ .active) (hs : st ≠ .submitted) :
    st.live = false ↔ st ∉ overlooked := by
  cases st <;> simp_all [FileState.live, FileState.terminal, overlooked]

section fixes

variable {v v' : JobView} {job : JobRow}

theorem JobView.Fixes.finished_iff (h : v.Fixes v' job) (hfin : job.jobFinished = none) :
    (∃ job', v'.job = some job' ∧ job'.jobFinished ≠ none) ↔ job.fixState? v.files ≠ none := by
  obtain ⟨job', hv', hfix⟩ := h
  cases hst : job.fixState? v.files with
  | none =>
      rw [hst] at hfix
      obtain rfl : job' = job := hfix
      simp [hv', hfin]
  | some st =>
      rw [hst] at hfix
      simp [hv', hfix.2]

theorem JobView.Fixes.files (h : v.Fixes v' job) : v'.files = job.fixFiles v.now v.files := by
  obtain ⟨job', hv', -⟩ := h
  rw [hv']

theorem JobView.Fixes.dms (h : v.Fixes v' job) : v'.dms = v.dms := by
  obtain ⟨job', hv', -⟩ := h
  rw [hv']

end fixes

theorem fixFiles_live {job : JobRow} {now : Nat} {rows : List FileRow} (hrows : ∀ r ∈ rows, r.jobId = job.jobId)
    (hty : job.type = .multipleReplica) (hany : ∃ r ∈ rows, r.fileState = .finished) :
    (∀ r ∈ job.fixFiles now rows, r.fileState.live = false) ↔ ∀ r ∈ rows, r.fileState ∉ overlooked := by
  rw [JobRow.fixFiles, if_pos ⟨hty, by simpa using hany⟩, List.forall_mem_map]
  refine forall₂_congr fun r hr => ?_
  by_cases hsel : (FileUpdate.fixMultireplicaFinished job.jobId).selects r = true
  · have hst : r.fileState = .active ∨ r.fileState = .submitted := by
      simpa [FileUpdate.selects, hrows r hr] using hsel
    rw [if_pos hsel]
    rcases hst with hst | hst <;> simp [hst, FileUpdate.sets, FileState.live, overlooked]
  · have hst : ¬(r.fileState = .active ∨ r.fileState = .submitted) := by
      simpa [FileUpdate.selects, hrows r hr] using hsel
    rw [not_or] at hst
    rw [if_neg hsel]
    exact live_iff_overlooked hst.1 hst.2

theorem live_false_of_terminal {st : FileState} (h : st = .finished ∨ st = .failed) : st.live = false := by
  rcases h with rfl | rfl <;> rfl

/-- After the check a job that it terminates has live files only where they were overlooked. -/
theorem JobRow.Fixable.live {job : JobRow} {now : Nat} {rows : List FileRow} (h : job.Fixable rows)
    (hrows : ∀ r ∈ rows, r.jobId = job.jobId) :
    (∀ r ∈ job.fixFiles now rows, r.fileState.live = false) ↔
      (job.type = .multipleReplica → ∀ r ∈ rows, r.fileState ∉ overlooked) := by
  rcases h with rfl | ⟨hty, hall, -⟩ | ⟨hty, hcases⟩
  · simp [JobRow.fixFiles]
  · rw [fixFiles_of_not_finished fun h => hty h.1]
    simp only [hty, false_implies, iff_true]
    exact fun r hr => live_false_of_terminal (hall r hr)
  · by_cases hany : ∃ r ∈ rows, r.fileState = .finished
    · rw [fixFiles_live hrows hty hany]
      simp [hty]
    rw [fixFiles_of_not_finished (by simpa [hty] using hany)]
    simp only [hty, true_implies]
    refine forall₂_congr fun r hr => ?_
    rcases hcases with h | h | ⟨-, h⟩
    · exact absurd h hany
    · rw [h r hr]
      decide
    · exact live_iff_overlooked (h r hr).1 (h r hr).2

/-- The check spares live work exactly in the databases in which nothing is overlooked. -/
theorem sanity_spares_live_work (db : Db) : SparesLiveWork db ↔
    ∀ job ∈ db.jobs.rows, job.jobFinished = none →
      job.NothingOverlooked (db.filesOf job.jobId) (db.dmsOf job.jobId) := by
  refine forall₂_congr fun job hmem => forall_congr' fun hfin => ?_
  have hjob : db.jobs.find? job.jobId = some job := Table.find?_key hmem
  have hfix := fixJobs_fixes hjob hfin
  have hrows : ∀ r ∈ db.filesOf job.jobId, r.jobId = job.jobId := by
    intro r hr
    simpa using (List.mem_filter.mp hr).2
  have hstamp := hfix.finished_iff hfin
  have hfiles := hfix.files
  have hdms := hfix.dms
  simp only [Db.view, JobRow.fixState?_ne_none] at hstamp hfiles hdms
  rw [hstamp, hfiles, hdms]
  exact forall_congr' fun hfixable => and_congr_left fun _ => hfixable.live hrows

def deletionDb : Db where
  jobs := .ofRows [{ jobId := "j", jobState := .delete }]
  dms := .ofRows [{ fileId := 1, jobId := "j", fileState := .delete }, { fileId := 2, jobId := "j", fileState := .started }]

theorem sanity_kills_deletions : ¬SparesLiveWork deletionDb := by
  intro h
  have hdone := h { jobId := "j", jobState := .delete } (List.mem_singleton.mpr rfl) rfl ⟨_, rfl, by decide⟩
  have := hdone.2 { fileId := 1, jobId := "j", fileState := .delete } (.head _)
  cases this

/-! ## Completeness -/

/-- After the first check no job with files, all of them terminal, is unfinished; after the second one no
finished job owns a live file. -/
def SanityComplete (db : Db) : Prop :=
  (∀ job ∈ (fixJobNonTerminallAllFilesTerminal.alone db).jobs.rows,
    (fixJobNonTerminallAllFilesTerminal.alone db).filesOf job.jobId ≠ [] →
    (∀ r ∈ (fixJobNonTerminallAllFilesTerminal.alone db).filesOf job.jobId, r.fileState.terminal = true) →
    job.jobFinished ≠ none) ∧
  ∀ job ∈ (fixJobTerminalFileNonTerminal.alone db).jobs.rows, job.jobFinished ≠ none →
    ∀ r ∈ (fixJobTerminalFileNonTerminal.alone db).filesOf job.jobId, r.fileState.live = false

def leftOver : List FileState :=
  [.ready, .archiving, .forceStart, .tokenPrep, .onHold, .onHoldStaging, .qosTransition, .qosRequestSubmitted]

/-- The jobs with only terminal files that the first check terminates: no file is canceled and the state is
not yet the one to store, or a replica is finished, none is canceled, or the job is running. -/
def JobRow.Repairable (job : JobRow) (rows : List FileRow) : Prop :=
  if job.type ≠ .multipleReplica then
    (∀ r ∈ rows, r.fileState ≠ .canceled) ∧ job.jobState ≠ fixTarget rows
  else
    (∃ r ∈ rows, r.fileState = .finished) ∨ (∀ r ∈ rows, r.fileState ≠ .canceled) ∨
      job.jobState = .active ∨ job.jobState = .ready

theorem repairable_iff {job : JobRow} {rows : List FileRow} (hne : rows ≠ [])
    (hterm : ∀ r ∈ rows, r.fileState.terminal = true) : job.Fixable rows ↔ job.Repairable rows := by
  have hcanceled : ∀ r ∈ rows, (r.fileState = .finished ∨ r.fileState = .failed ↔ r.fileState ≠ .canceled) := by
    intro r hr
    have := hterm r hr
    cases hst : r.fileState <;> simp_all [FileState.terminal]
  have hidle : ∀ r ∈ rows, r.fileState ≠ .active ∧ r.fileState ≠ .submitted := by
    intro r hr
    have := hterm r hr
    cases hst : r.fileState <;> simp_all [FileState.terminal]
  unfold JobRow.Fixable JobRow.Repairable
  by_cases hty : job.type = .multipleReplica
  · simp only [hne, hty, ne_eq, not_true_eq_false, false_and, true_and, false_or, if_false]
    grind
  · simp only [hne, hty, ne_eq, not_false_eq_true, false_and, true_and, false_or, or_false, if_true]
    exact and_congr_left fun _ => forall₂_congr hcanceled

theorem fixFiles_terminal {job : JobRow} {now : Nat} {rows : List FileRow}
    (h : (∀ r ∈ rows, r.fileState.terminal = true) ∨
      ∀ r ∈ job.fixFiles now rows, r.fileState.terminal = true) : job.fixFiles now rows = rows := by
  by_cases hany : job.type = .multipleReplica ∧ rows.any (fun r => r.fileState = .finished) = true
  · rw [JobRow.fixFiles, if_pos hany] at h ⊢
    rw [List.map_congr_left (g := id), List.map_id]
    intro r hr
    refine if_neg fun hsel => ?_
    rcases h with h | h
    · have hterm := h r hr
      simp only [FileUpdate.selects, List.mem_cons, List.not_mem_nil, or_false, Bool.and_eq_true,
        decide_eq_true_eq] at hsel
      rcases hsel.1 with hst | hst <;> simp [hst, FileState.terminal] at hterm
    · have hterm := h _ (List.mem_map_of_mem hr)
      rw [if_pos hsel] at hterm
      cases hterm
  · exact fixFiles_of_not_finished hany

theorem JobView.Fixes.complete_iff {v v' : JobView} {job : JobRow} (h : v.Fixes v' job)
    (hfin : job.jobFinished = none) :
    (∀ job', v'.job = some job' → v'.files ≠ [] → (∀ r ∈ v'.files, r.fileState.terminal = true) →
      job'.jobFinished ≠ none) ↔
    (v.files ≠ [] → (∀ r ∈ v.files, r.fileState.terminal = true) → job.Repairable v.files) := by
  have hiff := h.finished_iff hfin
  rw [JobRow.fixState?_ne_none] at hiff
  obtain ⟨job', hv', -⟩ := h
  have hjob' : v'.job = some job' := by rw [hv']
  have hfiles : v'.files = job.fixFiles v.now v.files := by rw [hv']
  simp only [hjob', Option.some.injEq, exists_eq_left'] at hiff
  rw [hfiles]
  constructor
  · intro hcomplete hne hterm
    rw [fixFiles_terminal (.inl hterm)] at hcomplete
    exact (repairable_iff hne hterm).mp (hiff.mp (hcomplete job' hjob' hne hterm))
  · intro hrep job'' hjob'' hne hterm
    rw [fixFiles_terminal (.inr hterm)] at hne hterm
    rw [hjob', Option.some.injEq] at hjob''
    rw [← hjob'']
    exact hiff.mpr ((repairable_iff hne hterm).mpr (hrep hne hterm))

theorem terminal_forceFailed {now : Nat} {r : FileRow} :
    (r.forceFailed now).fileState.live = false ↔ r.fileState ∉ leftOver := by
  unfold FileRow.forceFailed
  cases hst : r.fileState <;> simp [hst, FileUpdate.sets, FileState.live, FileState.terminal, leftOver]

/-- The checks are complete exactly in the databases in which they can repair every unfinished job that has
only terminal files, and no finished job owns a file in a state that they do not look for. -/
theorem sanity_complete (db : Db) : SanityComplete db ↔
    (∀ job ∈ db.jobs.rows, job.jobFinished = none → db.filesOf job.jobId ≠ [] →
      (∀ r ∈ db.filesOf job.jobId, r.fileState.terminal = true) → job.Repairable (db.filesOf job.jobId)) ∧
    ∀ job ∈ db.jobs.rows, job.jobFinished ≠ none → ∀ r ∈ db.filesOf job.jobId, r.fileState ∉ leftOver := by
  refine and_congr ?_ ?_
  · rw [Table.forall_rows_iff, Table.forall_rows_iff]
    refine forall_congr' fun j => ?_
    cases hjob : db.jobs.find? j with
    | none => simp [fixJobs_none hjob]
    | some job =>
        obtain rfl : job.jobId = j := Table.find?_some hjob
        have hid : ∀ {db' : Db} {job' : JobRow}, db'.jobs.find? job.jobId = some job' → job'.jobId = job.jobId :=
          fun h => Table.find?_some h
        simp only [Option.some.injEq, forall_eq']
        by_cases hfin : job.jobFinished = none
        · have hiff := (fixJobs_fixes hjob hfin).complete_iff hfin
          simp only [Db.view] at hiff
          simp only [hfin, true_implies, ← hiff]
          exact forall₂_congr fun job' hjob' => by rw [hid hjob']
        · have hview := fixJobs_finished hjob hfin
          have hsame : (fixJobNonTerminallAllFilesTerminal.alone db).jobs.find? job.jobId = some job :=
            (congrArg JobView.job hview).trans hjob
          simp [hsame, hfin]
  · rw [fixJobTerminalFileNonTerminal_jobs]
    refine forall₂_congr fun job hmem => forall_congr' fun hfin => ?_
    rw [fixJobTerminalFileNonTerminal_filesOf (Table.find?_key hmem) hfin, List.forall_mem_map]
    exact forall₂_congr fun r _ => terminal_forceFailed

def canceledDb : Db where
  files := .ofRows [{ fileId := 1, jobId := "j", fileState := .canceled, fileIndex := some 0 }]
  jobs := .ofRows [{ jobId := "j", jobState := .active, jobType := some .regular }]

theorem sanity_misses_canceled : ¬SanityComplete canceledDb := by
  intro h
  have hdone := h.1 { jobId := "j", jobState := .active, jobType := some .regular } (List.mem_singleton.mpr rfl)
    (by decide) (by decide)
  exact hdone rfl

end Fts3.MySql
