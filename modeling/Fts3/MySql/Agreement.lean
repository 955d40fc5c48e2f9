import Fts3.MySql.Sanity

/-!
# The two aggregators

`updateJobTransferStatusInternal` and `fixJobNonTerminallAllFilesTerminal` both derive the state of a job
from the states of its files.
-/

namespace Fts3.MySql

open Fts3.Sql

/-- The jobs for whose files the two decide alike. Without replicas: no file is canceled, and all are finished
or an index has failed and, unless all files are failed, the job is no multihop job and another index has
finished. With replicas: every index has finished, or no file has, an index has failed and, if a file is
canceled, the job is running. -/
def JobRow.DecidedAlike (job : JobRow) (rows : List FileRow) : Prop :=
  rows ≠ [] ∧
  if job.type ≠ .multipleReplica then
    (∀ r ∈ rows, r.fileState ≠ .canceled) ∧ ((∀ r ∈ rows, r.fileState = .finished) ∨
      (∃ i ∈ indexes rows, classify rows i = .failed) ∧ ((∀ r ∈ rows, r.fileState = .failed) ∨
        job.type ≠ .multiHop ∧ ∃ i ∈ indexes rows, classify rows i = .finished))
  else if ∃ r ∈ rows, r.fileState = .finished then
    (∀ i ∈ indexes rows, classify rows i = .finished) ∧ job.jobState ≠ .archiving
  else
    (∃ i ∈ indexes rows, classify rows i = .failed) ∧
      ((∀ r ∈ rows, r.fileState ≠ .canceled) ∨ job.jobState = .active ∨ job.jobState = .ready)

/-- Whenever `updateJobStatus` terminates the job, the check stores the same state. -/
def AggregatorsAgree (db : Db) (j : String) : Prop :=
  ∀ node state job', ((updateJobTransferStatusInternal node j state).alone db).jobs.find? j = some job' →
    job'.jobFinished ≠ none →
    (fixJobNonTerminallAllFilesTerminal.alone db).jobState? j = some job'.jobState

section agree

variable {job : JobRow} {rows : List FileRow} (hterm : ∀ r ∈ rows, r.fileState.terminal = true)

include hterm

theorem fixState?_of_not_replica (hne : rows ≠ []) (hlive : job.jobState.terminal = false)
    (hty : job.type ≠ .multipleReplica) :
    job.fixState? rows = some (classOutcome rows job.type) ↔ job.DecidedAlike rows := by
  have hsum := classSize_sum rows
  have hongoing := classSize_ongoing_of_terminal hterm
  have htarget : job.jobState ≠ fixTarget rows := by
    intro h
    rw [h] at hlive
    unfold fixTarget at hlive
    grind [JobState.terminal]
  have hcanceled : rows.all (fun r => r.fileState = .finished || r.fileState = .failed) = true ↔
      ∀ r ∈ rows, r.fileState ≠ .canceled := by
    simp only [List.all_eq_true, Bool.or_eq_true, decide_eq_true_eq]
    refine forall₂_congr fun r hr => ?_
    have := hterm r hr
    cases h : r.fileState <;> simp_all [FileState.terminal]
  rw [JobRow.fixState?, if_neg (by simpa using hne), if_pos hty, JobRow.DecidedAlike, if_pos hty]
  simp only [hcanceled, hne, ne_eq, not_false_eq_true, true_and, htarget, and_true]
  by_cases hc : ∀ r ∈ rows, r.fileState ≠ .canceled
  · have hzero := classSize_canceled_of_not_canceled hc
    rw [if_pos hc, Option.some.injEq]
    simp only [← classSize_pos, fixTarget, List.all_eq_true, decide_eq_true_eq, classOutcome]
    by_cases hfin : ∀ r ∈ rows, r.fileState = .finished
    · have := classSize_failed_of_not_failed hfin
      have hall : classSize rows .finished = (indexes rows).length := by omega
      rw [if_pos hfin, if_pos hall]
      exact iff_of_true rfl ⟨hc, .inl hfin⟩
    · by_cases hfail : ∀ r ∈ rows, r.fileState = .failed
      · have hnone : ∀ r ∈ rows, r.fileState ≠ .finished := fun r hr => by simp [hfail r hr]
        have := classSize_finished_of_not_finished hnone
        grind
      · grind
  · simp [hc]

theorem fixState?_of_replica (hne : rows ≠ []) (hty : job.type = .multipleReplica) :
    (job.fixState? rows = some (classOutcome rows job.type) ∧
      (job.jobState = .archiving → job.fixState? rows = some .failed)) ↔ job.DecidedAlike rows := by
  have hsum := classSize_sum rows
  have hongoing := classSize_ongoing_of_terminal hterm
  have hrep : ¬job.type ≠ .multipleReplica := not_not.mpr hty
  rw [JobRow.fixState?, if_neg (by simpa using hne), if_neg hrep, JobRow.DecidedAlike, if_neg hrep]
  simp only [hne, ne_eq, not_false_eq_true, true_and, List.any_eq_true, decide_eq_true_eq]
  by_cases hany : ∃ r ∈ rows, r.fileState = .finished
  · simp only [if_pos hany, Option.some.injEq, ← classSize_eq_length, classOutcome, hty, reduceCtorEq]
    grind
  · have hnone : ∀ r ∈ rows, r.fileState ≠ .finished := fun r hr h => hany ⟨r, hr, h⟩
    have hzero := classSize_finished_of_not_finished hnone
    have hidle : rows.all (fun r => r.fileState ≠ .active && r.fileState ≠ .submitted) = true := by
      simp only [List.all_eq_true, Bool.and_eq_true, decide_eq_true_eq]
      intro r hr
      have := hterm r hr
      cases h : r.fileState <;> simp_all [FileState.terminal]
    have hfailed : rows.all (fun r => r.fileState = .failed) = true ↔ ∀ r ∈ rows, r.fileState ≠ .canceled := by
      simp only [List.all_eq_true, decide_eq_true_eq]
      refine forall₂_congr fun r hr => ?_
      have := hterm r hr
      have hnf : r.fileState ≠ .finished := fun h => hany ⟨r, hr, h⟩
      cases h : r.fileState <;> simp_all [FileState.terminal]
    simp only [if_neg hany, hfailed, hidle, and_true, ← classSize_pos, classOutcome, hzero]
    grind

theorem decidedAlike_iff (hlive : job.jobState.terminal = false) :
    (job.fixState? rows = some (classOutcome rows job.type) ∧
      (job.type = .multipleReplica ∧ job.jobState = .archiving → job.fixState? rows = some .failed)) ↔
    job.DecidedAlike rows := by
  by_cases hne : rows = []
  · subst hne
    simp [JobRow.fixState?, JobRow.DecidedAlike, classOutcome, classSize, indexes, groups]
  by_cases hty : job.type = .multipleReplica
  · rw [← fixState?_of_replica hterm hne hty]
    simp [hty]
  · rw [← fixState?_of_not_replica hterm hne hlive hty]
    simp [hty]

end agree

theorem JobView.Fixes.jobState {v v' : JobView} {job : JobRow} (h : v.Fixes v' job) :
    v'.job.map (·.jobState) = some ((job.fixState? v.files).getD job.jobState) := by
  obtain ⟨job', hv', hfix⟩ := h
  rw [hv']
  cases hst : job.fixState? v.files with
  | none =>
      rw [hst] at hfix
      obtain rfl : job' = job := hfix
      rfl
  | some st =>
      rw [hst] at hfix
      exact congrArg some hfix.1

theorem fixState?_eq_some {job : JobRow} {rows : List FileRow} {st : JobState}
    (hlive : job.jobState.terminal = false) (hst : st.terminal = true) :
    some ((job.fixState? rows).getD job.jobState) = some st ↔ job.fixState? rows = some st := by
  cases h : job.fixState? rows with
  | none =>
      simp only [Option.getD_none, Option.some.injEq, reduceCtorEq, iff_false]
      rintro rfl
      rw [hst] at hlive
      cases hlive
  | some st' => simp

/-- The states in which `updateJobStatus` terminates a live job with only terminal files. -/
theorem updateJob_terminates {db : Db} {j : String} {job : JobRow} (hjob : db.jobs.find? j = some job)
    (hlive : job.jobState.terminal = false) (hfin : job.jobFinished = none)
    (hterm : ∀ r ∈ db.filesOf j, r.fileState.terminal = true) (st : JobState) :
    (∃ node state job', ((updateJobTransferStatusInternal node j state).alone db).jobs.find? j = some job' ∧
      job'.jobFinished ≠ none ∧ job'.jobState = st) ↔
    st = classOutcome (db.filesOf j) job.type ∨
      (job.type = .multipleReplica ∧ job.jobState = .archiving) ∧ st = .failed := by
  have hover := terminates_of_terminal hterm job.type
  constructor
  · rintro ⟨node, state, job', hjob', hstamp, rfl⟩
    by_cases hreplica : job.type = .multipleReplica ∧ job.jobState = .archiving ∧ state = .failed
    · obtain ⟨hty, harch, rfl⟩ := hreplica
      obtain ⟨job'', hjob'', hst, -⟩ := updateJob_alone_replica node hjob hty harch
      obtain rfl : job'' = job' := Option.some.inj (hjob''.symm.trans hjob')
      exact .inr ⟨⟨hty, harch⟩, hst⟩
    by_cases hearly : job.returnsEarly state (db.filesOf j) = true
    · obtain ⟨job'', hjob'', h⟩ := updateJob_alone_early node hjob hearly hreplica
      obtain rfl : job'' = job' := Option.some.inj (hjob''.symm.trans hjob')
      exact absurd (h.trans hfin) hstamp
    · obtain ⟨job'', hjob'', hstored⟩ := updateJob_alone node hjob hlive (by simpa using hearly)
      obtain rfl : job'' = job' := Option.some.inj (hjob''.symm.trans hjob')
      rw [if_pos ((JobCounts.ofRows_jobFinished _ _).mpr hover)] at hstored
      exact .inl (hstored.1.trans (JobCounts.ofRows_outcome hover).1)
  · rintro (rfl | ⟨⟨hty, harch⟩, rfl⟩)
    · have hearly : job.returnsEarly .canceled (db.filesOf j) = false := by
        cases h : job.jobState <;> simp_all [JobRow.returnsEarly, sameState, FileState.toJobState?, JobState.terminal]
      obtain ⟨job', hjob', hstored⟩ := updateJob_alone { hostname := "" } hjob hlive hearly
      rw [if_pos ((JobCounts.ofRows_jobFinished _ _).mpr hover)] at hstored
      refine ⟨_, .canceled, job', hjob', ?_, hstored.1.trans (JobCounts.ofRows_outcome hover).1⟩
      simp [hstored.2.2]
    · obtain ⟨job', hjob', hst, hstamp⟩ := updateJob_alone_replica { hostname := "" } hjob hty harch
      exact ⟨_, .failed, job', hjob', by simp [hstamp], hst⟩



/-- The two aggregators agree on an unfinished job with only terminal files exactly when the job is already
in a terminal state, in which `updateJobStatus` leaves it, or they decide alike. -/
theorem aggregators_agree (db : Db) (job : JobRow) (hjob : job ∈ db.jobs.rows) (hfin : job.jobFinished = none)
    (hterm : ∀ r ∈ db.filesOf job.jobId, r.fileState.terminal = true) :
    AggregatorsAgree db job.jobId ↔
      (job.jobState.terminal = false → job.DecidedAlike (db.filesOf job.jobId)) := by
  have hjob : db.jobs.find? job.jobId = some job := Table.find?_key hjob
  have hcheck : (fixJobNonTerminallAllFilesTerminal.alone db).jobState? job.jobId =
      some ((job.fixState? (db.filesOf job.jobId)).getD job.jobState) := (fixJobs_fixes hjob hfin).jobState
  by_cases hlive : job.jobState.terminal = false
  · have hstored := updateJob_terminates hjob hlive hfin hterm
    have hout : (classOutcome (db.filesOf job.jobId) job.type).terminal = true := by
      rw [← (JobCounts.ofRows_outcome (terminates_of_terminal hterm job.type)).1]
      exact JobCounts.outcome_terminal _ _
    simp only [hlive, true_implies, ← decidedAlike_iff hterm hlive]
    have hfailed : JobState.failed.terminal = true := rfl
    rw [← fixState?_eq_some hlive hout, ← fixState?_eq_some hlive hfailed, ← hcheck]
    constructor
    · intro h
      refine ⟨?_, fun hrep => ?_⟩
      · obtain ⟨node, state, job', hjob', hstamp, hst⟩ := (hstored _).mpr (.inl rfl)
        exact hst ▸ h node state job' hjob' hstamp
      · obtain ⟨node, state, job', hjob', hstamp, hst⟩ := (hstored _).mpr (.inr ⟨hrep, rfl⟩)
        exact hst ▸ h node state job' hjob' hstamp
    · rintro ⟨hagg, hrep⟩ node state job' hjob' hstamp
      rcases (hstored _).mp ⟨node, state, job', hjob', hstamp, rfl⟩ with hst | ⟨hcond, hst⟩
      · rw [hst]
        exact hagg
      · rw [hst]
        exact hrep hcond
  · refine iff_of_true ?_ (fun h => absurd h hlive)
    intro node state job' hjob' hstamp
    rw [updateJob_alone_terminal node hjob (by simpa using hlive)] at hjob'
    cases hjob'
    exact absurd hfin hstamp

def dirtyDb : Db where
  files := .ofRows [{ fileId := 1, jobId := "j", fileState := .finished, fileIndex := some 0 },
    { fileId := 2, jobId := "j", fileState := .failed, fileIndex := some 1 }]
  jobs := .ofRows [{ jobId := "j", jobState := .active, jobType := some .sessionReuse }]

theorem aggregators_agree_dirty : AggregatorsAgree dirtyDb "j" := by
  refine (aggregators_agree dirtyDb { jobId := "j", jobState := .active, jobType := some .sessionReuse }
    (List.mem_singleton.mpr rfl) rfl (by decide)).mpr fun _ => ⟨by decide, ?_⟩
  rw [if_pos (by decide)]
  exact ⟨by decide, .inr ⟨⟨1, by decide, by decide⟩, .inr ⟨by decide, 0, by decide, by decide⟩⟩⟩

theorem aggregators_disagree_canceled : ¬AggregatorsAgree canceledDb "j" := by
  intro h
  have := h { hostname := "a" } .canceled _ rfl (by decide)
  cases this

end Fts3.MySql
