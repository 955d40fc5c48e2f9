import Fts3.Sql.Group
import Fts3.MySql.Lemmas.JobStatus

/-!
# The state of a job from the states of its files

`updateJobTransferStatusInternal` derives the state of a job from six `COUNT(DISTINCT file_index)` by
subtraction. Here the file indexes are put into classes, and the derived numbers are the sizes of these
classes.
-/

namespace Fts3.MySql

open Fts3.Sql

/-! ## Classes of file indexes -/

inductive IndexClass where
  | finished
  | canceled
  | failed
  | ongoing
  deriving DecidableEq, Repr

/-- An index is finished when one of its rows is, canceled when all of them are, and failed when all of
them are failed or canceled. -/
def classify (rows : List FileRow) (i : Int) : IndexClass :=
  let rs := group FileRow.fileIndex rows i
  if rs.any fun r => r.fileState = .finished then .finished
  else if rs.all fun r => r.fileState = .canceled then .canceled
  else if rs.all fun r => r.fileState = .failed || r.fileState = .canceled then .failed
  else .ongoing

def indexes (rows : List FileRow) : List Int := groups FileRow.fileIndex rows

def classSize (rows : List FileRow) (c : IndexClass) : Nat :=
  (indexes rows).countP fun i => classify rows i = c

theorem classSize_sum (rows : List FileRow) :
    classSize rows .finished + classSize rows .canceled + classSize rows .failed + classSize rows .ongoing =
      (indexes rows).length := by
  unfold classSize
  induction indexes rows with
  | nil => rfl
  | cons i is ih =>
      simp only [List.countP_cons, List.length_cons]
      cases classify rows i <;> simp <;> omega

section classify

variable {rows : List FileRow} {i : Int}

theorem classify_eq_finished : classify rows i = .finished ↔
    (group FileRow.fileIndex rows i).any (fun r => r.fileState = .finished) = true := by
  unfold classify
  grind

theorem not_all_of_any_finished {rs : List FileRow} (h : rs.any (fun r => r.fileState = .finished) = true) :
    rs.all (fun r => r.fileState = .failed || r.fileState = .canceled) = false ∧
      rs.all (fun r => r.fileState = .canceled) = false := by
  obtain ⟨r, hr, hst⟩ := List.any_eq_true.mp h
  rw [decide_eq_true_eq] at hst
  refine ⟨List.all_eq_false.mpr ⟨r, hr, by simp [hst]⟩, List.all_eq_false.mpr ⟨r, hr, by simp [hst]⟩⟩

theorem classify_eq_canceled : classify rows i = .canceled ↔
    (group FileRow.fileIndex rows i).all (fun r => r.fileState = .canceled) = true := by
  simp only [classify]
  split
  · rename_i h
    simp [(not_all_of_any_finished h).2]
  · split
    · simp [*]
    · split <;> simp [*]

theorem classify_eq_canceled_or_failed : classify rows i = .canceled ∨ classify rows i = .failed ↔
    (group FileRow.fileIndex rows i).all (fun r => r.fileState = .failed || r.fileState = .canceled) = true := by
  simp only [classify]
  split
  · rename_i h
    simp [(not_all_of_any_finished h).1]
  · split
    · rename_i h
      simp only [List.all_eq_true, decide_eq_true_eq] at h
      simp +contextual [h]
    · split <;> simp [*]

end classify

/-! ## The counts -/

section counts

variable (rows : List FileRow)

theorem JobCounts.ofRows_inJob : (JobCounts.ofRows rows).inJob = (indexes rows).length := by
  simp [ofRows, countIndexes, Count.counts, countDistinct_eq_length, indexes]

theorem JobCounts.ofRows_finished : (JobCounts.ofRows rows).finished = classSize rows .finished := by
  simp only [ofRows, countIndexes, countDistinct_filter, classSize, Int.natCast_inj]
  refine List.countP_congr fun i _ => ?_
  rw [decide_eq_true_eq, classify_eq_finished]
  rfl

/-- The canceled indexes are those without a row that is not canceled. -/
theorem JobCounts.ofRows_canceled : (JobCounts.ofRows rows).canceled = classSize rows .canceled := by
  have h := length_sub_countDistinct FileRow.fileIndex
    (fun r => Count.counts .notCanceled r.fileState) rows
  rw [canceled, ofRows_inJob]
  refine h.trans ?_
  rw [Int.natCast_inj]
  refine List.countP_congr fun i _ => ?_
  rw [decide_eq_true_eq, classify_eq_canceled]
  simp [Count.counts]

theorem classSize_canceled_add_failed : classSize rows .canceled + classSize rows .failed =
    (indexes rows).countP fun i => classify rows i = .canceled || classify rows i = .failed := by
  unfold classSize
  induction indexes rows with
  | nil => rfl
  | cons i is ih =>
      simp only [List.countP_cons]
      cases classify rows i <;> simp <;> omega

/-- The failed ones are among the others those without a row that is neither canceled nor failed. -/
theorem JobCounts.ofRows_failed : (JobCounts.ofRows rows).failed = classSize rows .failed := by
  have h := length_sub_countDistinct FileRow.fileIndex
    (fun r => Count.counts .notCanceledNorFailed r.fileState) rows
  have hboth : (indexes rows).countP (fun i => classify rows i = .canceled || classify rows i = .failed) =
      (groups FileRow.fileIndex rows).countP fun i => (group FileRow.fileIndex rows i).all
        fun r => !Count.counts .notCanceledNorFailed r.fileState := by
    refine List.countP_congr fun i _ => ?_
    rw [Bool.or_eq_true, decide_eq_true_eq, decide_eq_true_eq, classify_eq_canceled_or_failed]
    simp [Count.counts, or_comm, or_iff_not_imp_left]
  rw [← hboth, ← classSize_canceled_add_failed] at h
  have hdef : (JobCounts.ofRows rows).notCanceledNorFailed = (countDistinct FileRow.fileIndex
      (rows.filter fun r => Count.counts .notCanceledNorFailed r.fileState) : Int) := rfl
  rw [failed, ofRows_canceled, ofRows_inJob, hdef]
  simp only [indexes] at h ⊢
  omega

end counts

/-! ## The decision -/

/-- The job is over: no index goes on, or a hop did not succeed. -/
def Terminates (rows : List FileRow) (ty : JobType) : Prop :=
  classSize rows .ongoing = 0 ∨ ty = .multiHop ∧ 0 < classSize rows .failed + classSize rows .canceled

def classOutcome (rows : List FileRow) (ty : JobType) : JobState :=
  if classSize rows .finished = (indexes rows).length then .finished
  else if 0 < classSize rows .finished ∧ 0 < classSize rows .failed then
    if ty = .multiHop then .failed else .finishedDirty
  else if 0 < classSize rows .failed then .failed
  else .canceled

theorem JobCounts.ofRows_jobFinished (rows : List FileRow) (ty : JobType) :
    (JobCounts.ofRows rows).jobFinished ty = true ↔ Terminates rows ty := by
  have hsum := classSize_sum rows
  simp only [jobFinished, terminal, ofRows_inJob, ofRows_finished, ofRows_failed, ofRows_canceled,
    Bool.or_eq_true, Bool.and_eq_true, decide_eq_true_eq, Terminates]
  refine or_congr ⟨fun h => ?_, fun h => ?_⟩ (and_congr_right fun _ => ⟨fun h => ?_, fun h => ?_⟩)
  all_goals omega

/-- The outcome is that of the classes, and not the one for an inconsistent state. -/
theorem JobCounts.ofRows_outcome {rows : List FileRow} {ty : JobType} (h : Terminates rows ty) :
    ((JobCounts.ofRows rows).outcome ty).1 = classOutcome rows ty ∧
      ((JobCounts.ofRows rows).outcome ty).2 ≠ "Inconsistent internal state!" := by
  have hsum := classSize_sum rows
  have hover : classSize rows .finished = (indexes rows).length ∨ 0 < classSize rows .failed ∨
      0 < classSize rows .canceled := by
    rcases h with h | ⟨-, h⟩ <;> omega
  simp only [outcome, ofRows_inJob, ofRows_finished, ofRows_failed, ofRows_canceled, classOutcome,
    Int.natCast_pos, Int.natCast_inj]
  by_cases hall : classSize rows .finished = (indexes rows).length
  · have hfail : ¬(0 < classSize rows .finished ∧ 0 < classSize rows .failed) := by omega
    simp [hall.symm, hfail]
  · by_cases hmix : 0 < classSize rows .finished ∧ 0 < classSize rows .failed
    · simp [hmix, hall]
    · simp only [if_neg hmix, if_neg hall, if_neg (Ne.symm hall)]
      by_cases hfail : 0 < classSize rows .failed
      · simp [hfail]
      · have hcanceled : 0 < classSize rows .canceled := by omega
        simp [hfail, hcanceled]

/-! ## Terminal rows -/

theorem classSize_pos {rows : List FileRow} {c : IndexClass} :
    0 < classSize rows c ↔ ∃ i ∈ indexes rows, classify rows i = c := by
  simp [classSize, List.countP_pos_iff]

theorem classSize_eq_length {rows : List FileRow} {c : IndexClass} :
    classSize rows c = (indexes rows).length ↔ ∀ i ∈ indexes rows, classify rows i = c := by
  simp [classSize, List.countP_eq_length]

theorem exists_row_of_mem_indexes {rows : List FileRow} {i : Int} (h : i ∈ indexes rows) :
    ∃ r, r ∈ group FileRow.fileIndex rows i := by
  obtain ⟨r, hr, hi⟩ := mem_groups.mp h
  exact ⟨r, List.mem_filter.mpr ⟨hr, by simp [hi]⟩⟩

theorem classSize_eq_zero {rows : List FileRow} {c : IndexClass}
    (h : ∀ i ∈ indexes rows, classify rows i ≠ c) : classSize rows c = 0 := by
  by_contra hne
  obtain ⟨i, hi, hc⟩ := classSize_pos.mp (Nat.pos_of_ne_zero hne)
  exact h i hi hc

section terminal

variable {rows : List FileRow} (hterm : ∀ r ∈ rows, r.fileState.terminal = true)

include hterm

theorem classSize_ongoing_of_terminal : classSize rows .ongoing = 0 := by
  refine classSize_eq_zero fun i _ hc => ?_
  have hany : ¬(group FileRow.fileIndex rows i).any (fun r => r.fileState = .finished) = true := by
    rw [← classify_eq_finished, hc]
    exact IndexClass.noConfusion
  have hall : ¬(group FileRow.fileIndex rows i).all
      (fun r => r.fileState = .failed || r.fileState = .canceled) = true := by
    rw [← classify_eq_canceled_or_failed, hc]
    simp
  simp only [List.any_eq_true, decide_eq_true_eq, not_exists, not_and] at hany
  refine hall (List.all_eq_true.mpr fun r hr => ?_)
  have hst := hterm r (List.mem_of_mem_filter hr)
  have hne := hany r hr
  cases h : r.fileState <;> simp_all [FileState.terminal]

theorem terminates_of_terminal (ty : JobType) : Terminates rows ty :=
  .inl (classSize_ongoing_of_terminal hterm)

end terminal

theorem classSize_canceled_of_not_canceled {rows : List FileRow} (h : ∀ r ∈ rows, r.fileState ≠ .canceled) :
    classSize rows .canceled = 0 := by
  refine classSize_eq_zero fun i hi hc => ?_
  obtain ⟨r, hr⟩ := exists_row_of_mem_indexes hi
  rw [classify_eq_canceled, List.all_eq_true] at hc
  exact h r (List.mem_of_mem_filter hr) (by simpa using hc r hr)

theorem classSize_finished_of_not_finished {rows : List FileRow} (h : ∀ r ∈ rows, r.fileState ≠ .finished) :
    classSize rows .finished = 0 := by
  refine classSize_eq_zero fun i hi hc => ?_
  obtain ⟨r, hr, hst⟩ := List.any_eq_true.mp (classify_eq_finished.mp hc)
  exact h r (List.mem_of_mem_filter hr) (by simpa using hst)

theorem classSize_failed_of_not_failed {rows : List FileRow} (h : ∀ r ∈ rows, r.fileState = .finished) :
    classSize rows .failed = 0 := by
  refine classSize_eq_zero fun i hi hc => ?_
  obtain ⟨r, hr⟩ := exists_row_of_mem_indexes hi
  have hfin : classify rows i = .finished :=
    classify_eq_finished.mpr (List.any_eq_true.mpr ⟨r, hr, by simp [h r (List.mem_of_mem_filter hr)]⟩)
  rw [hc] at hfin
  cases hfin

/-! ## The stored state -/

/-- The counts of `updateJobStatus` are the sizes of the classes. Run without interference on a live job it
terminates the job exactly when it is over, with the outcome of the classes. -/
theorem aggregates_by_index (node : Node) (db : Db) (j : String) (job : JobRow) (state : FileState)
    (hjob : db.jobs.find? j = some job) (hlive : job.jobState.terminal = false)
    (hstamp : job.jobFinished = none) (hearly : job.returnsEarly state (db.filesOf j) = false) :
    let rows := db.filesOf j
    let n := ((countFiles j).run Stmt.exec db).1
    (n.finished = classSize rows .finished ∧ n.canceled = classSize rows .canceled ∧
      n.failed = classSize rows .failed ∧ n.inJob = (indexes rows).length ∧
      classSize rows .finished + classSize rows .canceled + classSize rows .failed + classSize rows .ongoing =
        (indexes rows).length) ∧
    ∃ job', ((updateJobTransferStatusInternal node j state).alone db).jobs.find? j = some job' ∧
      (job'.jobFinished.isSome = true ↔ Terminates rows job.type) ∧
      (Terminates rows job.type → job'.jobState = classOutcome rows job.type ∧
        job'.reason ≠ some "Inconsistent internal state!") := by
  intro rows n
  refine ⟨⟨JobCounts.ofRows_finished rows, JobCounts.ofRows_canceled rows, JobCounts.ofRows_failed rows,
    JobCounts.ofRows_inJob rows, classSize_sum rows⟩, ?_⟩
  obtain ⟨job', hjob', hstored⟩ := updateJob_alone node hjob hlive hearly
  refine ⟨job', hjob', ?_⟩
  by_cases hover : Terminates rows job.type
  · rw [if_pos ((JobCounts.ofRows_jobFinished rows job.type).mpr hover)] at hstored
    obtain ⟨hstate, hreason, hfinished⟩ := hstored
    obtain ⟨hout, hcons⟩ := JobCounts.ofRows_outcome hover
    refine ⟨by simp [hfinished, hover], fun _ => ⟨hstate.trans hout, ?_⟩⟩
    rw [hreason]
    simpa using hcons
  · rw [if_neg (fun h => hover ((JobCounts.ofRows_jobFinished rows job.type).mp h))] at hstored
    simp [hstored.2, hstamp, hover]

def mixedDb : Db where
  files := .ofRows [{ fileId := 1, jobId := "j", fileState := .canceled, fileIndex := some 0 },
    { fileId := 2, jobId := "j", fileState := .finished, fileIndex := some 0 },
    { fileId := 3, jobId := "j", fileState := .canceled, fileIndex := some 1 },
    { fileId := 4, jobId := "j", fileState := .failed, fileIndex := some 1 },
    { fileId := 5, jobId := "j", fileState := .canceled, fileIndex := some 2 }]
  jobs := .ofRows [{ jobId := "j", jobState := .active, jobType := some .sessionReuse }]

theorem aggregates_by_index_mixed :
    classOutcome (mixedDb.filesOf "j") .sessionReuse = .finishedDirty ∧
    ∃ job', ((updateJobTransferStatusInternal { hostname := "a" } "j" .canceled).alone mixedDb).jobs.find? "j" =
      some job' ∧ job'.jobState = .finishedDirty := by
  have hout : classOutcome (mixedDb.filesOf "j") .sessionReuse = .finishedDirty := by decide
  obtain ⟨-, job', hjob', -, hstored⟩ := aggregates_by_index { hostname := "a" } mixedDb "j"
    { jobId := "j", jobState := .active, jobType := some .sessionReuse } .canceled rfl rfl rfl (by decide)
  exact ⟨hout, job', hjob', (hstored (.inl (by decide))).1.trans hout⟩

end Fts3.MySql
