import Fts3.Sql.Rely
import Fts3.MySql.Aggregate

/-!
# Jobs that make progress

What any number of `updateTransferStatus` and `updateJobStatus` leave alone of a job: the file indexes, the
states of its terminal files and its own terminal state.
-/

namespace Fts3.MySql

open Fts3.Sql

/-! ## Rows that move on -/

/-- The row keeps its index, and its state once this is terminal. -/
def FileRow.Becomes (r r' : FileRow) : Prop :=
  r'.fileIndex = r.fileIndex ∧ (r.fileState.terminal = true → r'.fileState = r.fileState)

/-- Every row becomes one of the new rows, and every new row was one. -/
def Evolves (rows rows' : List FileRow) : Prop :=
  (∀ r ∈ rows, ∃ r' ∈ rows', r.Becomes r') ∧ ∀ r' ∈ rows', ∃ r ∈ rows, r.Becomes r'

theorem FileRow.Becomes.trans {r₁ r₂ r₃ : FileRow} (h₁ : r₁.Becomes r₂) (h₂ : r₂.Becomes r₃) : r₁.Becomes r₃ := by
  refine ⟨h₂.1.trans h₁.1, fun hterm => ?_⟩
  have hst := h₁.2 hterm
  exact (h₂.2 (by rw [hst]; exact hterm)).trans hst

namespace Evolves

theorem refl (rows : List FileRow) : Evolves rows rows :=
  ⟨fun r hr => ⟨r, hr, rfl, fun _ => rfl⟩, fun r hr => ⟨r, hr, rfl, fun _ => rfl⟩⟩

theorem trans {rows₁ rows₂ rows₃ : List FileRow} (h₁ : Evolves rows₁ rows₂) (h₂ : Evolves rows₂ rows₃) :
    Evolves rows₁ rows₃ := by
  constructor
  · intro r hr
    obtain ⟨r', hr', hb⟩ := h₁.1 r hr
    obtain ⟨r'', hr'', hb'⟩ := h₂.1 r' hr'
    exact ⟨r'', hr'', hb.trans hb'⟩
  · intro r'' hr''
    obtain ⟨r', hr', hb'⟩ := h₂.2 r'' hr''
    obtain ⟨r, hr, hb⟩ := h₁.2 r' hr'
    exact ⟨r, hr, hb.trans hb'⟩

theorem of_map {rows : List FileRow} {f : FileRow → FileRow} (h : ∀ r ∈ rows, r.Becomes (f r)) :
    Evolves rows (rows.map f) := by
  refine ⟨fun r hr => ⟨f r, List.mem_map_of_mem hr, h r hr⟩, ?_⟩
  intro r' hr'
  obtain ⟨r, hr, rfl⟩ := List.mem_map.mp hr'
  exact ⟨r, hr, h r hr⟩

section

variable {rows rows' : List FileRow} (h : Evolves rows rows')

include h

theorem terminal (hterm : ∀ r ∈ rows, r.fileState.terminal = true) :
    ∀ r' ∈ rows', r'.fileState.terminal = true := by
  intro r' hr'
  obtain ⟨r, hr, -, hst⟩ := h.2 r' hr'
  rw [hst (hterm r hr)]
  exact hterm r hr

theorem mem_indexes {i : Int} : i ∈ indexes rows' ↔ i ∈ indexes rows := by
  simp only [indexes, mem_groups]
  constructor
  · rintro ⟨r', hr', hi⟩
    obtain ⟨r, hr, hidx, -⟩ := h.2 r' hr'
    exact ⟨r, hr, hidx ▸ hi⟩
  · rintro ⟨r, hr, hi⟩
    obtain ⟨r', hr', hidx, -⟩ := h.1 r hr
    exact ⟨r', hr', hidx ▸ hi⟩

theorem perm_indexes : (indexes rows').Perm (indexes rows) :=
  (List.perm_ext_iff_of_nodup (nodup_groups _) (nodup_groups _)).mpr fun _ => h.mem_indexes

theorem mem_group {r : FileRow} {i : Int} (hr : r ∈ group FileRow.fileIndex rows i) :
    ∃ r' ∈ group FileRow.fileIndex rows' i, r.Becomes r' := by
  obtain ⟨hmem, hi⟩ := List.mem_filter.mp hr
  obtain ⟨r', hr', hb⟩ := h.1 r hmem
  exact ⟨r', List.mem_filter.mpr ⟨hr', by rw [hb.1]; exact hi⟩, hb⟩

theorem of_mem_group {r' : FileRow} {i : Int} (hr' : r' ∈ group FileRow.fileIndex rows' i) :
    ∃ r ∈ group FileRow.fileIndex rows i, r.Becomes r' := by
  obtain ⟨hmem, hi⟩ := List.mem_filter.mp hr'
  obtain ⟨r, hr, hb⟩ := h.2 r' hmem
  exact ⟨r, List.mem_filter.mpr ⟨hr, by rw [← hb.1]; exact hi⟩, hb⟩

theorem classify_finished {i : Int} (hc : classify rows i = .finished) : classify rows' i = .finished := by
  rw [classify_eq_finished, List.any_eq_true] at hc ⊢
  obtain ⟨r, hr, hst⟩ := hc
  rw [decide_eq_true_eq] at hst
  obtain ⟨r', hr', -, hb⟩ := h.mem_group hr
  exact ⟨r', hr', by simp [hb (by simp [hst, FileState.terminal]), hst]⟩

theorem classify_canceled {i : Int} (hc : classify rows i = .canceled) : classify rows' i = .canceled := by
  rw [classify_eq_canceled, List.all_eq_true] at hc ⊢
  intro r' hr'
  obtain ⟨r, hr, -, hb⟩ := h.of_mem_group hr'
  have hst : r.fileState = .canceled := by simpa using hc r hr
  simp [hb (by simp [hst, FileState.terminal]), hst]

theorem classify_failed {i : Int} (hc : classify rows i = .failed) : classify rows' i = .failed := by
  have hall := classify_eq_canceled_or_failed.mp (.inr hc)
  have hnot : ¬(group FileRow.fileIndex rows i).all (fun r => r.fileState = .canceled) = true := by
    rw [← classify_eq_canceled, hc]
    exact IndexClass.noConfusion
  rw [List.all_eq_true] at hall
  simp only [Bool.or_eq_true, decide_eq_true_eq] at hall
  have hall' : classify rows' i = .canceled ∨ classify rows' i = .failed := by
    refine classify_eq_canceled_or_failed.mpr (List.all_eq_true.mpr fun r' hr' => ?_)
    obtain ⟨r, hr, -, hb⟩ := h.of_mem_group hr'
    rcases hall r hr with hst | hst <;> simp [hb (by simp [hst, FileState.terminal]), hst]
  refine hall'.resolve_left fun hcanceled => hnot (List.all_eq_true.mpr fun r hr => ?_)
  rw [classify_eq_canceled, List.all_eq_true] at hcanceled
  obtain ⟨r', hr', -, hb⟩ := h.mem_group hr
  have hst' : r'.fileState = .canceled := by simpa using hcanceled r' hr'
  rcases hall r hr with hst | hst
  · rw [hb (by simp [hst, FileState.terminal]), hst] at hst'
    cases hst'
  · simp [hst]

theorem classify_eq {i : Int} (hc : classify rows i ≠ .ongoing) : classify rows' i = classify rows i := by
  cases hcl : classify rows i with
  | finished => exact h.classify_finished hcl
  | canceled => exact h.classify_canceled hcl
  | failed => exact h.classify_failed hcl
  | ongoing => exact absurd hcl hc

theorem length_indexes : (indexes rows').length = (indexes rows).length :=
  h.perm_indexes.length_eq

theorem classSize_finished_le : classSize rows .finished ≤ classSize rows' .finished := by
  rw [classSize, classSize, h.perm_indexes.countP_eq]
  refine List.countP_mono_left fun i _ hc => ?_
  rw [decide_eq_true_eq] at hc ⊢
  exact h.classify_finished hc

theorem classSize_eq (hover : classSize rows .ongoing = 0) (c : IndexClass) :
    classSize rows' c = classSize rows c := by
  rw [classSize, classSize, h.perm_indexes.countP_eq]
  refine List.countP_congr fun i hi => ?_
  have hc : classify rows i ≠ .ongoing := by
    intro hc
    have := classSize_pos.mpr ⟨i, hi, hc⟩
    omega
  rw [h.classify_eq hc]

theorem classOutcome_eq (hover : classSize rows .ongoing = 0) (ty : JobType) :
    classOutcome rows' ty = classOutcome rows ty := by
  simp only [classOutcome, h.classSize_eq hover, h.length_indexes]

theorem countIndexes_eq (hterm : ∀ r ∈ rows, r.fileState.terminal = true) (c : Count) :
    countIndexes c rows' = countIndexes c rows := by
  simp only [countIndexes, countDistinct_filter, Int.natCast_inj]
  rw [show groups FileRow.fileIndex rows' = indexes rows' from rfl, h.perm_indexes.countP_eq]
  refine List.countP_congr fun i _ => ?_
  simp only [List.any_eq_true]
  constructor
  · rintro ⟨r', hr', hc⟩
    obtain ⟨r, hr, -, hb⟩ := h.of_mem_group hr'
    exact ⟨r, hr, hb (hterm r (List.mem_of_mem_filter hr)) ▸ hc⟩
  · rintro ⟨r, hr, hc⟩
    obtain ⟨r', hr', -, hb⟩ := h.mem_group hr
    exact ⟨r', hr', (hb (hterm r (List.mem_of_mem_filter hr))).symm ▸ hc⟩

end

end Evolves

/-! ## Counts that are read one after the other -/

/-- When the last count is of `rows` and the others were read before, a job is only found finished if no index
of `rows` is ongoing. If no index was canceled since the second count, the state is that of `rows`. -/
theorem JobCounts.outcome_of_torn {n : JobCounts} {rows₁ rows₂ rows₃ rows : List FileRow} {ty : JobType}
    (hover : n.jobFinished ty = true) (hty : ty ≠ .multiHop)
    (hinJob : n.inJob = countIndexes .inJob rows₁) (h₁ : Evolves rows₁ rows)
    (hnotCanceled : n.notCanceled = countIndexes .notCanceled rows₂) (h₂ : Evolves rows₂ rows)
    (hfinished : n.finished = countIndexes .finished rows₃) (h₃ : Evolves rows₃ rows)
    (hlast : n.notCanceledNorFailed = countIndexes .notCanceledNorFailed rows)
    (hcanceled : classSize rows₂ .canceled = classSize rows .canceled) :
    classSize rows .ongoing = 0 ∧ (n.outcome ty).1 = classOutcome rows ty := by
  have hsum := classSize_sum rows
  have hinJob : n.inJob = (indexes rows).length := by
    rw [h₁.length_indexes, hinJob]
    exact ofRows_inJob rows₁
  have hcanceled : n.canceled = classSize rows .canceled := by
    rw [← hcanceled, ← ofRows_canceled, canceled, canceled, hinJob, hnotCanceled, h₂.length_indexes, ofRows_inJob]
    rfl
  have hfailed : n.failed = classSize rows .failed := by
    rw [← ofRows_failed, failed, failed, hinJob, hcanceled, hlast, ofRows_canceled, ofRows_inJob]
    rfl
  have hle : n.finished ≤ classSize rows .finished := by
    have hle := h₃.classSize_finished_le
    have heq : n.finished = classSize rows₃ .finished := hfinished.trans (ofRows_finished rows₃)
    omega
  have hall : n.inJob = n.terminal := by simpa [jobFinished, hty] using hover
  rw [terminal, hinJob, hcanceled, hfailed] at hall
  have hongoing : classSize rows .ongoing = 0 := by omega
  have hfin : n.finished = classSize rows .finished := by omega
  refine ⟨hongoing, ?_⟩
  rw [← (ofRows_outcome (.inl hongoing)).1]
  simp only [outcome, hinJob, hcanceled, hfailed, hfin, ofRows_inJob, ofRows_canceled, ofRows_failed,
    ofRows_finished]

/-! ## Progress of a job -/

/-- The files of the job move on, and the job keeps its type and its terminal state. -/
structure Progress (j : String) (db db' : Db) : Prop where
  files : Evolves (db.filesOf j) (db'.filesOf j)
  job : ∀ job, db.jobs.find? j = some job → ∃ job', db'.jobs.find? j = some job' ∧ job'.type = job.type ∧
    (job.jobState.terminal = true → job'.jobState = job.jobState)

def FilesTerminal (j : String) (db : Db) : Prop :=
  ∀ r ∈ db.filesOf j, r.fileState.terminal = true

def JobTerminal (j : String) (db : Db) : Prop :=
  ∃ job, db.jobs.find? j = some job ∧ job.jobState.terminal = true

def HasType (j : String) (ty : JobType) (db : Db) : Prop :=
  ∃ job, db.jobs.find? j = some job ∧ job.type = ty

namespace Progress

variable {j : String} {db db' : Db}

theorem refl (db : Db) : Progress j db db :=
  ⟨.refl _, fun job hjob => ⟨job, hjob, rfl, fun _ => rfl⟩⟩

theorem trans {db₁ db₂ db₃ : Db} (h₁ : Progress j db₁ db₂) (h₂ : Progress j db₂ db₃) : Progress j db₁ db₃ := by
  refine ⟨h₁.files.trans h₂.files, fun job hjob => ?_⟩
  obtain ⟨job', hjob', hty, hst⟩ := h₁.job job hjob
  obtain ⟨job'', hjob'', hty', hst'⟩ := h₂.job job' hjob'
  refine ⟨job'', hjob'', hty'.trans hty, fun hterm => ?_⟩
  have hsame := hst hterm
  exact (hst' (by rw [hsame]; exact hterm)).trans hsame

theorem filesTerminal (h : Progress j db db') (hA : FilesTerminal j db) : FilesTerminal j db' :=
  h.files.terminal hA

theorem jobTerminal (h : Progress j db db') (hj : JobTerminal j db) : JobTerminal j db' := by
  obtain ⟨job, hjob, hterm⟩ := hj
  obtain ⟨job', hjob', -, hst⟩ := h.job job hjob
  exact ⟨job', hjob', by rw [hst hterm]; exact hterm⟩

theorem hasType {ty : JobType} (h : Progress j db db') (hj : HasType j ty db) : HasType j ty db' := by
  obtain ⟨job, hjob, hty⟩ := hj
  obtain ⟨job', hjob', hty', -⟩ := h.job job hjob
  exact ⟨job', hjob', hty'.trans hty⟩

end Progress

theorem JobUpdate.sets_type (u : JobUpdate) (now : Nat) (job : JobRow) : (u.sets now job).type = job.type := by
  rw [JobRow.type, u.sets_jobType, JobRow.type]

theorem Stmt.Guarded.progress {s : Stmt} (h : s.Guarded) (j : String) (db : Db) : Progress j db (s.exec db).2 := by
  cases s with
  | file u =>
      refine ⟨?_, fun job hjob => ⟨job, hjob, rfl, fun _ => rfl⟩⟩
      rw [exec_file_filesOf]
      refine Evolves.of_map fun r _ => ?_
      split
      · rename_i hsel
        refine ⟨u.sets_fileIndex db.now r, fun hterm => ?_⟩
        rw [u.sets_fileState]
        cases hw : u.writes? with
        | none => rfl
        | some st =>
            rw [u.selects_not_terminal h.1 hw h.2 hsel] at hterm
            cases hterm
      · exact ⟨rfl, fun _ => rfl⟩
  | job u =>
      refine ⟨.refl _, fun job hjob => ⟨_, by rw [exec_job_find?, hjob, Option.map_some], ?_⟩⟩
      split
      · rename_i hsel
        refine ⟨u.sets_type db.now job, fun hterm => ?_⟩
        rw [JobUpdate.selects_not_terminal h hsel] at hterm
        cases hterm
      · exact ⟨rfl, fun _ => rfl⟩
  | _ => cases h

theorem exec_terminate_terminal {j : String} {db : Db} {job : JobRow} {st : JobState} (reason : String)
    (se : Option String) (hjob : db.jobs.find? j = some job) (hst : st.terminal = true) :
    JobTerminal j ((Stmt.job (.terminate j st reason se)).exec db).2 := by
  refine ⟨_, by rw [exec_job_find?, hjob, Option.map_some], ?_⟩
  have hid : job.jobId = j := Table.find?_some hjob
  split
  · exact hst
  · rename_i hsel
    cases h : job.jobState <;> simp [JobUpdate.selects, hid, h] at hsel <;> rfl

end Fts3.MySql
