import Fts3.MySql.Multihop

/-!
# The hops that are left

Whether a finished hop was the last one is decided by `updateFileTransferStatusInternal` from the hops that are still
`NOT_USED`. While a hop is under way, these are the hops after it.
-/

namespace Fts3.MySql

open Fts3.Sql

/-! ## Hops in turn -/

/-- The file is where it has to go, and is only brought online. -/
def FileRow.stageOnly (r : FileRow) : Bool := r.sourceSurl.isSome && r.sourceSurl = r.destSurl

def FileRow.underWay (r : FileRow) : Bool := r.fileState.live && !r.stageOnly

def Db.isMultihop (j : String) (db : Db) : Bool := (db.jobs.find? j).any fun job => job.type = .multiHop

/-- No hop of the job comes after the file. -/
def Db.isLastHop (j : String) (f : Nat) (db : Db) : Bool :=
  (db.filesOf j).all fun r => r.fileId ≠ f || (db.filesOf j).all fun b => !r.precedes b

/-- The hops of a multihop job are stored in the order of their indexes, and after a hop that is under way or unused
there are only unused ones. -/
structure HopsInTurn (j : String) (db : Db) : Prop where
  positive : ∀ r ∈ db.filesOf j, r.fileId ≠ 0
  precedes : ∀ a ∈ db.filesOf j, ∀ b ∈ db.filesOf j, a.fileId < b.fileId → a.precedes b = true
  unused : ∀ a ∈ db.filesOf j, ∀ b ∈ db.filesOf j, a.precedes b = true →
    a.underWay = true ∨ a.fileState = .notUsed → b.fileState = .notUsed

/-- What the `UPDATE` makes of the row. -/
def FileUpdate.after (u : FileUpdate) (now : Nat) (r : FileRow) : FileRow :=
  if u.selects r then u.sets now r else r

/-- The hop does not become `NOT_USED`, does not go on after its end and, when it is taken out of `NOT_USED`, leaves no
hop before it under way and, but for `useNextHop` and the repair, none before it `NOT_USED`. -/
def FileUpdate.keepsTurn (u : FileUpdate) (j : String) (db : Db) (r : FileRow) : Bool :=
  ((u.after db.now r).fileState ≠ .notUsed || r.fileState = .notUsed) &&
  (!r.fileState.terminal || (u.after db.now r).fileState.terminal) &&
  (r.fileState ≠ .notUsed || (u.after db.now r).fileState = .notUsed || (db.filesOf j).all fun a => !a.precedes r ||
    !(u.after db.now a).underWay && (u.usesNext || (u.after db.now a).fileState ≠ .notUsed))

/-- The rows of the job are not deleted, and its hops, if it has any, are used in turn. -/
def Step.keepsTurns (j : String) (e : Step) : Bool :=
  match e.act with
  | .update (.file u) => !e.pre.isMultihop j || (e.pre.filesOf j).all (u.keepsTurn j e.pre)
  | .update (.deleteFiles ids) | .update (.deleteJobs ids) => j ∉ ids
  | _ => true

/-! ## What the callers rely on -/

/-- What no `UPDATE` changes of a file. -/
structure FileRow.SamePlace (r r' : FileRow) : Prop where
  jobId : r'.jobId = r.jobId
  fileIndex : r'.fileIndex = r.fileIndex
  stageOnly : r'.stageOnly = r.stageOnly

theorem FileUpdate.sets_stageOnly (u : FileUpdate) (now : Nat) (r : FileRow) : (u.sets now r).stageOnly = r.stageOnly := by
  cases u <;> rfl

theorem FileUpdate.after_fileId (u : FileUpdate) (now : Nat) (r : FileRow) : (u.after now r).fileId = r.fileId := by
  unfold after
  split
  · exact u.sets_fileId now r
  · rfl

theorem FileUpdate.samePlace_after (u : FileUpdate) (now : Nat) (r : FileRow) : r.SamePlace (u.after now r) := by
  unfold after
  split
  · exact ⟨u.sets_jobId now r, u.sets_fileIndex now r, u.sets_stageOnly now r⟩
  · exact ⟨rfl, rfl, rfl⟩

theorem FileRow.SamePlace.precedes {a a' b b' : FileRow} (ha : a.SamePlace a') (hb : b.SamePlace b') :
    a'.precedes b' = a.precedes b := by
  simp only [FileRow.precedes, ha.fileIndex, hb.fileIndex]

theorem JobUpdate.sets_archiveTimeout (u : JobUpdate) (now : Nat) (r : JobRow) :
    (u.sets now r).archiveTimeout = r.archiveTimeout := by
  cases u <;> rfl

structure TurnsKept (j : String) (db db' : Db) : Prop where
  job : ∀ job', db'.jobs.find? j = some job' → ∃ job, db.jobs.find? j = some job ∧ job'.type = job.type ∧
    job'.archiveTimeout = job.archiveTimeout
  jobStays : (db.jobs.find? j).isSome = true → (db'.jobs.find? j).isSome = true
  row : ∀ f r', db'.files.find? f = some r' → ∃ r, db.files.find? f = some r ∧ r.SamePlace r' ∧
    (db.isMultihop j = true → r.jobId = j → r'.fileState = .notUsed → r.fileState = .notUsed)
  stays : ∀ r ∈ db.filesOf j, ∃ r' ∈ db'.filesOf j, r'.fileId = r.fileId
  inTurn : db.isMultihop j = true → HopsInTurn j db → HopsInTurn j db'

namespace TurnsKept

variable {j : String} {db db' : Db}

theorem refl (j : String) (db : Db) : TurnsKept j db db where
  job job h := ⟨job, h, rfl, rfl⟩
  jobStays h := h
  row _ r h := ⟨r, h, ⟨rfl, rfl, rfl⟩, fun _ _ h => h⟩
  stays r hr := ⟨r, hr, rfl⟩
  inTurn _ h := h

theorem isMultihop (h : TurnsKept j db db') : db'.isMultihop j = db.isMultihop j := by
  unfold Db.isMultihop
  cases hjob' : db'.jobs.find? j with
  | none =>
      cases hjob : db.jobs.find? j with
      | none => rfl
      | some job =>
          have := h.jobStays (by simp [hjob])
          simp [hjob'] at this
  | some job' =>
      obtain ⟨job, hjob, htype, -⟩ := h.job job' hjob'
      simp [hjob, htype]

theorem trans {db₁ db₂ db₃ : Db} (h₁ : TurnsKept j db₁ db₂) (h₂ : TurnsKept j db₂ db₃) : TurnsKept j db₁ db₃ where
  job job₃ hjob₃ := by
    obtain ⟨job₂, hjob₂, htype₂, htimeout₂⟩ := h₂.job job₃ hjob₃
    obtain ⟨job₁, hjob₁, htype₁, htimeout₁⟩ := h₁.job job₂ hjob₂
    exact ⟨job₁, hjob₁, htype₂.trans htype₁, htimeout₂.trans htimeout₁⟩
  jobStays h := h₂.jobStays (h₁.jobStays h)
  row f r₃ hr₃ := by
    obtain ⟨r₂, hr₂, hp₂, hn₂⟩ := h₂.row f r₃ hr₃
    obtain ⟨r₁, hr₁, hp₁, hn₁⟩ := h₁.row f r₂ hr₂
    refine ⟨r₁, hr₁, ⟨hp₂.jobId.trans hp₁.jobId, hp₂.fileIndex.trans hp₁.fileIndex, hp₂.stageOnly.trans hp₁.stageOnly⟩,
      fun hmulti hj hst => hn₁ hmulti hj (hn₂ (h₁.isMultihop.trans hmulti) (hp₁.jobId.trans hj) hst)⟩
  stays r hr := by
    obtain ⟨r₂, hr₂, hid₂⟩ := h₁.stays r hr
    obtain ⟨r₃, hr₃, hid₃⟩ := h₂.stays r₂ hr₂
    exact ⟨r₃, hr₃, hid₃.trans hid₂⟩
  inTurn hmulti h := h₂.inTurn (h₁.isMultihop.trans hmulti) (h₁.inTurn hmulti h)

theorem hop (h : TurnsKept j db db') {r' : FileRow} (hr' : r' ∈ db'.filesOf j) :
    ∃ r ∈ db.filesOf j, r.fileId = r'.fileId ∧ r.SamePlace r' ∧
      (db.isMultihop j = true → r'.fileState = .notUsed → r.fileState = .notUsed) := by
  obtain ⟨hfind, hj'⟩ := mem_filesOf.mp hr'
  obtain ⟨r, hr, hplace, hstate⟩ := h.row _ _ hfind
  have hid : r.fileId = r'.fileId := Table.find?_some hr
  have hrj : r.jobId = j := hplace.jobId.symm.trans hj'
  exact ⟨r, mem_filesOf.mpr ⟨hid ▸ hr, hrj⟩, hid, hplace, fun hmulti => hstate hmulti hrj⟩

/-- A hop that stays, where it was. -/
theorem next (h : TurnsKept j db db') {r : FileRow} (hr : r ∈ db.filesOf j) :
    ∃ r' ∈ db'.filesOf j, r'.fileId = r.fileId ∧ r.SamePlace r' ∧
      (db.isMultihop j = true → r'.fileState = .notUsed → r.fileState = .notUsed) := by
  obtain ⟨r', hr', hid'⟩ := h.stays r hr
  obtain ⟨r₀, hr₀, hid₀, hplace, hstate⟩ := h.hop hr'
  obtain rfl := eq_of_mem_filesOf hr₀ hr (hid₀.trans hid')
  exact ⟨r', hr', hid', hplace, hstate⟩

theorem fileOf (h : TurnsKept j db db') {j' : String} {f : Nat} (hdb : FileOf j' f db) : FileOf j' f db' := by
  intro r' hr'
  obtain ⟨r, hr, hplace, -⟩ := h.row f r' hr'
  exact hplace.jobId.trans (hdb r hr)

theorem isLastHop (h : TurnsKept j db db') (f : Nat) : db'.isLastHop j f = db.isLastHop j f := by
  rw [Bool.eq_iff_iff]
  simp only [Db.isLastHop, List.all_eq_true, Bool.or_eq_true, decide_eq_true_eq, Bool.not_eq_true']
  constructor
  · intro hlast r hr
    obtain ⟨r', hr', hid, hplace, -⟩ := h.next hr
    refine (hlast r' hr').imp (fun hne => hid ▸ hne) fun hnone b hb => ?_
    obtain ⟨b', hb', -, hplace', -⟩ := h.next hb
    rw [← hplace.precedes hplace']
    exact hnone b' hb'
  · intro hlast r' hr'
    obtain ⟨r, hr, hid, hplace, -⟩ := h.hop hr'
    refine (hlast r hr).imp (fun hne => hid ▸ hne) fun hnone b' hb' => ?_
    obtain ⟨b, hb, -, hplace', -⟩ := h.hop hb'
    rw [hplace.precedes hplace']
    exact hnone b hb

end TurnsKept

section statements

variable {j : String} {db : Db}

theorem HopsInTurn.of_filesOf {db' : Db} (hfiles : db'.filesOf j = db.filesOf j) (h : HopsInTurn j db) :
    HopsInTurn j db' where
  positive := hfiles ▸ h.positive
  precedes := hfiles ▸ h.precedes
  unused := hfiles ▸ h.unused

/-- What changes no file of the job. -/
theorem turnsKept_of_filesOf {db' : Db}
    (hjob : ∀ job', db'.jobs.find? j = some job' → ∃ job, db.jobs.find? j = some job ∧ job'.type = job.type ∧
      job'.archiveTimeout = job.archiveTimeout)
    (hstays : (db.jobs.find? j).isSome = true → (db'.jobs.find? j).isSome = true)
    (hrow : ∀ f r, db'.files.find? f = some r → db.files.find? f = some r)
    (hfiles : db'.filesOf j = db.filesOf j) : TurnsKept j db db' where
  job := hjob
  jobStays := hstays
  row f r hr := ⟨r, hrow f r hr, ⟨rfl, rfl, rfl⟩, fun _ _ h => h⟩
  stays r hr := ⟨r, hfiles ▸ hr, rfl⟩
  inTurn _ h := h.of_filesOf hfiles

theorem turnsKept_of_tables {db' : Db} (hjobs : db'.jobs = db.jobs) (hfiles : db'.files = db.files) :
    TurnsKept j db db' := by
  apply turnsKept_of_filesOf
  · intro job hjob
    exact ⟨job, hjobs ▸ hjob, rfl, rfl⟩
  · exact fun h => hjobs ▸ h
  · exact fun f r hr => hfiles ▸ hr
  · simp only [Db.filesOf, hfiles]

theorem turnsKept_job (u : JobUpdate) : TurnsKept j db ((Stmt.job u).exec db).2 := by
  apply turnsKept_of_filesOf
  · intro job' hjob'
    rw [exec_job_find?, Option.map_eq_some_iff] at hjob'
    obtain ⟨job, hjob, rfl⟩ := hjob'
    refine ⟨job, hjob, ?_⟩
    split
    · exact ⟨by simp only [JobRow.type, u.sets_jobType], u.sets_archiveTimeout db.now job⟩
    · exact ⟨rfl, rfl⟩
  · intro hsome
    rwa [exec_job_find?, Option.isSome_map]
  · exact fun _ _ hr => hr
  · rfl

theorem turnsKept_deleteFiles {ids : List String} (hj : j ∉ ids) : TurnsKept j db ((Stmt.deleteFiles ids).exec db).2 := by
  apply turnsKept_of_filesOf
  · exact fun job hjob => ⟨job, hjob, rfl, rfl⟩
  · exact id
  · intro f r hr
    simp only [Stmt.exec, Table.find?_delete, Option.filter_eq_some_iff] at hr
    exact hr.1
  · simp only [Stmt.exec, Db.filesOf, Table.select, Table.delete, List.filter_filter]
    refine List.filter_congr fun r _ => ?_
    by_cases hr : r.jobId = j
    · simp [hr, hj]
    · simp [hr]

theorem turnsKept_deleteJobs {ids : List String} (hj : j ∉ ids) : TurnsKept j db ((Stmt.deleteJobs ids).exec db).2 := by
  have hsame : ((Stmt.deleteJobs ids).exec db).2.jobs.find? j = db.jobs.find? j := by
    simp only [Stmt.exec, Table.find?_delete]
    cases hjob : db.jobs.find? j with
    | none => rfl
    | some job =>
        have hid : job.jobId = j := Table.find?_some hjob
        simp [Option.filter, hid, hj]
  apply turnsKept_of_filesOf
  · exact fun job hjob => ⟨job, hsame ▸ hjob, rfl, rfl⟩
  · exact fun h => hsame ▸ h
  · exact fun _ _ hr => hr
  · rfl

/-- An `UPDATE` of the files that keeps the hops in turn. `useNextHop` and the repair have to see to the hops before the
one that they use. -/
theorem turnsKept_file {u : FileUpdate}
    (hkeep : db.isMultihop j = true → ∀ r ∈ db.filesOf j, u.keepsTurn j db r = true)
    (hnext : db.isMultihop j = true → HopsInTurn j db → u.usesNext = true → ∀ r ∈ db.filesOf j, u.selects r = true →
      r.fileState = .notUsed → ∀ a ∈ db.filesOf j, a.precedes r = true → a.fileState ≠ .notUsed) :
    TurnsKept j db ((Stmt.file u).exec db).2 where
  job job hjob := ⟨job, hjob, rfl, rfl⟩
  jobStays h := h
  row f r' hr' := by
    rw [exec_file_find?, Option.map_eq_some_iff] at hr'
    obtain ⟨r, hr, rfl⟩ := hr'
    refine ⟨r, hr, u.samePlace_after db.now r, fun hmulti hj hst => ?_⟩
    have hrow := hkeep hmulti r (mem_filesOf.mpr ⟨Table.find?_key (Table.mem_of_find? hr), hj⟩)
    simp only [FileUpdate.keepsTurn, Bool.and_eq_true, Bool.or_eq_true, decide_eq_true_eq] at hrow
    exact hrow.1.1.resolve_left fun hne => hne hst
  stays r hr := by
    refine ⟨u.after db.now r, ?_, u.after_fileId db.now r⟩
    rw [exec_file_filesOf]
    exact List.mem_map_of_mem hr
  inTurn hmulti hdb := by
    have hmem : ∀ r', r' ∈ ((Stmt.file u).exec db).2.filesOf j → ∃ r ∈ db.filesOf j, u.after db.now r = r' := by
      intro r' hr'
      rw [exec_file_filesOf] at hr'
      exact List.mem_map.mp hr'
    constructor
    · intro r' hr'
      obtain ⟨r, hr, rfl⟩ := hmem r' hr'
      rw [u.after_fileId]
      exact hdb.positive r hr
    · intro a' ha' b' hb' hlt
      obtain ⟨a, ha, rfl⟩ := hmem a' ha'
      obtain ⟨b, hb, rfl⟩ := hmem b' hb'
      rw [u.after_fileId, u.after_fileId] at hlt
      rw [(u.samePlace_after db.now a).precedes (u.samePlace_after db.now b)]
      exact hdb.precedes a ha b hb hlt
    · intro a' ha' b' hb' hprec hstate
      obtain ⟨a, ha, rfl⟩ := hmem a' ha'
      obtain ⟨b, hb, rfl⟩ := hmem b' hb'
      rw [(u.samePlace_after db.now a).precedes (u.samePlace_after db.now b)] at hprec
      have hkeepa := hkeep hmulti a ha
      have hkeepb := hkeep hmulti b hb
      simp only [FileUpdate.keepsTurn, Bool.and_eq_true, Bool.or_eq_true, Bool.not_eq_true', decide_eq_true_eq,
        List.all_eq_true] at hkeepa hkeepb
      -- a hop that is under way now was so before, or it was unused
      have hbefore : a.underWay = true ∨ a.fileState = .notUsed := by
        rcases hstate with hway | hnot
        · simp only [FileRow.underWay, FileState.live, Bool.and_eq_true, Bool.not_eq_true', decide_eq_true_eq,
            (u.samePlace_after db.now a).stageOnly] at hway ⊢
          by_cases hnot : a.fileState = .notUsed
          · exact .inr hnot
          · refine .inl ⟨⟨?_, hnot⟩, hway.2⟩
            rcases hkeepa.1.2 with hterm | hterm
            · exact hterm
            · rw [hway.1.1] at hterm
              cases hterm
        · exact .inr (hkeepa.1.1.resolve_left fun hne => hne hnot)
      have hb₀ : b.fileState = .notUsed := hdb.unused a ha b hb hprec hbefore
      rcases hkeepb.2 with (hne | hkept) | hall
      · exact absurd hb₀ hne
      · exact hkept
      · rcases hall a ha with hnot | ⟨hway, hrest⟩
        · rw [hprec] at hnot
          cases hnot
        · rcases hstate with hway' | hnot
          · rw [hway] at hway'
            cases hway'
          · -- the hop before stays unused
            rcases hrest with huse | hne
            · by_cases hsel : u.selects b = true
              · have ha₀ := hkeepa.1.1.resolve_left fun hne => hne hnot
                exact absurd ha₀ (hnext hmulti hdb huse b hb hsel hb₀ a ha hprec)
              · rw [FileUpdate.after, if_neg hsel]
                exact hb₀
            · exact absurd hnot hne

end statements

/-! ## The operations -/

/-- A used file of the job that is not only staged becomes `ARCHIVING` when it is finished if and only if the job has an
archive timeout and there is no hop after it. -/
def DecidesArchiving (j : String) (u : Stmt) (pre : Db) : Prop :=
  match u with
  | .file (.updateFileTransferStatus a) => a.requested = .finished → ∀ r ∈ pre.filesOf j, r.fileId = a.fileId →
      some r.fileState = a.oldState → (pre.isMultihop j = true → r.fileState ≠ .notUsed ∧ r.stageOnly = false) →
      ∀ job, pre.jobs.find? j = some job →
        (a.newState = .archiving ↔ -1 < job.archiveTimeout.getD (-1) ∧
          (job.type = .multiHop → pre.isLastHop j r.fileId = true))
  | _ => True

def turnContract (j : String) : Contract Db Sel Stmt where
  rely := TurnsKept j
  refl := .refl j
  trans := .trans
  cond a last pre := Step.keepsTurns j ⟨0, a, last, pre, pre, 0⟩ = true
  promise u _ pre := DecidesArchiving j u pre

/-- The hops of the job, if it is a multihop job, are in turn. -/
def InTurn (j : String) (db : Db) : Prop := db.isMultihop j = true → HopsInTurn j db

theorem TurnsKept.keepsInTurn {j : String} {db db' : Db} (h : TurnsKept j db db') (hdb : InTurn j db) : InTurn j db' :=
  fun hmulti => h.inTurn (h.isMultihop ▸ hmulti) (hdb (h.isMultihop ▸ hmulti))

section contract

variable {j : String}

theorem keepsTurn_of_ready {u : FileUpdate} {g : Nat} {last pre : Db}
    (h : (turnContract j).Ready (.update (.file u)) g last pre) :
    pre.isMultihop j = true → ∀ r ∈ pre.filesOf j, u.keepsTurn j pre r = true := by
  intro hmulti
  have hcond : Step.keepsTurns j ⟨0, .update (.file u), last, pre, pre, 0⟩ = true := h.cond
  simpa [Step.keepsTurns, hmulti] using hcond

theorem allows_plain : Allows (turnContract j) (InTurn j) Stmt.Plain where
  stable _ _ h := h.keepsInTurn
  update s db db' hs hdb hready := by
    have hcond : Step.keepsTurns j ⟨0, .update s, db, db', db', 0⟩ = true := hready.cond
    cases s with
    | file u =>
        refine ⟨?_, turnsKept_file (keepsTurn_of_ready hready) fun _ _ huse => ?_, Nat.le_refl _⟩
        · cases u with
          | updateFileTransferStatus a => exact fun hfin => absurd hfin hs.2
          | _ => trivial
        · cases u with
          | useNextHop f => cases hs
          | fixFilesInNotUsedState j' i => cases hs
          | _ => cases huse
    | job u => exact ⟨trivial, turnsKept_job u, Nat.le_refl _⟩
    | deleteFiles ids => exact ⟨trivial, turnsKept_deleteFiles (by simpa [Step.keepsTurns] using hcond), Nat.le_refl _⟩
    | deleteJobs ids => exact ⟨trivial, turnsKept_deleteJobs (by simpa [Step.keepsTurns] using hcond), Nat.le_refl _⟩
    | _ => exact ⟨trivial, turnsKept_of_tables rfl rfl, Nat.le_refl _⟩

theorem useNextHop_turns (j' : String) {db : Db} (hdb : InTurn j db) :
    (useNextHop j').Within (turnContract j) (InTurn j) db := by
  simp only [useNextHop, getNextHop, Proc.bind_eq, select_bind, Op.Within, Proc.honors_select]
  intro db₁ h₁
  have hdb₁ : InTurn j db₁ := TurnsKept.keepsInTurn h₁.rely hdb
  split
  · exact hdb₁
  · rename_i hne
    intro db₂ h₂
    have hkept : TurnsKept j db₂ ((Stmt.file (.useNextHop (minNotUsed j' db₁))).exec db₂).2 := by
      refine turnsKept_file (keepsTurn_of_ready h₂) fun hmulti hturn _ r hr hsel _ a ha hprec hst => ?_
      have hidr : r.fileId = minNotUsed j' db₁ := by
        simp only [FileUpdate.selects, Bool.and_eq_true, decide_eq_true_eq] at hsel
        exact hsel.1
      obtain ⟨r₁, hr₁, hidr₁, -, -⟩ := TurnsKept.hop h₂.rely hr
      obtain ⟨a₁, ha₁, hida₁, -, hback⟩ := TurnsKept.hop h₂.rely ha
      obtain ⟨x, hx, -, hidx⟩ := minNotUsed_mem hne
      -- the hop was looked up in this job
      have hrow : x = r₁ := eq_of_mem_filesOf hx hr₁ (by omega)
      obtain rfl : j = j' := by rw [← (mem_filesOf.mp hx).2, hrow, (mem_filesOf.mp hr₁).2]
      have hlt := lt_of_precedes hturn.precedes ha hr hprec
      have hle := minNotUsed_le ha₁ (hback (TurnsKept.isMultihop h₂.rely ▸ hmulti) hst)
      omega
    exact ⟨trivial, hkept, 0, Nat.le_refl _, hkept.keepsInTurn (TurnsKept.keepsInTurn h₂.rely hdb₁)⟩

/-- No hop up to the index `i` is `NOT_USED`. -/
def UsedUpTo (j : String) (i : Int) (db : Db) : Prop :=
  ∀ a ∈ db.filesOf j, (∃ k ≤ i, a.fileIndex = some k) → a.fileState ≠ .notUsed

theorem TurnsKept.usedUpTo {db db' : Db} {i : Int} (h : TurnsKept j db db') (hmulti : db.isMultihop j = true)
    (hdb : UsedUpTo j i db) : UsedUpTo j i db' := by
  rintro a' ha' ⟨k, hk, hi⟩ hst
  obtain ⟨a, ha, -, hplace, hback⟩ := h.hop ha'
  exact hdb a ha ⟨k, hk, hplace.fileIndex ▸ hi⟩ (hback hmulti hst)

theorem HopsInTurn.usedUpTo {db : Db} {i : Int} (h : HopsInTurn j db) {r : FileRow} (hr : r ∈ db.filesOf j)
    (hfin : r.fileState = .finished) (hi : r.fileIndex = some i) : UsedUpTo j i db := by
  rintro a ha ⟨k, hk, hia⟩ hst
  rcases Nat.lt_trichotomy a.fileId r.fileId with hlt | heq | hgt
  · have := h.unused a ha r hr (h.precedes a ha r hr hlt) (.inr hst)
    rw [hfin] at this
    cases this
  · rw [eq_of_mem_filesOf ha hr heq, hfin] at hst
    cases hst
  · have := h.precedes r hr a ha hgt
    simp only [FileRow.precedes, hi, hia, decide_eq_true_eq] at this
    omega

theorem fixStuckHop_turns (j' : String) {db : Db} (hdb : InTurn j db) :
    (fixStuckHop j').Within (turnContract j) (InTurn j) db := by
  simp only [fixStuckHop, Proc.bind_eq, select_bind, Op.Within, Proc.honors_select]
  intro db₁ h₁
  have hdb₁ : InTurn j db₁ := TurnsKept.keepsInTurn h₁.rely hdb
  split
  · exact hdb₁
  · rename_i i hmax
    rw [Proc.honors_select]
    intro db₂ h₂
    have hdb₂ : InTurn j db₂ := TurnsKept.keepsInTurn h₂.rely hdb₁
    split
    · intro db₃ h₃
      have h₁₃ : TurnsKept j db₁ db₃ := TurnsKept.trans h₂.rely h₃.rely
      have hkept : TurnsKept j db₃ ((Stmt.file (.fixFilesInNotUsedState j' (i + 1))).exec db₃).2 := by
        refine turnsKept_file (keepsTurn_of_ready h₃) fun hmulti hturn _ r hr hsel _ a ha hprec hst => ?_
        simp only [FileUpdate.selects, Bool.and_eq_true, decide_eq_true_eq] at hsel
        obtain rfl : j' = j := hsel.2.symm.trans (mem_filesOf.mp hr).2
        have hmulti₁ : db₁.isMultihop j' = true := h₁₃.isMultihop ▸ hmulti
        obtain ⟨x, hx, hxi⟩ := List.mem_filterMap.mp (List.max?_mem hmax)
        obtain ⟨hxj, hxfin⟩ := List.mem_filter.mp hx
        have hused : UsedUpTo j' i db₃ :=
          h₁₃.usedUpTo hmulti₁ ((hdb₁ hmulti₁).usedUpTo hxj (by simpa using hxfin) hxi)
        unfold FileRow.precedes at hprec
        rw [hsel.1] at hprec
        split at hprec
        · rename_i k m hk hm
          simp only [Option.some.injEq, decide_eq_true_eq] at hm hprec
          exact hused a ha ⟨k, by omega, hk⟩ hst
        · cases hprec
      exact ⟨trivial, hkept, 0, Nat.le_refl _, hkept.keepsInTurn (TurnsKept.keepsInTurn h₃.rely hdb₂)⟩
    · exact hdb₂

theorem multihopSanitySate_turns (node : Node) {db : Db} (hdb : InTurn j db) :
    (multihopSanitySate node).Within (turnContract j) (InTurn j) db := by
  unfold multihopSanitySate
  split
  · exact .ret hdb
  · simp only [fixFilesInNotUsedState, Proc.bind_eq, beginTx_bind, select_bind]
    intro db₁ h₁ db₂ h₂
    have hdb₂ : InTurn j db₂ := TurnsKept.keepsInTurn h₂.rely (TurnsKept.keepsInTurn h₁.rely hdb)
    refine (Op.Within.forM (fun j' _ _ h => fixStuckHop_turns j' h) hdb₂).bind ?_
    exact fun _ db₃ hdb₃ db₄ h₄ => TurnsKept.keepsInTurn h₄.rely hdb₃

/-- A hop that is under way when it is finished: when its state was read, it was in this state. The hops that are left
after that are those after it. -/
theorem minNotUsed_eq_zero_iff {db₂ db₃ db' : Db} (h₂ : TurnsKept j db₂ db₃) (h₃ : TurnsKept j db₃ db')
    (hmulti : db'.isMultihop j = true) (hturn₃ : HopsInTurn j db₃) {r r₂ : FileRow} (hr : r ∈ db'.filesOf j)
    (hr₂ : r₂ ∈ db₂.filesOf j) (hid₂ : r₂.fileId = r.fileId) (hst₂ : r₂.fileState = r.fileState)
    (hway : r.underWay = true) : minNotUsed j db₃ = 0 ↔ db'.isLastHop j r.fileId = true := by
  have hmulti₃ : db₃.isMultihop j = true := h₃.isMultihop ▸ hmulti
  have hmulti₂ : db₂.isMultihop j = true := h₂.isMultihop ▸ hmulti₃
  have hturn' : HopsInTurn j db' := h₃.inTurn hmulti₃ hturn₃
  simp only [Db.isLastHop, List.all_eq_true, Bool.or_eq_true, decide_eq_true_eq, Bool.not_eq_true']
  constructor
  · intro hmin x hx
    by_cases hxr : x.fileId = r.fileId
    · right
      intro b hb
      rw [eq_of_mem_filesOf hx hr hxr, ← Bool.not_eq_true]
      intro hprec
      have hb₀ := hturn'.unused r hr b hb hprec (.inl hway)
      obtain ⟨b₃, hb₃, -, -, hback⟩ := h₃.hop hb
      obtain ⟨x, hx, -, hxid⟩ := minNotUsed_mem_of_unused hb₃ (hback hmulti₃ hb₀)
      exact hturn₃.positive x hx (hxid.trans hmin)
    · exact .inl hxr
  · intro hlast
    by_contra hne
    obtain ⟨c, hc, hcst, -⟩ := minNotUsed_mem hne
    obtain ⟨r₃, hr₃, hid₃, hplace₃, -⟩ := h₃.hop hr
    -- the hop itself is not one of those that are left
    have hst₃ : r₃.fileState ≠ .notUsed := by
      intro hst
      obtain ⟨x, hx, hxid, -, hback⟩ := h₂.hop hr₃
      obtain rfl := eq_of_mem_filesOf hx hr₂ (hxid.trans (hid₃.trans hid₂.symm))
      have hnot := hback hmulti₂ hst
      rw [hst₂] at hnot
      simp [FileRow.underWay, FileState.live, hnot] at hway
    rcases Nat.lt_trichotomy c.fileId r₃.fileId with hlt | heq | hgt
    · exact hst₃ (hturn₃.unused c hc r₃ hr₃ (hturn₃.precedes c hc r₃ hr₃ hlt) (.inr hcst))
    · exact hst₃ (eq_of_mem_filesOf hc hr₃ heq ▸ hcst)
    · obtain ⟨c', hc', -, hplace', -⟩ := h₃.next hc
      have hprec := hturn₃.precedes r₃ hr₃ c hc hgt
      rw [← hplace₃.precedes hplace', ((hlast r hr).resolve_left fun h => h rfl) c' hc'] at hprec
      cases hprec

theorem afterFileUpdate_turns (node : Node) (j' : String) (f : Nat) (job : JobInfo) (st : FileState)
    (uuid : Option String) {db : Db} (hdb : InTurn j db) :
    (afterFileUpdate node j' f job st uuid).Within (turnContract j) (InTurn j) db := by
  unfold afterFileUpdate
  extract_lets jobAlive
  split
  · refine allows_plain.within ?_ hdb
    split
    · exact (issues_useFileReplica node j' f uuid fun _ => trivial).bind fun _ => issues_commit.mpr trivial
    · trivial
  · split
    · intro db₁ h₁
      refine (useNextHop_turns j' (TurnsKept.keepsInTurn h₁.rely hdb)).bind ?_
      exact fun _ db₂ hdb₂ db₃ h₃ => TurnsKept.keepsInTurn h₃.rely hdb₂
    · refine allows_plain.within ?_ hdb
      simp [setNullDestSURLMultiHop, Stmt.Plain, Stmt.Issued]
  · exact .ret hdb

theorem storeFileState_turns {node : Node} {a : TransferStatus} {j' : String} {f : Nat} {job : JobInfo}
    {stored : Option FileState} {uuid : Option String} {archiving : Bool} {db : Db} (hdb : InTurn j db)
    (hdecides : ∀ db', TurnsKept j db db' →
      DecidesArchiving j (.file (.updateFileTransferStatus (a.update node f job stored archiving))) db') :
    (storeFileState node a j' f job stored uuid archiving).Within (turnContract j) (InTurn j) db := by
  rw [storeFileState_eq]
  intro db₁ h₁
  have hkept : TurnsKept j db₁ ((Stmt.file (.updateFileTransferStatus (a.update node f job stored archiving))).exec
      db₁).2 := turnsKept_file (keepsTurn_of_ready h₁) fun _ _ huse => by cases huse
  have hdb₂ := hkept.keepsInTurn (TurnsKept.keepsInTurn h₁.rely hdb)
  refine ⟨hdecides db₁ h₁.rely, hkept, 0, Nat.le_refl _, ?_⟩
  dsimp only
  split
  · exact fun db₃ h₃ => TurnsKept.keepsInTurn h₃.rely hdb₂
  · intro db₃ h₃
    exact (afterFileUpdate_turns node j' f job _ uuid (TurnsKept.keepsInTurn h₃.rely hdb₂)).bind fun _ _ h => .ret h

/-- The rows of the job that the transfer reads are still there when it stores the new state. -/
theorem jobInfo_eq (node : Node) {db₁ db' : Db} (h : TurnsKept j db₁ db') {job : JobRow}
    (hjob : db'.jobs.find? j = some job) :
    (jobInfo node j db₁).jobType = job.type ∧ (jobInfo node j db₁).archiveTimeout = job.archiveTimeout.getD (-1) := by
  obtain ⟨job₁, hjob₁, htype, htimeout⟩ := h.job job hjob
  simp [jobInfo, hjob₁, htype, htimeout]

theorem update_archiving_iff {node : Node} {a : TransferStatus} (hfin : a.newFileState = .finished) {f : Nat}
    {job : JobInfo} {stored : Option FileState} {archiving : Bool} :
    (a.update node f job stored archiving).newState = .archiving ↔ archiving = true := by
  cases archiving with
  | false => simp [TransferStatus.update, hfin]
  | true => simp [TransferStatus.update]

/-- The next hop is looked up in `db₃`, after the state of the hop was read in `db₂`, and there is none exactly if the
hop that is then finished was the last one. -/
theorem nextHop_eq_zero_iff {db₂ db₃ db' : Db} (h₂ : TurnsKept j db₂ db₃) (h₃ : TurnsKept j db₃ db')
    (hdb₃ : InTurn j db₃) {job : JobRow} (hjob : db'.jobs.find? j = some job) {nextHop : Nat}
    (hother : job.type ≠ .multiHop → nextHop = 0) (hmultiHop : job.type = .multiHop → nextHop = minNotUsed j db₃)
    {r : FileRow} (hr : r ∈ db'.filesOf j) (hread : (db₂.files.find? r.fileId).map (·.fileState) = some r.fileState)
    (hway : db'.isMultihop j = true → r.underWay = true) :
    nextHop = 0 ↔ (job.type = .multiHop → db'.isLastHop j r.fileId = true) := by
  by_cases hmulti : job.type = .multiHop
  · have hmulti' : db'.isMultihop j = true := by simp [Db.isMultihop, hjob, hmulti]
    obtain ⟨r₂, hr₂, hid₂, -⟩ := (h₂.trans h₃).hop hr
    have hst₂ : r₂.fileState = r.fileState := by
      rw [← hid₂, (mem_filesOf.mp hr₂).1] at hread
      exact Option.some.inj hread
    rw [hmultiHop hmulti, minNotUsed_eq_zero_iff h₂ h₃ hmulti' (hdb₃ (h₃.isMultihop ▸ hmulti')) hr hr₂ hid₂ hst₂
      (hway hmulti')]
    simp [hmulti]
  · simp [hmulti, hother hmulti]

theorem finish_turns {node : Node} {a : TransferStatus} (hfin : a.newFileState = .finished) {j' : String} {f : Nat}
    {db : Db} (hdb : InTurn j db) (hfile : FileOf j' f db) :
    (updateFileState node a j' f).Within (turnContract j) (InTurn j) db := by
  simp only [updateFileState, hfin, if_true, Proc.bind_eq, select_bind, Op.Within, Proc.honors_select]
  intro db₁ h₁ db₂ h₂
  have hdb₂ : InTurn j db₂ := TurnsKept.keepsInTurn h₂.rely (TurnsKept.keepsInTurn h₁.rely hdb)
  have h₁₂ : TurnsKept j db₁ db₂ := h₂.rely
  have hfile₂ : FileOf j' f db₂ := h₁₂.fileOf (TurnsKept.fileOf h₁.rely hfile)
  split
  · exact fun db₃ h₃ => TurnsKept.keepsInTurn h₃.rely hdb₂
  · rename_i href
    rw [Bool.not_eq_true] at href
    -- what is decided, if the hops that were left when it was asked are those after this one
    have hstore : ∀ nextHop db₃, TurnsKept j db₂ db₃ → InTurn j db₃ →
        ((jobInfo node j' db₁).jobType ≠ .multiHop → nextHop = 0) →
        ((jobInfo node j' db₁).jobType = .multiHop → nextHop = minNotUsed j' db₃) →
        Op.Within (turnContract j) (InTurn j) (storeFileState node a j' f (jobInfo node j' db₁)
          (((db₂.files.find? f).map fun r => (r.fileState, r.destSurlUuid)).map (·.1))
          (((db₂.files.find? f).map fun r => (r.fileState, r.destSurlUuid)).bind (·.2))
          (nextHop = 0 && -1 < (jobInfo node j' db₁).archiveTimeout)) db₃ := by
      intro nextHop db₃ h₃ hdb₃ hother hmultiHop
      refine storeFileState_turns hdb₃ fun db' h' _ r hr hrid hold hused job hjob => ?_
      change r.fileId = f at hrid
      obtain rfl : r.jobId = j' := (h₃.trans h').fileOf hfile₂ r (hrid ▸ (mem_filesOf.mp hr).1)
      obtain rfl : j = r.jobId := (mem_filesOf.mp hr).2.symm
      obtain ⟨htype, htimeout⟩ := jobInfo_eq node ((h₁₂.trans h₃).trans h') hjob
      rw [htype] at hother hmultiHop
      have hread : (db₂.files.find? r.fileId).map (·.fileState) = some r.fileState := by
        rw [hrid, hold]
        simp [TransferStatus.update, Function.comp_def]
      have hway : db'.isMultihop r.jobId = true → r.underWay = true := fun hmulti' => by
        simp [FileRow.underWay, FileState.live, hused hmulti', not_refused_terminal href hold]
      rw [update_archiving_iff hfin, ← nextHop_eq_zero_iff h₃ h' hdb₃ hjob hother hmultiHop hr hread hway, ← htimeout,
        Bool.and_eq_true, decide_eq_true_eq, decide_eq_true_eq, and_comm]
    simp only [isArchivingTransfer, getNextHop, Proc.bind_eq]
    by_cases hmulti : (jobInfo node j' db₁).jobType = .multiHop
    · simp only [hmulti, if_true, select_bind]
      intro db₃ h₃
      exact hstore _ db₃ h₃.rely (TurnsKept.keepsInTurn h₃.rely hdb₂) (fun hne => absurd hmulti hne) fun _ => rfl
    · simp only [if_neg hmulti]
      exact hstore 0 db₂ (.refl j db₂) hdb₂ (fun _ => rfl) fun h => absurd h hmulti

theorem updateTransferStatus_turns (node : Node) {a : TransferStatus} {db : Db} (hdb : InTurn j db)
    (hown : FileOf a.jobId a.fileId db) :
    (updateFileTransferStatusInternal node a).Within (turnContract j) (InTurn j) db := by
  by_cases hfin : a.newFileState = .finished
  · refine updateFileTransferStatusInternal_honors (T := FileOf) (Ψ := fun _ db => InTurn j db) allows_plain.stable
      (fun _ _ _ _ h hfile => TurnsKept.fileOf h hfile) (fun db r _ hr _ x hx => ?_)
      (fun j' f db hdb hfile => finish_turns hfin hdb hfile) hdb hown
    have hfind := Table.find?_key hr
    rw [hfind] at hx
    rw [Option.some.inj hx]
  · exact allows_plain.within (updateFileTransferStatusInternal_plain node hfin) hdb

/-- The job that a status names is that of its file. -/
def Call.OwnFile (c : Call) (db : Db) : Prop :=
  match c with
  | .updateTransferStatus _ a => FileOf a.jobId a.fileId db
  | _ => True

theorem Call.within_turns {c : Call} {db : Db} (hdb : InTurn j db) (hown : c.OwnFile db) :
    c.prog.Within (turnContract j) (InTurn j) db := by
  cases hadv : c.advances with
  | false => exact allows_plain.within (prog_plain hadv) hdb
  | true =>
      cases c with
      | updateTransferStatus node a => exact (updateTransferStatus_turns node hdb hown).bind fun _ _ h => .ret h
      | updateStagingState node ops =>
          refine (updateStagingStateInternal_within allows_plain (fun _ _ _ _ _ _ h => useNextHop_turns _ h)
            (fun _ _ => trivial) (fun _ _ _ _ => trivial) (fun _ => trivial) (fun _ _ => trivial)
            (fun _ _ _ => trivial) (fun _ _ _ => updateJobTransferStatusInternal_plain node _ _) hdb).bind ?_
          exact fun _ _ h => .ret h
      | multihopSanitySate node => exact (multihopSanitySate_turns node hdb).bind fun _ _ h => .ret h
      | _ => cases hadv

end contract

/-! ## The hops as they are submitted -/

theorem MultihopJob.Submitted.inTurn {j : String} {db : Db} (h : MultihopJob.Submitted j db)
    (hpositive : ∀ r ∈ db.filesOf j, r.fileId ≠ 0) : HopsInTurn j db where
  positive := hpositive
  precedes := h.precedes
  unused a ha b hb hprec _ := by
    obtain ⟨first, hfirst, -, hrest⟩ := h.first
    have hlt := lt_of_precedes h.precedes ha hb hprec
    refine (hrest b hb fun hid => ?_).2
    by_cases hfa : a.fileId = first.fileId
    · omega
    · have := (hrest a ha hfa).1
      omega

end Fts3.MySql
