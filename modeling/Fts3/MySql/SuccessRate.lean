import Fts3.MySql.Optimizer
import Fts3.MySql.Terminal

/-!
# Retried failures and the success rate

A transfer that fails and is to be tried again waits in `SUBMITTED`, with its retry number. `getSuccessRateForPair` counts
such a file as a failure, among the files whose `finish_time` is recent.
-/

namespace Fts3.MySql

open Fts3.Sql

/-! ## The tally -/

namespace Tally

/-- One more failure, of a file that is tried again for the `n`-th time. -/
def addRetried (m : Tally) (n : Int) : Tally :=
  { m with nFailedLastHour := m.nFailedLastHour + 1, retryCount := m.retryCount + n }

theorem addRetried_ne (m : Tally) (n : Int) : m ≠ m.addRetried n := by
  intro h
  have hfailed := congrArg nFailedLastHour h
  simp [addRetried] at hfailed

theorem count_comm (m : Tally) (r r' : FileRow) : (m.count r).count r' = (m.count r').count r := by
  simp only [count]
  split <;> split <;> grind

theorem foldl_count (m : Tally) (r : FileRow) (rows : List FileRow) :
    rows.foldl count (m.count r) = (rows.foldl count m).count r := by
  induction rows generalizing m with
  | nil => rfl
  | cons r' rows ih =>
      simp only [List.foldl_cons]
      rw [count_comm, ih]

theorem count_waiting {r : FileRow} {n : Int} (hstate : r.fileState = .submitted) (hretry : r.retry = some n)
    (m : Tally) : m.count r = if n ≠ 0 then m.addRetried n else m := by
  simp [count, hstate, hretry, addRetried]

end Tally

variable {pair : Pair} {interval : Int} {f : Nat} {n : Int} {db : Db} {r : FileRow}

/-- The database without the file. -/
def Db.without (f : Nat) (db : Db) : Db :=
  { db with files := db.files.delete fun r => r.fileId = f }

/-- The file makes the difference of one failure and `n` retries in what `getSuccessRateForPair` counts. -/
def Counted (pair : Pair) (interval : Int) (f : Nat) (n : Int) (db : Db) : Prop :=
  db.tally pair interval = ((db.without f).tally pair interval).addRetried n

instance : Decidable (Counted pair interval f n db) :=
  inferInstanceAs (Decidable (_ = _))

/-- The optimizer looks at the row. -/
def FileRow.recentOf (pair : Pair) (interval : Int) (now : Nat) (r : FileRow) : Bool :=
  r.sourceSe = pair.source && r.destSe = pair.destination && r.finishedWithin interval now && r.fileState ≠ .notUsed

theorem tally_eq (hr : db.files.find? f = some r) : db.tally pair interval =
    if r.recentOf pair interval db.now then ((db.without f).tally pair interval).count r
    else (db.without f).tally pair interval := by
  obtain ⟨before, after, hrows, hrest⟩ := Table.rows_of_find? hr
  have htally : ∀ db : Db, db.tally pair interval =
      (db.files.rows.filter (·.recentOf pair interval db.now)).foldl Tally.count {} := fun _ => rfl
  rw [htally, htally, hrows, show (db.without f).files.rows = before ++ after from hrest,
    show (db.without f).now = db.now from rfl]
  simp only [List.filter_append, List.filter_cons]
  cases r.recentOf pair interval db.now with
  | true =>
      simp only [if_true, List.foldl_append, List.foldl_cons]
      rw [Tally.foldl_count]
  | false => simp

theorem counted_iff (hr : db.files.find? f = some r) (hstate : r.fileState = .submitted) (hretry : r.retry = some n)
    (hsource : r.sourceSe = pair.source) (hdest : r.destSe = pair.destination) :
    Counted pair interval f n db ↔ n ≠ 0 ∧ r.finishedWithin interval db.now = true := by
  have hrecent : r.recentOf pair interval db.now = r.finishedWithin interval db.now := by
    simp [FileRow.recentOf, hsource, hdest, hstate]
  rw [Counted, tally_eq hr, hrecent, Tally.count_waiting hstate hretry]
  by_cases hwithin : r.finishedWithin interval db.now = true
  · by_cases hn : n = 0
    · simp [hwithin, hn, Tally.addRetried_ne]
    · simp [hwithin, hn]
  · simp [hwithin, Tally.addRetried_ne]

/-! ## The rate -/

/-- Every file of the pair has failed and waits for its retry. -/
def AllRetried (pair : Pair) (db : Db) : Prop :=
  ∀ r ∈ db.files.rows, r.sourceSe = pair.source → r.destSe = pair.destination →
    r.fileState = .submitted ∧ r.retry.getD 0 ≠ 0

instance : Decidable (AllRetried pair db) :=
  inferInstanceAs (Decidable (∀ r ∈ db.files.rows, _))

theorem foldl_count_waiting {rows : List FileRow} (h : ∀ r ∈ rows, r.fileState = .submitted ∧ r.retry.getD 0 ≠ 0)
    (m : Tally) : (rows.foldl Tally.count m).nFinishedLastHour = m.nFinishedLastHour ∧
      (rows.foldl Tally.count m).nFailedLastHour = m.nFailedLastHour + rows.length := by
  induction rows generalizing m with
  | nil => exact ⟨rfl, rfl⟩
  | cons r rows ih =>
      obtain ⟨hstate, hretry⟩ := h r (by simp)
      obtain ⟨hfinished, hfailed⟩ := ih (fun r' hr' => h r' (by simp [hr'])) (m.count r)
      have hcount : m.count r = m.addRetried (r.retry.getD 0) := by
        simp [Tally.count, Tally.addRetried, hstate, hretry]
      rw [List.foldl_cons, hfinished, hfailed, hcount]
      simp only [Tally.addRetried, List.length_cons]
      exact ⟨trivial, by omega⟩

/-- Where every file waits for its retry, the rate is that of no files unless one of them has a recent `finish_time`. -/
theorem successRate_ne_iff (h : AllRetried pair db) : ((getSuccessRateForPair pair interval).answer Stmt.exec db).1 ≠ 100 ↔
    ∃ r ∈ db.files.rows, r.sourceSe = pair.source ∧ r.destSe = pair.destination ∧
      r.finishedWithin interval db.now = true := by
  have hmem : ∀ r, r ∈ db.recentOfPair pair interval ↔ r ∈ db.files.rows ∧ r.sourceSe = pair.source ∧
      r.destSe = pair.destination ∧ r.finishedWithin interval db.now = true := by
    intro r
    simp only [Db.recentOfPair, Table.select, List.mem_filter, Bool.and_eq_true, decide_eq_true_eq, ne_eq,
      decide_not, Bool.not_eq_true', decide_eq_false_iff_not]
    constructor
    · rintro ⟨hr, ⟨⟨hsource, hdest⟩, hwithin⟩, -⟩
      exact ⟨hr, hsource, hdest, hwithin⟩
    · rintro ⟨hr, hsource, hdest, hwithin⟩
      refine ⟨hr, ⟨⟨hsource, hdest⟩, hwithin⟩, ?_⟩
      rw [(h r hr hsource hdest).1]
      exact FileState.noConfusion
  have hwaiting : ∀ r ∈ db.recentOfPair pair interval, r.fileState = .submitted ∧ r.retry.getD 0 ≠ 0 := by
    intro r hr
    obtain ⟨hrow, hsource, hdest, -⟩ := (hmem r).mp hr
    exact h r hrow hsource hdest
  obtain ⟨hfinished, hfailed⟩ := foldl_count_waiting hwaiting {}
  have hrate : ((getSuccessRateForPair pair interval).answer Stmt.exec db).1 =
      ((db.recentOfPair pair interval).foldl Tally.count {}).successRate := rfl
  rw [hrate, Tally.successRate, Tally.nTotal, hfinished, hfailed]
  simp only [← hmem]
  cases hrows : db.recentOfPair pair interval with
  | nil => simp
  | cons r rows =>
      have hnone : rows.length / (rows.length + 1) = 0 := Nat.div_eq_of_lt (Nat.lt_succ_self _)
      simp [hnone]

/-! ## Waiting files -/

/-- The calls that report on transfers, and the passing of time. -/
def Call.reports : Call → Bool
  | updateTransferStatus _ _ | updateJobStatus _ _ _ | updateFileStatusReuse _ _ _ | terminateReuseProcess _ _ _ _
  | setPidForJob _ _ | forkFailed _ _ | setRetryTransfer _ _ _ _ _ _ _ | updateFileTransferProgressVector _
  | updateProtocol _ | transferLogFileVector _ | tick _ => true
  | _ => false

/-- The statement writes the `finish_time` of a file only with a state. -/
def Stmt.StampsWithState : Stmt → Prop
  | .file (.updateFileTransferStatus a) => a.Issued
  | .file (.getCancelJob _) | .file (.getStagingFilesForCanceling _)
  | .file (.updateFileStateToQosTerminal _ _ _ _ _ _) => False
  | _ => True

theorem issues_storeLogFiles (messages : List MessageLog) : (storeLogFiles messages).Issues Stmt.StampsWithState := by
  induction messages with
  | nil => trivial
  | cons m messages ih => exact ⟨trivial, fun _ => ih.bind fun _ => trivial⟩

theorem issues_of_reports {c : Call} (hc : c.reports = true) : c.prog.Issues Stmt.StampsWithState := by
  cases c with
  | updateTransferStatus node a =>
      exact Proc.Issues.bind (issues_updateFileTransferStatusInternal (fun _ _ _ => trivial) (fun _ _ => trivial)
        (fun _ => trivial) fun _ hu _ _ => hu) fun _ => trivial
  | updateJobStatus node j st =>
      exact Proc.Issues.bind (issues_updateJobTransferStatusInternal (fun _ _ _ _ => trivial) trivial (fun _ => trivial)
        trivial trivial node st) fun _ => trivial
  | updateFileStatusReuse node j st =>
      refine Proc.Issues.bind ?_ fun _ => trivial
      simp only [MySql.updateFileStatusReuse, Proc.bind_eq, beginTx_bind, updateFile_bind, Proc.issues_tx, Proc.issues_update]
      refine ⟨trivial, fun n => ?_⟩
      split <;> simp [Stmt.StampsWithState]
  | terminateReuseProcess j pid message force =>
      have hfail : (failFiles j message).Issues Stmt.StampsWithState := by
        refine fun db => (Proc.issues_forM _ _ fun f _ => ?_).bind fun _ => issues_commit.mpr trivial
        simp [Stmt.StampsWithState]
      refine Proc.Issues.bind ?_ fun _ => trivial
      simp [MySql.terminateReuseProcess, hfail]
  | setPidForJob j pid => exact ⟨trivial, fun _ => trivial⟩
  | forkFailed node j => exact ⟨trivial, fun _ => ⟨trivial, fun _ => trivial⟩⟩
  | setRetryTransfer node j f n reason log timedOut =>
      simp [Call.prog, MySql.setRetryTransfer, Stmt.StampsWithState, Proc.ite_bind]
  | updateFileTransferProgressVector messages =>
      refine Proc.Issues.bind ((Proc.issues_forM messages _ fun m _ => ?_).bind fun _ => trivial) fun _ => trivial
      simp [Stmt.StampsWithState]
  | updateProtocol messages =>
      refine Proc.Issues.bind ((Proc.issues_forM messages _ fun m _ => ?_).bind fun _ => trivial) fun _ => trivial
      simp [Stmt.StampsWithState]
  | transferLogFileVector messages =>
      exact Proc.Issues.bind ((issues_storeLogFiles messages).bind fun _ => trivial) fun _ => trivial
  | tick d => simp [Call.prog, Stmt.StampsWithState]
  | _ => cases hc

/-- What the optimizer reads of a waiting file. -/
structure SameWait (r r' : FileRow) : Prop where
  fileState : r'.fileState = .submitted
  finishTime : r'.finishTime = r.finishTime
  retry : r'.retry = r.retry
  sourceSe : r'.sourceSe = r.sourceSe
  destSe : r'.destSe = r.destSe

theorem SameWait.trans {r₁ r₂ r₃ : FileRow} (h₁ : SameWait r₁ r₂) (h₂ : SameWait r₂ r₃) : SameWait r₁ r₃ where
  fileState := h₂.fileState
  finishTime := h₂.finishTime.trans h₁.finishTime
  retry := h₂.retry.trans h₁.retry
  sourceSe := h₂.sourceSe.trans h₁.sourceSe
  destSe := h₂.destSe.trans h₁.destSe

/-- A file that waits before and after a statement has waited for the same retry. -/
theorem FileUpdate.sets_sameWait {u : FileUpdate} (hu : (Stmt.file u).StampsWithState) (hsel : u.selects r = true)
    (hr : r.fileState = .submitted) {now : Nat} (hr' : (u.sets now r).fileState = .submitted) :
    SameWait r (u.sets now r) := by
  cases u with
  | updateFileTransferStatus a =>
      -- a compare-and-set from `SUBMITTED` to `SUBMITTED` is refused
      simp only [FileUpdate.selects, hr, Bool.and_eq_true, decide_eq_true_eq] at hsel
      have hnew : a.newState = .submitted := hr'
      obtain ⟨hrefused, hstored | ⟨-, harchiving⟩⟩ := hu
      · rw [← hsel.2, ← hstored, hnew] at hrefused
        simp [refused] at hrefused
      · rw [hnew] at harchiving
        cases harchiving
  | getCancelJob f => cases hu
  | getStagingFilesForCanceling f => cases hu
  | updateFileStateToQosTerminal f st s t d h => cases hu
  | _ =>
      first
      | exact ⟨hr', rfl, rfl, rfl, rfl⟩
      | exact FileState.noConfusion hr'
      | simp [FileUpdate.selects, hr] at hsel

theorem exec_sameWait {s : Stmt} (hs : s.StampsWithState) {r' : FileRow} (hr : db.files.find? f = some r)
    (hwait : r.fileState = .submitted) (hr' : (s.exec db).2.files.find? f = some r')
    (hwait' : r'.fileState = .submitted) : SameWait r r' := by
  cases s with
  | file u =>
      rw [exec_file_find?, hr, Option.map_some, Option.some.injEq] at hr'
      subst hr'
      split at hwait'
      · rename_i hsel
        rw [if_pos hsel]
        exact FileUpdate.sets_sameWait hs hsel hwait hwait'
      · rename_i hsel
        rw [if_neg hsel]
        exact ⟨hwait, rfl, rfl, rfl, rfl⟩
  | deleteFiles ids =>
      rw [show ((Stmt.deleteFiles ids).exec db).2.files = db.files.delete fun r => r.jobId ∈ ids from rfl,
        Table.find?_delete, hr] at hr'
      obtain rfl := Option.some.inj (Option.filter_eq_some_iff.mp hr').1
      exact ⟨hwait, rfl, rfl, rfl, rfl⟩
  | _ =>
      obtain rfl := Option.some.inj (hr.symm.trans hr')
      exact ⟨hwait, rfl, rfl, rfl, rfl⟩

theorem step_sameWait {P P' : System} {i : Nat} {e : Step} (hP : P.Issues Stmt.StampsWithState)
    (hs : P.step Stmt.exec i = some (e, P')) {r' : FileRow} (hr : P.store.files.find? f = some r)
    (hwait : r.fileState = .submitted) (hr' : P'.store.files.find? f = some r')
    (hwait' : r'.fileState = .submitted) : SameWait r r' := by
  obtain ⟨hpre, hpost⟩ := Pool.step_store hs
  have hexec := Pool.step_act hs
  rw [← hpre] at hr
  rw [← hpost] at hr'
  cases hact : e.act with
  | update s =>
      rw [Event.Executes, hact] at hexec
      rw [hexec.2] at hr'
      exact exec_sameWait ((hP.step hs).2 s hact) hr hwait hr' hwait'
  | select q =>
      rw [Event.Executes, hact] at hexec
      rw [hexec, hr] at hr'
      cases hr'
      exact ⟨hwait, rfl, rfl, rfl, rfl⟩
  | tx t =>
      rw [Event.Executes, hact] at hexec
      rw [hexec, hr] at hr'
      cases hr'
      exact ⟨hwait, rfl, rfl, rfl, rfl⟩

/-- The file is still waiting for the same retry after a run in which it has not stopped to wait. -/
theorem run_sameWait {P : System} (hP : P.Issues Stmt.StampsWithState) (schedule : List Nat)
    (hr : P.store.files.find? f = some r)
    (hwait : ∀ k, (P.run Stmt.exec (schedule.take k)).store.fileState? f = some .submitted) :
    ∃ r', (P.run Stmt.exec schedule).store.files.find? f = some r' ∧ SameWait r r' := by
  have hsubmitted : r.fileState = .submitted := by
    obtain ⟨r₀, hr₀, hstate⟩ := fileState?_eq_some (hwait 0)
    obtain rfl := Option.some.inj (hr₀.symm.trans hr)
    exact hstate
  induction schedule generalizing P r with
  | nil => exact ⟨r, hr, hsubmitted, rfl, rfl, rfl, rfl⟩
  | cons i schedule ih =>
      have hrest := fun k => hwait (k + 1)
      simp only [List.take_succ_cons, Pool.run] at hrest
      simp only [Pool.run]
      cases hs : P.step Stmt.exec i with
      | none =>
          simp only [hs] at hrest
          exact ih hP hr hrest hsubmitted
      | some next =>
          obtain ⟨e, P'⟩ := next
          simp only [hs] at hrest
          obtain ⟨r₁, hr₁, hstate⟩ := fileState?_eq_some (hrest 0)
          obtain ⟨r', hr', hsame⟩ := ih (hP.step hs).1 hr₁ hrest hstate
          exact ⟨r', hr', (step_sameWait hP hs hr hsubmitted hr₁ hstate).trans hsame⟩

/-! ## The law -/

/-- A failure that is to be retried is counted while the file waits exactly when the row already had a `finish_time` that is
recent, for the retry does not set it. Where every file waits for its retry, the rate is below 100 only because of such
rows. -/
theorem retried_failure_counted (db : Db) (calls : List Call) (hcalls : ∀ c ∈ calls, c.reports = true)
    (before : List Nat) (i : Nat) (e : Step) (P : System)
    (hstep : (System.after db calls before).step Stmt.exec i = some (e, P)) (f : Nat) (j : String) (n : Int) (t : Nat)
    (hact : e.act = .update (.file (.setRetryTransfer f j n t))) (r : FileRow) (hr : e.pre.files.find? f = some r)
    (hsel : (FileUpdate.setRetryTransfer f j n t).selects r = true) (after : List Nat)
    (hwait : ∀ k, (P.run Stmt.exec (after.take k)).store.fileState? f = some .submitted) (interval : Int) :
    let pair : Pair := ⟨r.sourceSe, r.destSe⟩
    let db' := (P.run Stmt.exec after).store
    (Counted pair interval f n db' ↔ n ≠ 0 ∧ r.finishedWithin interval db'.now = true) ∧
    (AllRetried pair db' → (((getSuccessRateForPair pair interval).answer Stmt.exec db').1 ≠ 100 ↔
      ∃ r' ∈ db'.files.rows, r'.sourceSe = pair.source ∧ r'.destSe = pair.destination ∧
        r'.finishedWithin interval db'.now = true)) := by
  have hinit : (System.init db calls).Issues Stmt.StampsWithState := by
    refine Pool.issues_start fun p hp => ?_
    obtain ⟨c, hc, rfl⟩ := List.mem_map.mp hp
    exact issues_of_reports (hcalls c hc)
  have hissues : (System.after db calls before).Issues Stmt.StampsWithState :=
    Pool.run_invariant (C := fun _ => True) (I := Pool.Issues Stmt.StampsWithState) (fun hs _ hI => (hI.step hs).1)
      before (fun _ _ => trivial) hinit
  -- the row after the statement: the retry number is set, the `finish_time` is not
  have hretried : P.store.files.find? f = some ((FileUpdate.setRetryTransfer f j n t).sets e.pre.now r) := by
    have hexec := Pool.step_act hstep
    rw [Event.Executes, hact] at hexec
    rw [← (Pool.step_store hstep).2, hexec.2, exec_file_find?, hr, Option.map_some, if_pos hsel]
  obtain ⟨r', hr', hsame⟩ := run_sameWait (hissues.step hstep).1 after hretried hwait
  intro pair db'
  refine ⟨?_, successRate_ne_iff⟩
  rw [counted_iff hr' hsame.fileState hsame.retry hsame.sourceSe hsame.destSe, FileRow.finishedWithin, hsame.finishTime]
  rfl

/-- One transfer of the pair, in the state and with the `finish_time` given. -/
def onePairDb (state : FileState) (finishTime : Option Nat) : Db where
  files := .ofRows [{ fileId := 1, jobId := "j", fileState := state, sourceSe := "a", destSe := "b", finishTime }]
  jobs := .ofRows [{ jobId := "j", jobState := .active, jobType := some .regular, retry := some 3 }]
  now := 1000

def recoverableFailure : Call := .setRetryTransfer { hostname := "h" } "j" 1 1 "timeout" "" false

/-- The transfer had finished and was being archived. -/
theorem retried_failure_counted_archiving : Counted ⟨"a", "b"⟩ 3600 1 1
    (System.after (onePairDb .archiving (some 900)) [recoverableFailure] [0, 0, 0, 0]).store := by
  refine (retried_failure_counted (onePairDb .archiving (some 900)) [recoverableFailure] (by decide) [0, 0, 0] 0 _ _ rfl
    1 "j" 1 1120 rfl _ rfl (by decide) [] (fun k => ?_) 3600).1.mpr (by decide)
  rw [List.take_nil]
  rfl

/-- A transfer fails and is to be retried: the optimizer sees no failure. -/
theorem retried_failure_lost :
    let db' := (System.after (onePairDb .active none) [recoverableFailure] [0, 0, 0, 0, 0, 0]).store
    db'.fileState? 1 = some .submitted ∧ (db'.files.find? 1).bind (·.retry) = some 1 ∧ AllRetried ⟨"a", "b"⟩ db' ∧
    ¬Counted ⟨"a", "b"⟩ 3600 1 1 db' ∧ (getSuccessRateForPair ⟨"a", "b"⟩ 3600).answer Stmt.exec db' = (100, 0) := by
  decide

end Fts3.MySql
