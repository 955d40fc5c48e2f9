import Fts3.Sql.Poll
import Fts3.MySql.Terminal

/-!
# Cancelled operations

A user cancels a file by its `file_state` alone. Each server polls for the cancelled files on its host: `getCancelJob` for
the transfers whose process it has to kill, `getStagingFilesForCanceling` for the staging requests that it has to abort. The
two tell a transfer from a staging request by the timestamps of the row.
-/

namespace Fts3.MySql

open Fts3.Sql

/-! ## The polls -/

inductive CancelPoll where
  | transfers
  | staging
  deriving DecidableEq, Repr

namespace CancelPoll

/-- The `WHERE` clause on the host. -/
def due (hostname : String) : CancelPoll → FileRow → Bool
  | transfers, r =>
      r.fileState = .canceled && r.finishTime.isNone && r.transferHost = some hostname && r.stagingStart.isNone
  | staging, r =>
      r.fileState = .canceled && r.stagingFinished.isNone && r.transferHost = some hostname && r.stagingStart.isSome

def mark : CancelPoll → Nat → FileUpdate
  | transfers, f => .getCancelJob f
  | staging, f => .getStagingFilesForCanceling f

def poll (c : CancelPoll) (hostname : String) : Poll Db Sel Stmt FileRow where
  query := .rows
  read db := db.files.select (c.due hostname)
  mark r := .file (c.mark r.fileId)

end CancelPoll

/-- What `getCancelJob` returns for the rows that it finds. -/
def requestIDs (rows : List FileRow) : List Int :=
  (rows.map fun r => r.pid.getD 0).filter fun pid => 0 < pid

/-- What `getStagingFilesForCanceling` returns for the rows that it finds. -/
def canceledSurls (rows : List FileRow) : List (String × String) :=
  rows.map fun r => (r.jobId, r.sourceSurl.getD "")

theorem getCancelJob_eq (node : Node) : getCancelJob node =
    (CancelPoll.transfers.poll node.hostname).round.bind fun rows => .ret (requestIDs rows) := by
  simp only [Poll.round, Proc.select_bind, Proc.tx_bind, Proc.bind_assoc, Proc.ret_bind]
  rfl

theorem getStagingFilesForCanceling_eq (node : Node) : getStagingFilesForCanceling node =
    (CancelPoll.staging.poll node.hostname).round.bind fun rows => .ret (canceledSurls rows) := by
  simp only [Poll.round, Proc.select_bind, Proc.tx_bind, Proc.bind_assoc, Proc.ret_bind]
  rfl

/-! ## What the others leave alone -/

/-- The `UPDATE` writes a column that the polls return or ask for, whatever the state of the file is. -/
def FileUpdate.blind : FileUpdate → Bool
  | setPidForJob _ _ | getCancelJob _ | getStagingFilesForCanceling _ | recoverStalledStaging _ => true
  | u => u.unguarded

/-- The step is no such `UPDATE` of the file, and does not delete it. -/
def Step.sparesFile (f : Nat) (e : Step) : Bool :=
  (e.pre.files.find? f).all fun r =>
    match e.act with
    | .update (.file u) => !(u.blind && u.selects r)
    | .update (.deleteFiles ids) => r.jobId ∉ ids
    | _ => true

/-- The columns of a cancelled file that the polls return or ask for are those of `r₀`. -/
structure SameCanceled (r₀ r : FileRow) : Prop where
  fileState : r.fileState = .canceled
  jobId : r.jobId = r₀.jobId
  sourceSurl : r.sourceSurl = r₀.sourceSurl
  pid : r.pid = r₀.pid
  transferHost : r.transferHost = r₀.transferHost
  finishTime : r.finishTime = r₀.finishTime
  stagingStart : r.stagingStart = r₀.stagingStart
  stagingFinished : r.stagingFinished = r₀.stagingFinished

variable {c : CancelPoll} {hostname : String} {f : Nat} {r r₀ : FileRow} {db : Db}

theorem FileUpdate.sets_sameCanceled {u : FileUpdate} (hi : Stmt.Issued (.file u)) (hu : u.blind = false)
    (hsel : u.selects r = true) (hr : r.fileState = .canceled) (now : Nat) : SameCanceled r (u.sets now r) := by
  cases hw : u.writes? with
  | some st =>
      have hguarded : u.unguarded = false := by
        cases u <;> first | exact hu | cases hu
      have hlive := u.selects_not_terminal hi hw hguarded hsel
      rw [hr] at hlive
      cases hlive
  | none =>
      cases u with
      | _ =>
          first
            | (cases hw; done)
            | (cases hu; done)
            | exact ⟨hr, rfl, rfl, rfl, rfl, rfl, rfl, rfl⟩

theorem Step.sparesFile_row {e : Step} (he : e.Executes Stmt.exec) (hi : ∀ u, e.act = .update u → u.Issued)
    (h : e.sparesFile f = true) (hr : e.pre.files.find? f = some r) (hstate : r.fileState = .canceled) :
    ∃ r', e.post.files.find? f = some r' ∧ SameCanceled r r' := by
  have hself : SameCanceled r r := ⟨hstate, rfl, rfl, rfl, rfl, rfl, rfl, rfl⟩
  rw [sparesFile, hr, Option.all_some] at h
  cases hact : e.act with
  | update s =>
      rw [Event.Executes, hact] at he
      rw [hact] at h
      rw [he.2]
      cases s with
      | file u =>
          rw [exec_file_find?, hr, Option.map_some]
          split
          · rename_i hsel
            simp only [hsel, Bool.and_true, Bool.not_eq_true'] at h
            exact ⟨_, rfl, FileUpdate.sets_sameCanceled (hi _ hact) h hsel hstate e.pre.now⟩
          · exact ⟨r, rfl, hself⟩
      | deleteFiles ids =>
          refine ⟨r, ?_, hself⟩
          rw [show ((Stmt.deleteFiles ids).exec e.pre).2.files = e.pre.files.delete fun r => r.jobId ∈ ids from rfl,
            Table.find?_delete, hr]
          simpa [Option.filter] using h
      | _ => exact ⟨r, hr, hself⟩
  | select q =>
      rw [Event.Executes, hact] at he
      rw [he]
      exact ⟨r, hr, hself⟩
  | tx t =>
      rw [Event.Executes, hact] at he
      rw [he]
      exact ⟨r, hr, hself⟩

/-! ## The phases of a cancelled file -/

/-- The file is cancelled and due, or not: what the poll returns of it is as in `r₀`. -/
def CancelPoll.phase (c : CancelPoll) (hostname : String) (f : Nat) (r₀ : FileRow) (isDue : Bool) (db : Db) : Prop :=
  ∃ r, db.files.find? f = some r ∧ r.fileState = .canceled ∧ c.due hostname r = isDue ∧ r.jobId = r₀.jobId ∧
    r.sourceSurl = r₀.sourceSurl ∧ r.pid = r₀.pid

theorem SameCanceled.due (h : SameCanceled r₀ r) (hr₀ : r₀.fileState = .canceled) : c.due hostname r = c.due hostname r₀ := by
  cases c <;>
    simp only [CancelPoll.due, h.fileState, h.finishTime, h.transferHost, h.stagingStart, h.stagingFinished, hr₀]

theorem Step.sparesFile_phase {e : Step} (he : e.Executes Stmt.exec) (hi : ∀ u, e.act = .update u → u.Issued)
    (h : e.sparesFile f = true) {isDue : Bool} (hpre : c.phase hostname f r₀ isDue e.pre) :
    c.phase hostname f r₀ isDue e.post := by
  obtain ⟨r, hr, hstate, hdue, hjob, hsurl, hpid⟩ := hpre
  obtain ⟨r', hr', hsame⟩ := e.sparesFile_row he hi h hr hstate
  exact ⟨r', hr', hsame.fileState, (hsame.due hstate).trans hdue, hsame.jobId.trans hjob, hsame.sourceSurl.trans hsurl,
    hsame.pid.trans hpid⟩

/-- What the poll returns of the file. -/
def SameFile (r₀ r : FileRow) : Prop := r.jobId = r₀.jobId ∧ r.sourceSurl = r₀.sourceSurl ∧ r.pid = r₀.pid

theorem CancelPoll.watches (c : CancelPoll) (hostname : String) (f : Nat) (r₀ : FileRow) :
    (c.poll hostname).Watches Stmt.exec (fun r => r.fileId = f) (SameFile r₀) (c.phase hostname f r₀) where
  due := by
    rintro db ⟨r, hr, -, hdue, hsame⟩
    refine ⟨r, ?_, hsame⟩
    have hfilter := Table.filter_of_find? hr
    simp only [poll, Table.select]
    rw [List.filter_comm, hfilter, List.filter_cons_of_pos hdue, List.filter_nil]
  gone := by
    rintro db ⟨r, hr, -, hdue, -⟩
    have hfilter := Table.filter_of_find? hr
    simp only [poll, Table.select]
    rw [List.filter_comm, hfilter, List.filter_cons_of_neg (by simp [hdue]), List.filter_nil]
  mark := by
    rintro r' db hit ⟨r, hr, hstate, -, hsame⟩
    obtain rfl : r'.fileId = f := by simpa using hit
    have hid : r.fileId = r'.fileId := Table.find?_some hr
    have hsel : (c.mark r'.fileId).selects r = true := by
      cases c <;> simp [CancelPoll.mark, FileUpdate.selects, hid]
    refine ⟨(c.mark r'.fileId).sets db.now r, ?_, ?_, ?_, ?_⟩
    · simp only [poll, exec_file_find?, hr, Option.map_some, hsel, if_true]
    · cases c <;> exact hstate
    · cases c <;> simp [CancelPoll.mark, FileUpdate.sets, CancelPoll.due]
    · cases c <;> exact hsame
  other := by
    rintro r' db isDue hit ⟨r, hr, hrest⟩
    have hid : r.fileId = f := Table.find?_some hr
    have hsel : (c.mark r'.fileId).selects r = false := by
      have hne : f ≠ r'.fileId := by simpa [eq_comm] using hit
      cases c <;> simp [CancelPoll.mark, FileUpdate.selects, hid, hne]
    refine ⟨r, ?_, hrest⟩
    simp [poll, exec_file_find?, hr, hsel]

/-! ## Staged files -/

theorem FileUpdate.sets_stagingStart (u : FileUpdate) (now : Nat) (h : r.stagingStart.isSome = true) :
    (u.sets now r).stagingStart.isSome = true ∨ (u.sets now r).fileState = .staging := by
  cases u with
  | updateFileTransferStatus a =>
      left
      simp only [FileUpdate.sets, StatusUpdate.sets]
      split
      · rfl
      · exact h
  | _ =>
      first
        | exact .inl h
        | exact .inl rfl
        | exact .inr rfl

/-- The file has been handed to the storage for staging. -/
def HasStagingStart (f : Nat) (db : Db) : Prop :=
  ∀ r, db.files.find? f = some r → r.stagingStart.isSome = true

theorem exec_stagingStart {s : Stmt} (h : HasStagingStart f db) (hstate : (s.exec db).2.fileState? f ≠ some .staging) :
    HasStagingStart f (s.exec db).2 := by
  intro r' hr'
  cases s with
  | file u =>
      rw [Db.fileState?, hr', Option.map_some, ne_eq, Option.some.injEq] at hstate
      rw [exec_file_find?, Option.map_eq_some_iff] at hr'
      obtain ⟨r, hr, rfl⟩ := hr'
      split at hstate
      · rename_i hsel
        rw [if_pos hsel]
        exact (u.sets_stagingStart db.now (h r hr)).resolve_right hstate
      · rename_i hsel
        rw [if_neg hsel]
        exact h r hr
  | deleteFiles ids =>
      rw [show ((Stmt.deleteFiles ids).exec db).2.files = db.files.delete fun r => r.jobId ∈ ids from rfl,
        Table.find?_delete] at hr'
      exact h r' (Option.filter_eq_some_iff.mp hr').1
  | _ => exact h r' hr'

/-- `staging_start` stays set until the file is sent back to staging. -/
theorem run_stagingStart {α : Type} {P : Pool Db Sel Stmt α} (is : List Nat) (h : HasStagingStart f P.store)
    (hstate : ∀ k, (P.run Stmt.exec (is.take k)).store.fileState? f ≠ some .staging) :
    HasStagingStart f (P.run Stmt.exec is).store := by
  induction is generalizing P with
  | nil => exact h
  | cons i is ih =>
      have hrest := fun k => hstate (k + 1)
      simp only [List.take_succ_cons, Pool.run] at hrest
      simp only [Pool.run]
      cases hs : P.step Stmt.exec i with
      | none =>
          simp only [hs] at hrest
          exact ih h hrest
      | some next =>
          obtain ⟨e, P'⟩ := next
          simp only [hs] at hrest
          obtain ⟨hpre, hpost⟩ := Pool.step_store hs
          have hexec := Pool.step_act hs
          refine ih ?_ hrest
          rw [← hpost]
          rw [← hpre] at h
          have hnext : e.post.fileState? f ≠ some .staging := hpost ▸ hrest 0
          cases hact : e.act with
          | update s =>
              rw [Event.Executes, hact] at hexec
              rw [hexec.2] at hnext ⊢
              exact exec_stagingStart h hnext
          | select q =>
              rw [Event.Executes, hact] at hexec
              rw [hexec]
              exact h
          | tx t =>
              rw [Event.Executes, hact] at hexec
              rw [hexec]
              exact h

/-! ## Runs with a cancellation -/

/-- The user sets the state; `finish_time` and `transfer_host` stay as they are. -/
def FileRow.cancel (r : FileRow) : FileRow := { r with fileState := .canceled }

theorem FileRow.cancel_fileId (r : FileRow) : r.cancel.fileId = r.fileId := rfl

def Db.cancelByUser (f : Nat) (db : Db) : Db :=
  { db with files := db.files.update (fun r => r.fileId = f) FileRow.cancel FileRow.cancel_fileId }

/-- The calls run until the user cancels the file; from then on the host polls, while the calls go on. -/
structure CancelRun where
  db : Db
  calls : List Call
  before : List Nat
  file : Nat
  poll : CancelPoll
  hostname : String
  laterRounds : Nat
  after : List Nat

namespace CancelRun

/-- The client 0 is the poll, the client `i + 1` the call `i`. -/
def init (R : CancelRun) : Pool Db Sel Stmt (List (List FileRow)) :=
  Pool.start R.db ((R.poll.poll R.hostname).rounds (R.laterRounds + 1) ::
    R.calls.map fun c => c.prog.bind fun _ => .ret [])

def running (R : CancelRun) : Pool Db Sel Stmt (List (List FileRow)) :=
  R.init.run Stmt.exec (R.before.map (· + 1))

def canceled (R : CancelRun) : Pool Db Sel Stmt (List (List FileRow)) :=
  { R.running with store := R.running.store.cancelByUser R.file }

/-- The rows that the rounds return, when all of them have ended. -/
def rounds? (R : CancelRun) : Option (List (List FileRow)) :=
  (R.canceled.run Stmt.exec R.after).result? 0

/-- No call writes the cancelled file without looking at its state. -/
def Spared (R : CancelRun) : Prop :=
  ∀ e ∈ R.canceled.trace Stmt.exec R.after, e.caller ≠ 0 → Step.sparesFile R.file e = true

instance (R : CancelRun) : Decidable R.Spared :=
  inferInstanceAs (Decidable (∀ e ∈ R.canceled.trace Stmt.exec R.after, e.caller ≠ 0 → Step.sparesFile R.file e = true))

variable {R : CancelRun} {rounds : List (List FileRow)}

theorem init_issues (R : CancelRun) : R.init.Issues Stmt.Issued := by
  have hround : ((R.poll.poll R.hostname).round).Issues Stmt.Issued := by
    refine fun db => Proc.Issues.bind (Proc.issues_forM _ _ fun r _ => ?_) fun _ => trivial
    cases R.poll <;> exact ⟨trivial, fun _ => trivial⟩
  have hrounds : ∀ n, ((R.poll.poll R.hostname).rounds n).Issues Stmt.Issued := by
    intro n
    induction n with
    | zero => trivial
    | succ n ih => exact hround.bind fun _ => ih.bind fun _ => trivial
  refine Pool.issues_start fun p hp => ?_
  rcases List.mem_cons.mp hp with rfl | hp
  · exact hrounds _
  · obtain ⟨c, -, rfl⟩ := List.mem_map.mp hp
    exact (prog_issued c).bind fun _ => trivial

theorem canceled_issues (R : CancelRun) : R.canceled.Issues Stmt.Issued :=
  Pool.run_invariant (C := fun _ => True) (I := Pool.Issues Stmt.Issued) (fun hs _ hI => (hI.step hs).1) _
    (fun _ _ => trivial) R.init_issues

/-- The poll has not begun when the user cancels. -/
theorem canceled_thread (R : CancelRun) :
    R.canceled.threads[0]? = some ⟨(R.poll.poll R.hostname).rounds (R.laterRounds + 1), R.db⟩ := by
  have hidle : R.running.threads[0]? = R.init.threads[0]? := Pool.threads_run_of_not_mem (by simp)
  exact hidle.trans rfl

theorem canceled_file (hr : R.running.store.files.find? R.file = some r) :
    R.canceled.store.files.find? R.file = some r.cancel := by
  have hid : r.fileId = R.file := Table.find?_some hr
  have hfind := Table.find?_update R.running.store.files (fun r => r.fileId = R.file) _ FileRow.cancel_fileId R.file
  rw [hr, Option.map_some, if_pos (by simp [hid])] at hfind
  exact hfind

/-- The rounds return the file once, in the first of them, exactly if the poll asks for what the user has left. -/
theorem rounds_once_iff (hspared : R.Spared) (hr : R.running.store.files.find? R.file = some r)
    (hrounds : R.rounds? = some rounds) {A : FileRow → Prop} (hA : ∀ r', SameFile r r' → A r') :
    Poll.Once (fun r' => r'.fileId = R.file) A rounds ↔ R.poll.due R.hostname r.cancel = true := by
  have hwatches := R.poll.watches R.hostname R.file r
  have hstart : R.poll.phase R.hostname R.file r (R.poll.due R.hostname r.cancel) R.canceled.store :=
    ⟨r.cancel, canceled_file hr, rfl, rfl, rfl, rfl, rfl⟩
  have hother : ∀ e ∈ R.canceled.trace Stmt.exec R.after, e.caller ≠ 0 → ∀ isDue,
      R.poll.phase R.hostname R.file r isDue e.pre → R.poll.phase R.hostname R.file r isDue e.post := by
    intro e he hcaller isDue hpre
    exact Step.sparesFile_phase (Pool.trace_executes _ _ e he) (R.canceled_issues.trace R.after e he)
      (hspared e he hcaller) hpre
  cases hdue : R.poll.due R.hostname r.cancel with
  | true =>
      rw [hdue] at hstart
      obtain ⟨-, honce⟩ := (hwatches.rounds_due R.laterRounds).result R.canceled_thread hstart R.after hother hrounds
      exact iff_of_true (honce.mono hA) rfl
  | false =>
      rw [hdue] at hstart
      obtain ⟨-, -, hnone⟩ := (hwatches.rounds_gone (R.laterRounds + 1)).result R.canceled_thread hstart R.after hother
        hrounds
      exact iff_of_false (Poll.not_once hnone) Bool.false_ne_true

/-- The rounds end when the poll gets enough turns. -/
theorem rounds_end (R : CancelRun) : ∃ n, { R with after := R.after ++ List.replicate n 0 }.rounds?.isSome = true := by
  have hthread : ∃ th, (R.canceled.run Stmt.exec R.after).threads[0]? = some th := by
    refine Pool.run_invariant (C := fun _ => True) (I := fun P => ∃ th, P.threads[0]? = some th) ?_ R.after
      (fun _ _ => trivial) ⟨_, R.canceled_thread⟩
    rintro P P' i e hs - ⟨th, hth⟩
    obtain ⟨th', a, n, s, p, -, -, -, rfl⟩ := Pool.step_eq_some hs
    have hlength : 0 < P.threads.length := (List.getElem?_eq_some_iff.mp hth).1
    exact ⟨_, List.getElem?_eq_getElem (by simpa using hlength)⟩
  obtain ⟨th, hth⟩ := hthread
  obtain ⟨n, rounds, h⟩ := Pool.returns Stmt.exec hth
  refine ⟨n, ?_⟩
  rw [← Pool.run_append] at h
  exact Option.isSome_of_eq_some h

end CancelRun

/-! ## The law -/

/-- The first round of `getCancelJob` finds the file and returns its process; no later round finds it. -/
def KilledOnce (f : Nat) (p : Int) (rounds : List (List FileRow)) : Prop :=
  Poll.Once (fun r => r.fileId = f) (fun r => r.pid = some p) rounds ∧ ∃ first ∈ rounds.head?, p ∈ requestIDs first

/-- The first round of `getStagingFilesForCanceling` finds the file and returns its job and source; no later round finds
it. -/
def AbortedOnce (f : Nat) (surl : String × String) (rounds : List (List FileRow)) : Prop :=
  Poll.Once (fun r => r.fileId = f) (fun r => (r.jobId, r.sourceSurl.getD "") = surl) rounds ∧
    ∃ first ∈ rounds.head?, surl ∈ canceledSurls first

theorem killedOnce_iff {p : Int} (hp : 0 < p) {rounds : List (List FileRow)} : KilledOnce f p rounds ↔
    Poll.Once (fun r => r.fileId = f) (fun r => r.pid = some p) rounds := by
  refine ⟨And.left, fun h => ⟨h, ?_⟩⟩
  obtain ⟨first, hfirst, r, hr, hpid⟩ := h.mem
  refine ⟨first, hfirst, List.mem_filter.mpr ⟨List.mem_map.mpr ⟨r, hr, ?_⟩, by simp [hp]⟩⟩
  rw [hpid, Option.getD_some]

theorem abortedOnce_iff {surl : String × String} {rounds : List (List FileRow)} : AbortedOnce f surl rounds ↔
    Poll.Once (fun r => r.fileId = f) (fun r => (r.jobId, r.sourceSurl.getD "") = surl) rounds := by
  refine ⟨And.left, fun h => ⟨h, ?_⟩⟩
  obtain ⟨first, hfirst, r, hr, hsurl⟩ := h.mem
  exact ⟨first, hfirst, List.mem_map.mpr ⟨r, hr, hsurl⟩⟩

/-- A cancelled transfer is killed by the first round, and only by it, exactly if `staging_start` is `NULL`; a cancelled
staging request is aborted by the first round, and only by it, exactly if it is set and `staging_finished` is not. -/
theorem canceled_operation_stopped (R : CancelRun) (hspared : R.Spared) (r : FileRow)
    (hr : R.running.store.files.find? R.file = some r) (hfinish : r.finishTime = none)
    (hhost : r.transferHost = some R.hostname) :
    (∀ p, R.poll = .transfers → r.fileState = .ready ∨ r.fileState = .active → r.pid = some p → 0 < p →
      ∀ rounds, R.rounds? = some rounds → (KilledOnce R.file p rounds ↔ r.stagingStart = none)) ∧
    (R.poll = .staging → r.fileState = .started → ∀ rounds, R.rounds? = some rounds →
      (AbortedOnce R.file (r.jobId, r.sourceSurl.getD "") rounds ↔
        r.stagingStart.isSome = true ∧ r.stagingFinished = none)) ∧
    ∃ n, { R with after := R.after ++ List.replicate n 0 }.rounds?.isSome = true := by
  refine ⟨?_, ?_, R.rounds_end⟩
  · intro p hpoll _ hpid hp rounds hrounds
    have hdue : R.poll.due R.hostname r.cancel = true ↔ r.stagingStart = none := by
      simp [hpoll, CancelPoll.due, FileRow.cancel, hfinish, hhost]
    rw [killedOnce_iff hp, ← hdue]
    exact CancelRun.rounds_once_iff hspared hr hrounds fun r' hsame => hsame.2.2.trans hpid
  · intro hpoll _ rounds hrounds
    have hdue : R.poll.due R.hostname r.cancel = true ↔ r.stagingStart.isSome = true ∧ r.stagingFinished = none := by
      simp [hpoll, CancelPoll.due, FileRow.cancel, hhost, and_comm]
    rw [abortedOnce_iff, ← hdue]
    exact CancelRun.rounds_once_iff hspared hr hrounds fun r' hsame => by rw [hsame.1, hsame.2.1]

def hostA : Node := { hostname := "a" }

/-- A transfer is started, and cancelled while the report that it has failed is being handled. -/
def plainRun : CancelRun where
  db :=
    { files := .ofRows [{ fileId := 1, jobId := "j", fileState := .submitted, fileIndex := some 0 }]
      jobs := .ofRows [{ jobId := "j", jobState := .submitted, jobType := some .regular }] }
  calls := [
    .updateTransferStatus hostA { jobId := "j", fileId := 1, newFileState := .ready },
    .updateTransferStatus hostA { jobId := "j", fileId := 1, processId := 42, newFileState := .active },
    .updateTransferStatus hostA { jobId := "j", fileId := 1, processId := 42, newFileState := .failed }]
  before := [0, 0, 0, 0, 0, 1, 1, 1, 1, 1, 2, 2, 2]
  file := 1
  poll := .transfers
  hostname := "a"
  laterRounds := 1
  after := [0, 3, 0, 0, 3, 0, 0, 0, 0]

theorem canceled_operation_stopped_plain : ∃ rounds, plainRun.rounds? = some rounds ∧ KilledOnce 1 42 rounds := by
  refine ⟨_, rfl, ?_⟩
  exact ((canceled_operation_stopped plainRun (by decide) _ rfl rfl rfl).1 42 rfl (.inr rfl) rfl (by decide) _ rfl).mpr rfl

/-- A file that was staged first is not killed: no later operation clears `staging_start` but those that send the file back
to staging. -/
theorem staged_transfer_missed (R : CancelRun) (hspared : R.Spared) (before₁ before₂ : List Nat)
    (hbefore : R.before = before₁ ++ before₂)
    (hstart : HasStagingStart R.file (R.init.run Stmt.exec (before₁.map (· + 1))).store)
    (hstate : ∀ k, (R.init.run Stmt.exec ((before₁ ++ before₂.take k).map (· + 1))).store.fileState? R.file ≠
      some .staging) (hpoll : R.poll = .transfers) (hfile : (R.running.store.files.find? R.file).isSome = true) (p : Int)
    (rounds : List (List FileRow)) (hrounds : R.rounds? = some rounds) : ¬KilledOnce R.file p rounds := by
  have hstaged : HasStagingStart R.file R.running.store := by
    rw [CancelRun.running, hbefore, List.map_append, Pool.run_append]
    refine run_stagingStart _ hstart fun k => ?_
    rw [← List.map_take, ← Pool.run_append, ← List.map_append]
    exact hstate k
  obtain ⟨r, hr⟩ := Option.isSome_iff_exists.mp hfile
  have hdue : R.poll.due R.hostname r.cancel = false := by
    have hsome : r.cancel.stagingStart.isNone = false := by
      rw [← Option.not_isSome]
      exact congrArg (!·) (hstaged r hr)
    rw [hpoll, CancelPoll.due, hsome, Bool.and_false]
  intro hkilled
  have honce := (CancelRun.rounds_once_iff hspared hr hrounds (A := fun _ => True) fun _ _ => trivial).mp
    (hkilled.1.mono fun _ _ => trivial)
  rw [hdue] at honce
  cases honce

/-- A file is staged, then its transfer is started and cancelled. -/
def stagedRun (poll : CancelPoll) : CancelRun where
  db :=
    { files := .ofRows [{ fileId := 1, jobId := "j", fileState := .staging, fileIndex := some 0, sourceSurl := some "s"
                          destSurl := some "d" }]
      jobs := .ofRows [{ jobId := "j", jobState := .staging, jobType := some .regular }]
      now := 100 }
  calls := [
    .updateStagingState hostA [({ jobId := "j", fileId := 1, state := .started }, 0)],
    .updateStagingState hostA [({ jobId := "j", fileId := 1, state := .finished }, 7)],
    .updateTransferStatus hostA { jobId := "j", fileId := 1, newFileState := .ready },
    .updateTransferStatus hostA { jobId := "j", fileId := 1, processId := 42, newFileState := .active }]
  before := [0, 0, 0, 0, 1, 1, 1, 1, 1, 1, 2, 2, 2, 2, 2, 3, 3, 3, 3, 3]
  file := 1
  poll
  hostname := "a"
  laterRounds := 1
  after := [0, 0, 0, 0, 0, 0]

/-- Neither poll finds it. -/
theorem staged_transfer_not_stopped :
    ((stagedRun .transfers).running.store.files.find? 1).map (fun r => (r.fileState, r.pid, r.transferHost, r.finishTime)) =
      some (.active, some 42, some "a", none) ∧
    (stagedRun .transfers).Spared ∧ (stagedRun .transfers).rounds? = some [[], []] ∧
    ¬KilledOnce 1 42 [[], []] ∧ (stagedRun .staging).rounds? = some [[], []] := by
  refine ⟨by decide, by decide, rfl, fun h => ?_, rfl⟩
  exact Poll.not_once (by simp) h.1

end Fts3.MySql
