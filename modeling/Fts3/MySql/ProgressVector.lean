import Fts3.MySql.Lemmas.Writes

/-!
# Progress messages

`updateFileTransferProgressVector` looks at the state that a message carries, not at the state of the file.
-/

namespace Fts3.MySql

open Fts3.Sql

/-! ## The last message counts -/

/-- The message is written to the row of `f`. -/
def MessageUpdater.applies (m : MessageUpdater) (f : Nat) : Bool :=
  m.fileId = f ∧ 0 < m.fileId ∧ m.transferStatus = "ACTIVE" ∧ 0 < m.throughput

def lastProgress (messages : List MessageUpdater) (f : Nat) : Option MessageUpdater :=
  (messages.filter (·.applies f)).getLast?

def FileRow.progress (r : FileRow) (m : MessageUpdater) : FileRow :=
  { r with throughput := some m.throughput, transferred := some m.transferred }

/-- One turn of the loop of `updateFileTransferProgressVector`. -/
def updateFileTransferProgress (m : MessageUpdater) : Op PUnit :=
  if 0 < m.fileId ∧ m.transferStatus = "ACTIVE" ∧ 0 < m.throughput then do
    let _ ← updateFile (.updateFileTransferProgress m.fileId m.throughput m.transferred)
    pure ()
  else pure ()

section progress

variable {messages : List MessageUpdater} {m : MessageUpdater} {f : Nat} {r : FileRow}

theorem progress_progress (r : FileRow) (m m' : MessageUpdater) : (r.progress m).progress m' = r.progress m' := rfl

theorem lastProgress_cons_of_not_applies (h : m.applies f = false) :
    lastProgress (m :: messages) f = lastProgress messages f := by
  rw [lastProgress, List.filter_cons_of_neg (by simp [h]), lastProgress]

theorem lastProgress_cons_of_applies (h : m.applies f = true) :
    lastProgress (m :: messages) f = some ((lastProgress messages f).getD m) := by
  rw [lastProgress, List.filter_cons, if_pos h, List.getLast?_cons, lastProgress]

theorem updateFileTransferProgress_find? (m : MessageUpdater) (db : Db) (f : Nat) :
    ((updateFileTransferProgress m).alone db).files.find? f =
      (db.files.find? f).map fun r => if m.applies f then r.progress m else r := by
  unfold updateFileTransferProgress
  split
  · rename_i hm
    simp only [Op.alone, Proc.bind_eq, updateFile_bind, Proc.run_update, Proc.pure_eq, Proc.run_ret]
    rw [exec_file_find?]
    cases hr : db.files.find? f with
    | none => rfl
    | some r =>
        have hid : r.fileId = f := Table.find?_some hr
        have hsel : (FileUpdate.updateFileTransferProgress m.fileId m.throughput m.transferred).selects r = m.applies f := by
          simp [FileUpdate.selects, MessageUpdater.applies, hm, hid, eq_comm]
        rw [Option.map_some, Option.map_some, hsel]
        rfl
  · rename_i hm
    have hnot : m.applies f = false := by
      simp only [MessageUpdater.applies, decide_eq_false_iff_not]
      exact fun h => hm h.2
    simp [Op.alone, hnot]

/-- A row has the values of the last message that applies to it, or keeps its own. -/
theorem updateFileTransferProgressVector_find? (messages : List MessageUpdater) (db : Db) (f : Nat) :
    ((updateFileTransferProgressVector messages).alone db).files.find? f =
      (db.files.find? f).map fun r => ((lastProgress messages f).map r.progress).getD r := by
  have hrun : (updateFileTransferProgressVector messages).alone db =
      ((messages.forM updateFileTransferProgress).run Stmt.exec db).2 := by
    simp only [updateFileTransferProgressVector, Op.alone, Proc.bind_eq, beginTx_bind, Proc.run_tx, Proc.run_bind]
    rfl
  rw [hrun]
  clear hrun
  induction messages generalizing db with
  | nil =>
      cases hr : db.files.find? f with
      | none => exact hr
      | some r => exact hr
  | cons m messages ih =>
      rw [Proc.run_forM_cons, ih]
      change Option.map _ (((updateFileTransferProgress m).alone db).files.find? f) = _
      rw [updateFileTransferProgress_find?, Option.map_map]
      congr 1
      funext r
      rw [Function.comp_apply]
      cases hm : m.applies f with
      | false => simp [lastProgress_cons_of_not_applies hm]
      | true =>
          rw [lastProgress_cons_of_applies hm]
          cases lastProgress messages f with
          | none => rfl
          | some m' => exact progress_progress r m m'

end progress

/-! ## Only the progress of running transfers changes -/

def FileRow.counters (r : FileRow) : Option Rat × Option Int := (r.throughput, r.transferred)

/-- The counters of a row change only while it is `ACTIVE`. -/
def CountsOnlyActive (db db' : Db) : Prop :=
  ∀ f r, db.files.find? f = some r → r.fileState ≠ .active →
    ∃ r', db'.files.find? f = some r' ∧ r'.counters = r.counters

/-- The last message for each file that is not `ACTIVE`, if there is one, has the values that are stored. -/
def RepeatsCounters (messages : List MessageUpdater) (db : Db) : Prop :=
  ∀ f r, db.files.find? f = some r → r.fileState ≠ .active →
    ∀ m, lastProgress messages f = some m → (some m.throughput, some m.transferred) = r.counters

/-- Progress messages touch only running transfers where they repeat what is stored, and only there. -/
theorem progress_counts_only_active_iff (messages : List MessageUpdater) (db : Db) :
    CountsOnlyActive db ((updateFileTransferProgressVector messages).alone db) ↔ RepeatsCounters messages db := by
  unfold CountsOnlyActive RepeatsCounters
  refine forall_congr' fun f => forall_congr' fun r => forall_congr' fun hr => forall_congr' fun _ => ?_
  rw [updateFileTransferProgressVector_find?, hr]
  cases lastProgress messages f with
  | none => simp
  | some m => simp [FileRow.progress, FileRow.counters]

/-- A message of a transfer that was running. -/
def latePing : MessageUpdater where
  fileId := 1
  transferStatus := "ACTIVE"
  throughput := 5
  transferred := 50

def pingedDb (st : FileState) : Db where
  files := .ofRows [{ fileId := 1, jobId := "j", fileState := st, throughput := some 10, transferred := some 100 }]
  jobs := .ofRows [{ jobId := "j", jobState := .active }]
  now := 100

def Db.counters? (db : Db) (f : Nat) : Option (Option Rat × Option Int) := (db.files.find? f).map (·.counters)

/-- A late message overwrites what a finished file has transferred, and the throughput that a retry has reset. -/
theorem progress_of_late_ping :
    ¬CountsOnlyActive (pingedDb .finished) ((updateFileTransferProgressVector [latePing]).alone (pingedDb .finished)) ∧
    ((updateFileTransferProgressVector [latePing]).alone (pingedDb .finished)).counters? 1 = some (some 5, some 50) ∧
    ((setRetryTransfer { hostname := "a" } "j" 1 1 "" "" false).alone (pingedDb .active)).counters? 1 =
      some (some 0, some 100) ∧
    ((updateFileTransferProgressVector [latePing]).alone
      ((setRetryTransfer { hostname := "a" } "j" 1 1 "" "" false).alone (pingedDb .active))).counters? 1 =
      some (some 5, some 50) := by
  have hlate : ((updateFileTransferProgressVector [latePing]).alone (pingedDb .finished)).counters? 1 =
      some (some 5, some 50) := by
    decide +kernel
  refine ⟨fun h => ?_, hlate, by decide +kernel, by decide +kernel⟩
  obtain ⟨r', hr', hcounters⟩ := h 1 _ rfl (by decide)
  rw [Db.counters?, hr', Option.map_some, hcounters] at hlate
  revert hlate
  decide

end Fts3.MySql
