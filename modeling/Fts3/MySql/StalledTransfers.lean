import Fts3.MySql.Lemmas.Writes
import Fts3.UrlCopy.UrlCopyCmd

/-!
# Stalled transfers

`updateProtocol` stores the protocol parameters of a transfer, `TransferFile::ProtocolParameters` reads them, and
`reapStalledTransfers` computes from their timeout when a transfer has run for too long.
-/

namespace Fts3.UrlCopy.ProtocolParameters

open Fts3.Text

/-- One part of the text. `lexical_cast<int>` throws on what is no number of 32 bits. -/
def assign (p : ProtocolParameters) (part : Text) : Option ProtocolParameters :=
  if "nostreams:".toList <+: part then
    (lexicalCastSigned 32 (part.drop 10)).map fun n => { p with nostreams := Int32.ofInt n }
  else if "timeout:".toList <+: part then
    (lexicalCastSigned 32 (part.drop 8)).map fun n => { p with timeout := Int32.ofInt n }
  else if "buffersize:".toList <+: part then
    (lexicalCastSigned 32 (part.drop 11)).map fun n => { p with buffersize := Int32.ofInt n }
  else if part = "strict".toList then some { p with strictCopy := true }
  else if part = "ipv4".toList then some { p with ipv6 := some false }
  else if part = "ipv6".toList then some { p with ipv6 := some true }
  else if part = "s3alternate".toList then some { p with s3Alternate := true }
  else some p

def parse (serialized : Text) : Option ProtocolParameters :=
  (serialized.splitOn ',').foldlM assign {}

theorem lexicalCastSigned_toInt (n : Int32) : lexicalCastSigned 32 (printInt n.toInt) = some n.toInt := by
  rw [lexicalCastSigned_printInt (by decide), if_pos ⟨n.le_toInt, n.toInt_lt⟩]

section assign

variable (p : ProtocolParameters) (n : Int32)

theorem assign_nostreams : p.assign ("nostreams:".toList ++ printInt n.toInt) = some { p with nostreams := n } := by
  have hdrop : ("nostreams:".toList ++ printInt n.toInt).drop 10 = printInt n.toInt := rfl
  rw [assign, if_pos (List.prefix_append _ _), hdrop, lexicalCastSigned_toInt, Option.map_some, Int32.ofInt_toInt]

theorem assign_timeout : p.assign ("timeout:".toList ++ printInt n.toInt) = some { p with timeout := n } := by
  have hdrop : ("timeout:".toList ++ printInt n.toInt).drop 8 = printInt n.toInt := rfl
  rw [assign, if_neg (by simp), if_pos (List.prefix_append _ _), hdrop, lexicalCastSigned_toInt, Option.map_some,
    Int32.ofInt_toInt]

theorem assign_buffersize : p.assign ("buffersize:".toList ++ printInt n.toInt) = some { p with buffersize := n } := by
  have hdrop : ("buffersize:".toList ++ printInt n.toInt).drop 11 = printInt n.toInt := rfl
  rw [assign, if_neg (by simp), if_neg (by simp), if_pos (List.prefix_append _ _), hdrop, lexicalCastSigned_toInt,
    Option.map_some, Int32.ofInt_toInt]

end assign

end Fts3.UrlCopy.ProtocolParameters

namespace Fts3.MySql

open Fts3.Sql Fts3.Text
open Fts3.UrlCopy (ProtocolParameters)

/-! ## The stored parameters -/

/-- An `UPDATE` message, with the three numbers as `static_cast<int>` gives them. -/
def protocolUpdate (fileId : Nat) (filesize : Int) (nostreams timeout buffersize : Int32) : ProtocolMessage where
  transferStatus := "UPDATE"
  fileId := fileId
  filesize := filesize
  nostreams := nostreams.toInt
  timeout := timeout.toInt
  buffersize := buffersize.toInt

/-- What `updateProtocol` stores for them. -/
def storedParams (nostreams timeout buffersize : Int32) : String :=
  (protocolUpdate 0 0 nostreams timeout buffersize).params

theorem toList_storedParams (nostreams timeout buffersize : Int32) :
    (storedParams nostreams timeout buffersize).toList =
      "nostreams:".toList ++ printInt nostreams.toInt ++ ',' :: ("timeout:".toList ++ printInt timeout.toInt ++
        ',' :: ("buffersize:".toList ++ printInt buffersize.toInt)) := by
  simp [storedParams, protocolUpdate, ProtocolMessage.params, toString, toList_repr]

/-- The decoder of `TransferFile` inverts the encoder of `updateProtocol`. -/
theorem parse_storedParams (nostreams timeout buffersize : Int32) :
    ProtocolParameters.parse (storedParams nostreams timeout buffersize).toList =
      some { nostreams, timeout, buffersize } := by
  have hcomma (name : Text) (n : Int32) (hname : ',' ∉ name) : ',' ∉ name ++ printInt n.toInt := by
    rw [List.mem_append]
    rintro (h | h)
    · exact hname h
    · exact not_mem_printInt (by decide) (by decide) h
  rw [ProtocolParameters.parse, toList_storedParams,
    List.splitOn_append_cons_self_of_not_mem (hcomma _ _ (by decide)),
    List.splitOn_append_cons_self_of_not_mem (hcomma _ _ (by decide)),
    List.splitOn_eq_singleton (hcomma _ _ (by decide))]
  simp only [List.foldlM_cons, List.foldlM_nil, ProtocolParameters.assign_nostreams,
    ProtocolParameters.assign_timeout, ProtocolParameters.assign_buffersize, Option.bind_eq_bind, Option.bind_some]
  rfl

theorem updateProtocol_stores {m : ProtocolMessage} {db : Db} {r : FileRow} (hm : m.transferStatus = "UPDATE")
    (hr : db.files.find? m.fileId = some r) : ((updateProtocol [m]).alone db).files.find? m.fileId =
      some { r with internalFileParams := some m.params, filesize := some m.filesize } := by
  have hid : r.fileId = m.fileId := Table.find?_some hr
  have hrun : (updateProtocol [m]).alone db =
      ((Stmt.file (.updateProtocol m.fileId m.params m.filesize)).exec db).2 := by
    simp only [updateProtocol, Op.alone, Proc.bind_eq, beginTx_bind, Proc.run_tx, Proc.run_bind, Proc.run_forM_cons,
      hm, if_true, updateFile_bind, Proc.run_update]
    rfl
  rw [hrun, exec_file_find?, hr, Option.map_some, if_pos (by simp [FileUpdate.selects, hid])]
  rfl

/-! ## The deadline -/

/-- What the `SELECT` of `reapStalledTransfers` gives for one transfer. -/
structure RunningRow where
  jobId : String
  fileId : Nat
  startTime : Option Nat
  pid : Option Int
  internalFileParams : Option String
  jobType : JobType

/-- The fields that it fills in the `TransferFile`. -/
structure StalledTransfer where
  jobId : String := ""
  fileId : Nat := 0
  pid : Int := 0
  internalFileParams : String := ""
  jobType : JobType := .regular

/-- `f.transfer_host = :host` and the state; `j.job_type != 'Y'` does not hold of `NULL`. -/
def runningRow? (hostname : String) (db : Db) (r : FileRow) : Option RunningRow :=
  if r.fileState ∈ [.active, .ready] ∧ r.transferHost = some hostname then
    ((db.jobs.find? r.jobId).bind (·.jobType)).bind fun jobType =>
      if jobType = .sessionReuse then none
      else some { jobId := r.jobId, fileId := r.fileId, startTime := r.startTime, pid := r.pid
                  internalFileParams := r.internalFileParams, jobType }
  else none

def defaultTimeout : Int32 := 7200

/-- The timeout of one row; without an answer the parameters have thrown. -/
def stallTimeout : Option String → Option Int32
  | none => some defaultTimeout
  | some params => (ProtocolParameters.parse params.toList).map fun p =>
      if p.timeout = 0 then defaultTimeout else p.timeout + 3600

/-- The loop over the rows. A column that is `NULL` leaves its field as it was; a start time cannot be `NULL`. -/
def reapRows (now : Int) : StalledTransfer → List RunningRow → Option (List StalledTransfer)
  | _, [] => some []
  | transfer, row :: rows => do
      let startTime ← row.startTime
      let transfer : StalledTransfer :=
        { jobId := row.jobId, fileId := row.fileId, pid := row.pid.getD transfer.pid
          internalFileParams := row.internalFileParams.getD transfer.internalFileParams, jobType := row.jobType }
      let timeout ← stallTimeout row.internalFileParams
      let transfers ← reapRows now transfer rows
      if timeout.toInt < now - startTime then some (transfer :: transfers) else some transfers

/-- `none` when it has thrown. -/
def reapStalledTransfers (node : Node) (now : Int) : Op (Option (List StalledTransfer)) :=
  select .rows fun db => reapRows now {} (db.files.rows.filterMap (runningRow? node.hostname db))

section reap

variable {host : String} {db : Db} {r : FileRow} {row : RunningRow} {now : Int}

/-- The rows that the query is about: `READY` or `ACTIVE` on this host, of a job that is not a session reuse. -/
structure Running (host : String) (db : Db) (r : FileRow) : Prop where
  mem : r ∈ db.files.rows
  state : r.fileState = .ready ∨ r.fileState = .active
  transferHost : r.transferHost = some host
  jobType : ∃ j jobType, db.jobs.find? r.jobId = some j ∧ j.jobType = some jobType ∧ jobType ≠ .sessionReuse

theorem Running.exists_row (h : Running host db r) : ∃ row, runningRow? host db r = some row := by
  obtain ⟨j, jobType, hj, hjobType, hne⟩ := h.jobType
  have hstate : r.fileState ∈ [.active, .ready] := by
    rcases h.state with hst | hst
    · simp [hst]
    · simp [hst]
  simp [runningRow?, hstate, h.transferHost, hj, hjobType, hne]

theorem running_of_row (hr : r ∈ db.files.rows) (h : runningRow? host db r = some row) :
    Running host db r ∧ row.fileId = r.fileId ∧ row.startTime = r.startTime ∧
      row.internalFileParams = r.internalFileParams := by
  unfold runningRow? at h
  split at h
  · rename_i hsel
    simp only [Option.bind_eq_some_iff] at h
    obtain ⟨jobType, ⟨j, hj, hjobType⟩, h⟩ := h
    split at h
    · cases h
    · rename_i hne
      obtain rfl := Option.some.inj h
      have hstate : r.fileState = .ready ∨ r.fileState = .active := by
        simpa [or_comm] using hsel.1
      exact ⟨⟨hr, hstate, hsel.2, j, jobType, hj, hjobType, hne⟩, rfl, rfl, rfl⟩
  · cases h

/-- What is asked of a row for it to be read without an exception. -/
def RunningRow.Reads (row : RunningRow) : Prop :=
  ∃ startTime timeout, row.startTime = some startTime ∧ stallTimeout row.internalFileParams = some timeout

def RunningRow.Overdue (now : Int) (row : RunningRow) : Prop :=
  ∃ startTime timeout, row.startTime = some startTime ∧ stallTimeout row.internalFileParams = some timeout ∧
    timeout.toInt < now - startTime

theorem reapRows_spec (now : Int) {rows : List RunningRow} (transfer : StalledTransfer)
    (h : ∀ row ∈ rows, row.Reads) : ∃ stalled, reapRows now transfer rows = some stalled ∧
      ∀ f, f ∈ stalled.map (·.fileId) ↔ ∃ row ∈ rows, row.fileId = f ∧ row.Overdue now := by
  induction rows generalizing transfer with
  | nil => exact ⟨[], rfl, by simp⟩
  | cons row rows ih =>
      obtain ⟨startTime, timeout, hstart, htimeout⟩ := h row (by simp)
      obtain ⟨stalled, hstalled, hmem⟩ := ih
        { jobId := row.jobId, fileId := row.fileId, pid := row.pid.getD transfer.pid
          internalFileParams := row.internalFileParams.getD transfer.internalFileParams, jobType := row.jobType }
        fun row' hrow' => h row' (by simp [hrow'])
      have hoverdue : row.Overdue now ↔ timeout.toInt < now - startTime := by
        simp [RunningRow.Overdue, hstart, htimeout]
      simp only [reapRows, hstart, htimeout, hstalled, Option.bind_eq_bind, Option.bind_some]
      split
      · rename_i hlt
        refine ⟨_, rfl, fun f => ?_⟩
        simp [hmem, hoverdue, hlt, eq_comm]
      · rename_i hlt
        refine ⟨_, rfl, fun f => ?_⟩
        simp [hmem, hoverdue, hlt]

/-- Every running transfer of this host has a start time, and parameters that can be read: `NULL`, or what `updateProtocol`
has stored. -/
def ParamsParse (host : String) (db : Db) : Prop :=
  ∀ r, Running host db r → r.startTime.isSome = true ∧ (stallTimeout r.internalFileParams).isSome = true

theorem stallTimeout_storedParams (nostreams timeout buffersize : Int32) :
    stallTimeout (some (storedParams nostreams timeout buffersize)) =
      some (if timeout = 0 then defaultTimeout else timeout + 3600) := by
  rw [stallTimeout, parse_storedParams]
  rfl

theorem ParamsParse.reads (h : ParamsParse host db) (hr : r ∈ db.files.rows)
    (hrow : runningRow? host db r = some row) : row.Reads := by
  obtain ⟨hrunning, -, hstart, hparams⟩ := running_of_row hr hrow
  obtain ⟨hsome, hparse⟩ := h r hrunning
  obtain ⟨startTime, hstartTime⟩ := Option.isSome_iff_exists.mp hsome
  obtain ⟨timeout, htimeout⟩ := Option.isSome_iff_exists.mp hparse
  exact ⟨startTime, timeout, hstart.trans hstartTime, by rw [hparams, htimeout]⟩

/-- Exactly the running transfers that are overdue are reaped. -/
theorem reapStalledTransfers_run (node : Node) (now : Int) (h : ParamsParse node.hostname db) :
    ∃ stalled, ((reapStalledTransfers node now).run Stmt.exec db).1 = some stalled ∧
      ∀ r row, Running node.hostname db r → runningRow? node.hostname db r = some row →
        (r.fileId ∈ stalled.map (·.fileId) ↔ row.Overdue now) := by
  have hreads : ∀ row ∈ db.files.rows.filterMap (runningRow? node.hostname db), row.Reads := by
    intro row hrow
    obtain ⟨r, hr, hrow⟩ := List.mem_filterMap.mp hrow
    exact h.reads hr hrow
  obtain ⟨stalled, hstalled, hmem⟩ := reapRows_spec now {} hreads
  refine ⟨stalled, hstalled, fun r row hr hrow => ?_⟩
  rw [hmem]
  constructor
  · rintro ⟨row', hrow', hid, hoverdue⟩
    obtain ⟨r', hr', hrow'⟩ := List.mem_filterMap.mp hrow'
    have hsame : r' = r := by
      have hid' : r'.fileId = r.fileId := (running_of_row hr' hrow').2.1.symm.trans hid
      have hfind := Table.find?_key hr'
      rw [hid', Table.find?_key hr.mem] at hfind
      exact (Option.some.inj hfind).symm
    rw [hsame, hrow] at hrow'
    exact Option.some.inj hrow' ▸ hoverdue
  · exact fun hoverdue =>
      ⟨row, List.mem_filterMap.mpr ⟨r, hr.mem, hrow⟩, (running_of_row hr.mem hrow).2.1, hoverdue⟩

/-- The deadline over the integers. -/
def stallDeadline (timeout : Int) : Int :=
  if timeout = 0 then 7200 else timeout + 3600

/-- A running transfer with this timeout is reaped exactly when it has run for longer than the deadline. -/
def ReapsInTime (timeout : Int32) : Prop :=
  ∀ (node : Node) (now : Int) (db : Db), ParamsParse node.hostname db →
    ∃ stalled, ((reapStalledTransfers node now).run Stmt.exec db).1 = some stalled ∧
      ∀ r nostreams buffersize startTime, Running node.hostname db r →
        r.internalFileParams = some (storedParams nostreams timeout buffersize) → r.startTime = some startTime →
        (r.fileId ∈ stalled.map (·.fileId) ↔ stallDeadline timeout.toInt < now - startTime)

theorem toInt_timeout {timeout : Int32} (h₀ : 0 ≤ timeout.toInt) (h : timeout.toInt + 3600 < 2 ^ 31) :
    (if timeout = 0 then defaultTimeout else timeout + 3600).toInt = stallDeadline timeout.toInt := by
  have hzero : timeout = 0 ↔ timeout.toInt = 0 := by
    rw [← Int32.toInt_inj]
    rfl
  unfold stallDeadline
  by_cases htimeout : timeout = 0
  · rw [if_pos htimeout, if_pos (hzero.mp htimeout)]
    rfl
  · rw [if_neg htimeout, if_neg fun h => htimeout (hzero.mpr h), Int32.toInt_add]
    have h3600 : (3600 : Int32).toInt = 3600 := rfl
    rw [h3600, Int.bmod_eq_of_le] <;> omega

/-- The sum wraps around to a negative number. -/
theorem toInt_timeout_neg {timeout : Int32} (h : 2 ^ 31 ≤ timeout.toInt + 3600) :
    (if timeout = 0 then defaultTimeout else timeout + 3600).toInt < 0 := by
  have htimeout : timeout ≠ 0 := by
    rintro rfl
    exact absurd h (by decide)
  have hlt := timeout.toInt_lt
  have h3600 : (3600 : Int32).toInt = 3600 := rfl
  rw [if_neg htimeout, Int32.toInt_add, h3600, Int.bmod_def]
  omega

/-- A transfer that has just been started, with this timeout. -/
def justStarted (timeout : Int32) : Db where
  files :=
    { rows := [{ fileId := 1, jobId := "j", fileState := .active, transferHost := some "h", startTime := some 0
                 internalFileParams := some (storedParams 1 timeout 0) }]
      nodup := by simp }
  jobs := { rows := [{ jobId := "j", jobState := .active, jobType := some .regular }], nodup := by simp }

theorem not_reapsInTime_of_overflow {timeout : Int32} (h : 2 ^ 31 ≤ timeout.toInt + 3600) :
    ¬ReapsInTime timeout := by
  intro hreaps
  have hjob : (justStarted timeout).jobs.find? "j" =
      some { jobId := "j", jobState := .active, jobType := some .regular } := rfl
  have hrunning : ∀ r ∈ (justStarted timeout).files.rows, Running "h" (justStarted timeout) r := by
    intro r hr
    obtain rfl := List.mem_singleton.mp hr
    exact ⟨by simp [justStarted], .inr rfl, rfl, _, .regular, hjob, rfl, by decide⟩
  have hstored : ParamsParse "h" (justStarted timeout) := by
    intro r hr
    obtain rfl := List.mem_singleton.mp hr.mem
    exact ⟨rfl, Option.isSome_of_eq_some (stallTimeout_storedParams 1 timeout 0)⟩
  obtain ⟨stalled, hstalled, hmem⟩ := reapStalledTransfers_run { hostname := "h" } 0 hstored
  obtain ⟨stalled', hstalled', hmem'⟩ := hreaps { hostname := "h" } 0 (justStarted timeout) hstored
  obtain rfl : stalled = stalled' := Option.some.inj (hstalled.symm.trans hstalled')
  have hfirst := hrunning _ List.mem_cons_self
  obtain ⟨row, hrow⟩ := hfirst.exists_row
  obtain ⟨-, -, hstart, hparams⟩ := running_of_row hfirst.mem hrow
  have hoverdue : row.Overdue 0 := by
    refine ⟨0, _, hstart, by rw [hparams]; exact stallTimeout_storedParams 1 timeout 0, ?_⟩
    simpa using toInt_timeout_neg h
  have hdeadline := (hmem' _ 1 0 0 hfirst rfl rfl).mp ((hmem _ row hfirst hrow).mpr hoverdue)
  unfold stallDeadline at hdeadline
  split at hdeadline <;> omega

theorem reapsInTime_of_no_overflow {timeout : Int32} (h₀ : 0 ≤ timeout.toInt) (h : timeout.toInt + 3600 < 2 ^ 31) :
    ReapsInTime timeout := by
  intro node now db hstored
  obtain ⟨stalled, hstalled, hmem⟩ := reapStalledTransfers_run node now hstored
  refine ⟨stalled, hstalled, fun r nostreams buffersize startTime hr hparams hstart => ?_⟩
  obtain ⟨row, hrow⟩ := hr.exists_row
  obtain ⟨-, -, hrowStart, hrowParams⟩ := running_of_row hr.mem hrow
  rw [hmem r row hr hrow, ← toInt_timeout h₀ h]
  simp [RunningRow.Overdue, hrowStart, hstart, hrowParams, hparams, stallTimeout_storedParams]

end reap

/-- The protocol parameters are read as they were stored, and the deadline that is computed from their timeout is right
exactly if it fits into an `int`. -/
theorem stall_deadline_iff (nostreams timeout buffersize : Int32) (fileId : Nat) (filesize : Int) (db : Db) (r : FileRow) :
    (db.files.find? fileId = some r → ∃ r',
      ((updateProtocol [protocolUpdate fileId filesize nostreams timeout buffersize]).alone db).files.find? fileId =
        some r' ∧ r'.internalFileParams = some (storedParams nostreams timeout buffersize) ∧
      ProtocolParameters.parse (storedParams nostreams timeout buffersize).toList =
        some { nostreams, timeout, buffersize }) ∧
    (0 ≤ timeout.toInt → (ReapsInTime timeout ↔ timeout.toInt + 3600 < 2 ^ 31)) := by
  constructor
  · intro hr
    have hm : (protocolUpdate fileId filesize nostreams timeout buffersize).transferStatus = "UPDATE" := rfl
    exact ⟨_, updateProtocol_stores hm hr, rfl, parse_storedParams nostreams timeout buffersize⟩
  · refine fun h₀ => ⟨fun hreaps => ?_, reapsInTime_of_no_overflow h₀⟩
    by_contra hover
    exact not_reapsInTime_of_overflow (not_lt.mp hover) hreaps

/-- The largest timeout: a transfer is reaped as soon as it runs. -/
theorem stall_deadline_overflow : ¬ReapsInTime 2147483647 :=
  not_reapsInTime_of_overflow (by decide)

end Fts3.MySql
