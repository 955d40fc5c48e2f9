import Fts3.MySql.Lemmas.Finishing
import Fts3.Server.MessageProcessing
import Fts3.UrlCopy.RunTransfer

/-!
# From the copy to the store

The processes that run the transfers report to the server, which stores what they report while everything else uses the
store as well. A `FINISHED` in the store has a copy behind it.
-/

namespace Fts3.Server

open Fts3.Sql Fts3.MySql Fts3.Machine

/-! ## What the processes send -/

/-- A run of `fts_url_copy`. -/
structure UrlCopyRun where
  opts : UrlCopy.UrlCopyOpts
  jsonCpp : UrlCopy.JsonCpp
  transfers : List UrlCopy.Transfer
  events : List UrlCopy.Event

def reportedState : UrlCopy.TransferStatus → FileState
  | .finished => .finished
  | .failed => .failed
  | .canceled => .canceled

/-- The message has these fields. -/
structure Message.Carries (msg : Message) (status : UrlCopy.Status) : Prop where
  jobId : msg.jobId.toList = status.jobId
  fileId : msg.fileId = status.fileId
  filesize : msg.filesize = status.filesize.toNat
  transferStatus : msg.transferStatus = reportedState status.transferStatus
  errcode : msg.errcode = status.errcode
  transferMessage : msg.transferMessage.toList = status.transferMessage
  retry : msg.retry = status.retry
  fileMetadata : msg.fileMetadata.toList = status.fileMetadata.getD []

/-- The steps that must succeed have: the source has a size, the destination is not there, the copy returns, and what has
been copied has the same size. -/
structure Copied (opts : UrlCopy.UrlCopyOpts) (t : UrlCopy.Transfer) (c : UrlCopy.Calls) : Prop where
  setup : c.setupFailure t = none
  copy : c.copy = .ok ()
  size : opts.strictCopy = false → ∃ size, c.sourceStat = .ok size ∧ c.finalStat = .ok size
  absent : opts.strictCopy = false → opts.overwrite = false →
    ∃ what, c.destinationStat = .gfal2Exception UrlCopy.ENOENT what

namespace UrlCopyRun

/-- Where `run` runs a transfer, it ends as `runOne` does with some answers of gfal2. -/
def RunsTransfers (u : UrlCopyRun) (p : UrlCopy.UrlCopyProcess) : UrlCopy.Event → Prop
  | .next error => ∀ t, p.position = .transfer t →
      ∃ c s, UrlCopy.runOne u.opts u.jsonCpp c t = .ok s ∧ s.transfer.error = error
  | .throw what => ∀ t, p.position = .transfer t → ∃ c, UrlCopy.runOne u.opts u.jsonCpp c t = .error what
  | .cancel | .panic _ => True

/-- The transfers name their jobs and files, as the server does when it starts the process. -/
structure Genuine (u : UrlCopyRun) : Prop where
  named : ∀ t ∈ u.transfers, t.jobId ≠ [] ∧ t.fileId ≠ 0
  runs : Meets UrlCopy.UrlCopyProcess.step u.RunsTransfers (.start u.transfers) u.events

def completed (u : UrlCopyRun) : List UrlCopy.Completed :=
  (run UrlCopy.UrlCopyProcess.step (.start u.transfers) u.events).completed

/-- The process sends the message when it has completed a transfer. -/
def Sends (u : UrlCopyRun) (msg : Message) : Prop :=
  ∃ done ∈ u.completed, ∃ t : UrlCopy.RunningTransfer, t.transfer.jobId = done.transfer.jobId ∧
    t.transfer.fileId = done.transfer.fileId ∧ t.error = done.error ∧ msg.Carries (t.sendTransferCompleted u.opts)

/-! ## Success -/

theorem copied_of_runOne {opts : UrlCopy.UrlCopyOpts} {jsonCpp : UrlCopy.JsonCpp} {c : UrlCopy.Calls}
    {t : UrlCopy.Transfer} {s : UrlCopy.Running} (h : UrlCopy.runOne opts jsonCpp c t = .ok s)
    (herror : s.transfer.error = none) : Copied opts t c := by
  obtain ⟨hsetup, hfailure⟩ : c.setupFailure t = none ∧ c.transferFailure opts = none := by
    unfold UrlCopy.runOne at h
    split at h
    · cases h
    · cases h
      rw [(UrlCopy.handleThrown_runTransfer opts jsonCpp c _).1, Option.or_eq_none_iff] at herror
      refine ⟨?_, herror.1⟩
      cases hsetup : UrlCopy.setupTransferConfig t c.setup with
      | ok u => simp only [UrlCopy.Calls.setupFailure, hsetup]
      | error e =>
          rw [hsetup] at herror
          cases herror.2
  simp only [UrlCopy.Calls.transferFailure, Option.map_eq_none_iff, Option.or_eq_none_iff] at hfailure
  obtain ⟨⟨hsource, hdestination⟩, hcopy, hsize⟩ := hfailure
  refine ⟨hsetup, ?_, fun hstrict => ?_, fun hstrict hover => ?_⟩
  · unfold UrlCopy.Calls.copyFailure UrlCopy.copyError at hcopy
    split at hcopy
    · assumption
    all_goals cases hcopy
  · simp only [UrlCopy.Calls.sourceFailure, hstrict, Bool.false_eq_true, if_false] at hsource
    simp only [UrlCopy.Calls.sizeFailure, hstrict, Bool.false_eq_true, if_false] at hsize
    unfold UrlCopy.sourceError at hsource
    split at hsource
    · rename_i size hstat
      refine ⟨size, hstat, ?_⟩
      simp only [UrlCopy.Calls.sourceSize, hstat] at hsize
      unfold UrlCopy.sizeError at hsize
      split at hsize
      · rename_i destSize hfinal
        rw [hfinal]
        by_contra hne
        rw [if_pos fun heq => hne (by rw [heq])] at hsize
        cases hsize
      all_goals cases hsize
    all_goals cases hsource
  · simp only [UrlCopy.Calls.destinationFailure, hstrict, hover, Bool.or_self, Bool.false_eq_true, if_false]
      at hdestination
    unfold UrlCopy.destinationError at hdestination
    split at hdestination
    · cases hdestination
    · rename_i code what hstat
      by_cases hcode : code = UrlCopy.ENOENT
      · exact ⟨what, hcode ▸ hstat⟩
      · rw [if_pos hcode] at hdestination
        cases hdestination
    all_goals cases hdestination

/-- The transfers at work are the ones of the run, and one without an error has been copied. -/
structure Earned (u : UrlCopyRun) (p : UrlCopy.UrlCopyProcess) : Prop where
  todo : ∀ t ∈ p.todoTransfers, t ∈ u.transfers
  position : ∀ t, p.position = .transfer t → t ∈ u.transfers
  report : ∀ rest, p.position = .report rest → ∀ t ∈ rest, t ∈ u.transfers
  completed : ∀ done ∈ p.completed, done.transfer ∈ u.transfers ∧
    (done.error = none → ∃ c, Copied u.opts done.transfer c)

variable {u : UrlCopyRun} {p : UrlCopy.UrlCopyProcess}

theorem Earned.panic (msg : Text) (h : u.Earned p) : u.Earned (p.panic msg) := by
  obtain ⟨todo, canceled, position, completed⟩ := p
  refine ⟨by simp [UrlCopy.UrlCopyProcess.panic], fun t ht => ?_, fun rest hrest => ?_, fun done hdone => ?_⟩
  · refine h.position t ?_
    cases position with
    | report rest => cases rest <;> simp [UrlCopy.UrlCopyProcess.panic] at ht
    | _ => exact ht
  · cases position with
    | report rest' =>
        cases rest' with
        | nil => exact h.report rest hrest
        | cons t rest' => simp [UrlCopy.UrlCopyProcess.panic] at hrest
    | _ => exact h.report rest hrest
  · rcases List.mem_append.mp hdone with hdone | hdone
    · exact h.completed done hdone
    · obtain ⟨t, ht, rfl⟩ := List.mem_map.mp hdone
      exact ⟨h.todo t ht, by simp [UrlCopy.Completed.panicked]⟩

theorem Earned.next {error : Option UrlCopy.UrlCopyError} (hruns : u.RunsTransfers p (.next error))
    (h : u.Earned p) : u.Earned (p.next error) := by
  obtain ⟨todo, canceled, position, completed⟩ := p
  have hthere : ∀ (position' : UrlCopy.Position), (∀ t, position' = .transfer t → t ∈ u.transfers) →
      (∀ rest, position' = .report rest → ∀ t ∈ rest, t ∈ u.transfers) →
        u.Earned ⟨todo, canceled, position', completed⟩ := fun _ hp hr => ⟨h.todo, hp, hr, h.completed⟩
  cases position with
  | empty => cases todo <;> exact hthere _ (by simp) (by simp)
  | canceled => cases canceled <;> exact hthere _ (by simp) (by simp)
  | front =>
      cases todo with
      | nil => exact hthere _ (by simp) (by simp)
      | cons t todo =>
          refine hthere (.transfer t) (fun t' ht' => ?_) (by simp)
          cases ht'
          exact h.todo t (by simp)
  | transfer t =>
      cases todo with
      | nil => exact hthere _ (by simp) (by simp)
      | cons t' todo =>
          refine ⟨fun t'' ht => h.todo t'' (List.mem_cons_of_mem _ ht), by simp [UrlCopy.UrlCopyProcess.next],
            by simp [UrlCopy.UrlCopyProcess.next], fun done hdone => ?_⟩
          rcases List.mem_append.mp hdone with hdone | hdone
          · exact h.completed done hdone
          · obtain rfl := List.mem_singleton.mp hdone
            obtain ⟨c, s, hrun, herror⟩ := hruns t rfl
            exact ⟨h.position t rfl, fun hnone => ⟨c, copied_of_runOne hrun (herror.trans hnone)⟩⟩
  | left =>
      refine hthere (.report todo) (by simp) fun rest hrest => ?_
      cases hrest
      exact h.todo
  | report rest =>
      cases rest with
      | nil => exact hthere _ (by simp) (by simp)
      | cons t rest =>
          refine ⟨h.todo, by simp [UrlCopy.UrlCopyProcess.next], fun rest' hrest t' ht' => ?_, fun done hdone => ?_⟩
          · cases hrest
            exact h.report _ rfl t' (List.mem_cons_of_mem _ ht')
          · rcases List.mem_append.mp hdone with hdone | hdone
            · exact h.completed done hdone
            · obtain rfl := List.mem_singleton.mp hdone
              exact ⟨h.report _ rfl t (by simp), by simp [UrlCopy.Completed.canceled]⟩
  | thrown what =>
      have hpanic := h.panic what
      exact ⟨hpanic.todo, by simp [UrlCopy.UrlCopyProcess.next], by simp [UrlCopy.UrlCopyProcess.next],
        hpanic.completed⟩
  | returned => exact h
  | caught => exact h
  | frontOfEmpty => exact h
  | dangling => exact h

theorem Earned.step {e : UrlCopy.Event} (hruns : u.RunsTransfers p e) (h : u.Earned p) : u.Earned (p.step e) := by
  cases e with
  | next error => exact h.next hruns
  | throw what =>
      obtain ⟨todo, canceled, position, completed⟩ := p
      cases position with
      | transfer t => exact ⟨h.todo, by simp [UrlCopy.UrlCopyProcess.step, UrlCopy.UrlCopyProcess.throw],
          by simp [UrlCopy.UrlCopyProcess.step, UrlCopy.UrlCopyProcess.throw], h.completed⟩
      | _ => exact h
  | cancel => exact ⟨h.todo, h.position, h.report, h.completed⟩
  | panic msg => exact h.panic msg

/-- A transfer that is reported as finished has been copied, and the message names it. -/
theorem Genuine.copied {msg : Message} (h : u.Genuine) (hsends : u.Sends msg) (hst : msg.transferStatus = .finished) :
    msg.jobId ≠ "" ∧ msg.fileId ≠ 0 ∧
      ∃ t ∈ u.transfers, t.jobId = msg.jobId.toList ∧ t.fileId = msg.fileId ∧ ∃ c, Copied u.opts t c := by
  have hearned : u.Earned (run UrlCopy.UrlCopyProcess.step (.start u.transfers) u.events) :=
    h.runs.invariant (fun _ _ he hp => hp.step he) ⟨fun _ ht => ht, by simp [UrlCopy.UrlCopyProcess.start],
      by simp [UrlCopy.UrlCopyProcess.start], by simp [UrlCopy.UrlCopyProcess.start]⟩
  obtain ⟨done, hdone, t, hjob, hfile, herror, hmsg⟩ := hsends
  obtain ⟨hmem, hcopied⟩ := hearned.completed done hdone
  have hnone : t.error = none := by
    have hfinished : (t.sendTransferCompleted u.opts).transferStatus = .finished ↔ t.error = none :=
      UrlCopy.finished_iff t
    rw [← hfinished]
    have hstate := hmsg.transferStatus.symm.trans hst
    cases hsent : (t.sendTransferCompleted u.opts).transferStatus with
    | finished => rfl
    | failed => rw [hsent] at hstate; cases hstate
    | canceled => rw [hsent] at hstate; cases hstate
  have hids : (t.sendTransferCompleted u.opts).jobId = t.transfer.jobId ∧
      (t.sendTransferCompleted u.opts).fileId = t.transfer.fileId := by
    simp [UrlCopy.RunningTransfer.sendTransferCompleted, hnone]
  have hj : msg.jobId.toList = done.transfer.jobId := hmsg.jobId.trans (hids.1.trans hjob)
  have hf : msg.fileId = done.transfer.fileId := hmsg.fileId.trans (hids.2.trans hfile)
  obtain ⟨hjobId, hfileId⟩ := h.named done.transfer hmem
  refine ⟨fun hempty => hjobId ?_, fun hzero => hfileId (hf.symm.trans hzero), done.transfer, hmem, hj.symm, hf.symm,
    hcopied (herror.symm.trans hnone)⟩
  rw [← hj, hempty]
  rfl

end UrlCopyRun

/-! ## What the store says -/

/-- What uses the store: the server with a message of a process, or anything else with a call. -/
inductive Work where
  | message (node : Node) (msg : Message)
  | call (c : Call)

def Work.prog : Work → Op Unit
  | message node msg => performOtherMessageDbChange node msg
  | call c => c.prog.bind fun _ => .ret ()

theorem message_unfinishing {f : Nat} (node : Node) {msg : Message}
    (h : msg.transferStatus = .finished → msg.fileId ≠ f ∧ msg.jobId ≠ "" ∧ msg.fileId ≠ 0) :
    (performOtherMessageDbChange node msg).Issues (Stmt.Unfinishing f) := by
  have hlimit : (getRetry node msg.jobId).Issues (Stmt.Unfinishing f) := by
    refine Proc.Issues.bind (p := configuredRetry _) ?_ fun n => ?_
    · simp [configuredRetry]
    · cases n with
      | none => trivial
      | some n => simp
  have hretry : (scheduleRetry node msg).Issues (Stmt.Unfinishing f) := by
    unfold scheduleRetry
    split
    · refine hlimit.bind fun retry => ?_
      cases retry with
      | none => trivial
      | some n => simp [getRetryTimes, setRetryTransfer, Stmt.Unfinishing, Proc.ite_bind]
    · trivial
  have hstatus : Proc.Issues (Stmt.Unfinishing f) ((updateFileTransferStatusInternal node msg.status).bind fun _ =>
      (updateJobTransferStatusInternal node msg.jobId msg.transferStatus).bind fun _ => .ret ()) :=
    (updateFileTransferStatusInternal_unfinishing h).bind fun _ =>
      (updateJobTransferStatusInternal_unfinishing msg.jobId msg.transferStatus).bind fun _ => trivial
  refine hretry.bind fun retried => ?_
  simp only [Proc.issues_ite]
  exact ⟨fun _ => trivial, fun _ => ⟨fun _ => (terminateReuseProcess_unfinishing _ _ _ _).bind fun _ => hstatus,
    fun _ => hstatus⟩⟩

/-- A file that is stored as finished, after any interleaving of what the server makes of the messages and of other calls,
was finished before, has been copied by a process that names it, or has been declared finished by a call. -/
theorem finished_files_copied {runs : List UrlCopyRun} {works : List Work} {db : Db}
    (hruns : ∀ u ∈ runs, u.Genuine)
    (hsent : ∀ node msg, .message node msg ∈ works → msg.transferStatus = .finished → ∃ u ∈ runs, u.Sends msg)
    (hinitial : ∀ r ∈ db.files.rows, r.initialState ≠ "FINISHED") (schedule : List Nat) (r : FileRow)
    (hr : r ∈ (Pool.run Stmt.exec (Pool.start db (works.map Work.prog)) schedule).store.files.rows)
    (hst : r.fileState = .finished) :
    (∃ r₀ ∈ db.files.rows, r₀.fileId = r.fileId ∧ r₀.fileState = .finished) ∨
      (∃ u ∈ runs, ∃ t ∈ u.transfers, t.fileId = r.fileId ∧ ∃ c, Copied u.opts t c) ∨
      ∃ c, .call c ∈ works ∧ c.finishes r.fileId := by
  by_contra hnone
  rw [not_or, not_or] at hnone
  obtain ⟨hbefore, hcopied, hdeclared⟩ := hnone
  have hstart : db.Unfinished r.fileId :=
    ⟨fun r₀ hr₀ hf hfin => hbefore ⟨r₀, hr₀, hf, hfin⟩, hinitial⟩
  have hfollows : ∀ p ∈ works.map Work.prog, p.Follows (unfinishedRule r.fileId) (fun _ _ => True) () := by
    intro p hp
    obtain ⟨w, hw, rfl⟩ := List.mem_map.mp hp
    cases w with
    | message node msg =>
        refine (message_unfinishing node fun hfin => ?_).follows fun _ hs _ => hs
        obtain ⟨u, hu, hsends⟩ := hsent node msg hw hfin
        obtain ⟨hjob, hfile, t, ht, -, hid, hcopy⟩ := (hruns u hu).copied hsends hfin
        exact ⟨fun heq => hcopied ⟨u, hu, t, ht, hid.trans heq, hcopy⟩, hjob, hfile⟩
    | call c => exact (prog_follows fun hfin => hdeclared ⟨c, hw, hfin⟩).bind fun _ _ _ => trivial
  have hunfinished : Db.Unfinished r.fileId (Pool.run Stmt.exec (Pool.start db (works.map Work.prog)) schedule).store :=
    (Pool.followsAfter_start (K := unfinishedRule r.fileId) hstart hfollows).inv_run
      (fun _ _ _ hs hdb => Db.Unfinished.exec hs hdb) schedule
  exact hunfinished.file r hr rfl hst

/-- The source has 100 bytes, and so has the destination after the copy. -/
def copyingCalls : UrlCopy.Calls where
  sourceStat := .ok 100
  destinationStat := .gfal2Exception UrlCopy.ENOENT "No such file".toList
  copy := .ok ()
  finalStat := .ok 100

/-- A process with one transfer. -/
def copyingRun : UrlCopyRun where
  opts := {}
  jsonCpp := UrlCopy.JsonCpp.plainLibrary
  transfers := [{ jobId := ['j'], fileId := 1 }]
  events := List.replicate 4 (.next none)

def copiedMessage : Message where
  jobId := "j"
  fileId := 1
  transferStatus := .finished
  filesize := 100

def copyingDb : Db where
  files := .ofRows [{ fileId := 1, jobId := "j", fileState := .active, fileIndex := some 0 }]
  jobs := .ofRows [{ jobId := "j", jobState := .active, jobType := some .regular }]

theorem copyingRun_genuine : copyingRun.Genuine := by
  have hcopies : ∀ t ∈ copyingRun.transfers, ∃ c s,
      UrlCopy.runOne copyingRun.opts copyingRun.jsonCpp c t = .ok s ∧ s.transfer.error = none := by
    intro t ht
    obtain rfl := List.mem_singleton.mp ht
    refine ⟨copyingCalls, _, rfl, ?_⟩
    rw [(UrlCopy.handleThrown_runTransfer _ _ _ _).1]
    decide +kernel
  refine ⟨by decide, fun t ht => ?_, fun t ht => ?_, fun t ht => ?_, fun t ht => ?_, trivial⟩
  · cases ht
  · cases ht
  · cases ht
  · cases ht
    exact hcopies _ (List.mem_singleton_self _)

/-- The message of the process is handled, and its file is finished. -/
theorem finished_files_copied_sent :
    ∃ r ∈ (Pool.run Stmt.exec (Pool.start copyingDb ([.message { hostname := "a" } copiedMessage].map Work.prog))
        (List.replicate 40 0)).store.files.rows, r.fileState = .finished ∧
      ((∃ r₀ ∈ copyingDb.files.rows, r₀.fileId = r.fileId ∧ r₀.fileState = .finished) ∨
        (∃ u ∈ [copyingRun], ∃ t ∈ u.transfers, t.fileId = r.fileId ∧ ∃ c, Copied u.opts t c) ∨
        ∃ c, .call c ∈ [Work.message { hostname := "a" } copiedMessage] ∧ c.finishes r.fileId) := by
  have hstates : (Pool.run Stmt.exec (Pool.start copyingDb ([.message { hostname := "a" } copiedMessage].map Work.prog))
      (List.replicate 40 0)).store.files.rows.map (·.fileState) = [.finished] := by
    decide +kernel
  obtain ⟨r, hr, hst⟩ := List.mem_map.mp (hstates ▸ List.mem_singleton_self _)
  refine ⟨r, hr, hst, finished_files_copied ?_ ?_ (by decide) _ r hr hst⟩
  · simpa using copyingRun_genuine
  · intro node msg hmem _
    obtain ⟨rfl, rfl⟩ : node = { hostname := "a" } ∧ msg = copiedMessage := by simpa using hmem
    refine ⟨copyingRun, List.mem_singleton_self _, ⟨{ jobId := ['j'], fileId := 1 }, none⟩, by decide,
      { transfer := { jobId := ['j'], fileId := 1 }, fileSize := 100 }, rfl, rfl, rfl, ?_⟩
    constructor <;> rfl

end Fts3.Server
