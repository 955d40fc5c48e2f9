import Fts3.MySql.Lemmas.Replicas
import Fts3.MySql.Lemmas.Sanity

/-!
# Replicas

The files of a multiple replica job are replicas of one file: one of them is used, and when it fails the next
one is. The services that report on a transfer have taken it from the database, by a query that does not
return what is `NOT_USED`.
-/

namespace Fts3.MySql

open Fts3.Sql

/-! ## Who reports on a replica -/

/-- What a service does with a transfer: the statuses of a message or of a claim, a retry, the states of a
staging request. -/
inductive Report where
  | updateTransferStatus (a : TransferStatus)
  | updateJobStatus (state : FileState)
  | setRetryTransfer (retryNo : Int) (reason logFile : String) (timedOut : Bool)
  | updateStagingState (state : FileState) (reason : String) (retry : Bool) (hashedId : Nat)

def Report.reported : Report → FileState
  | updateTransferStatus a => a.newFileState
  | updateJobStatus state => state
  | setRetryTransfer _ _ _ _ => .submitted
  | updateStagingState state _ _ _ => state

def Report.prog (node : Node) (r : FileRow) : Report → Op Unit
  | updateTransferStatus a => do
      let _ ← updateFileTransferStatusInternal node { a with jobId := r.jobId, fileId := r.fileId }
      pure ()
  | updateJobStatus state => do
      let _ ← updateJobTransferStatusInternal node r.jobId state
      pure ()
  | setRetryTransfer retryNo reason logFile timedOut =>
      MySql.setRetryTransfer node r.jobId r.fileId retryNo reason logFile timedOut
  | updateStagingState state reason retry hashedId =>
      updateStagingStateInternal node [({ jobId := r.jobId, fileId := r.fileId, state, reason, retry }, hashedId)]

/-- An executor, a message processor, the reaper of stalled transfers or a staging service: it has taken the
transfer from the database and reports on it, any number of times. Nobody reports `NOT_USED`. -/
structure Worker where
  node : Node
  fileId : Nat
  reports : List Report
  reported : ∀ report ∈ reports, report.reported ≠ .notUsed

def Worker.prog (w : Worker) : Op Unit := do
  let file ← select .rows fun db => (db.files.find? w.fileId).filter fun r => r.fileState ≠ .notUsed
  match file with
  | none => pure ()
  | some r => w.reports.forM (Report.prog w.node r)

inductive Party where
  | worker (w : Worker)
  | checkSanityState (node : Node)
  | multihopSanitySate (node : Node)

def Party.prog : Party → Op Unit
  | worker w => w.prog
  | checkSanityState node => MySql.checkSanityState node
  | multihopSanitySate node => MySql.multihopSanitySate node

abbrev Parties := Pool Db Sel Stmt Unit

def Parties.after (db : Db) (parties : List Party) (schedule : List Nat) : Parties :=
  (Pool.start db (parties.map Party.prog)).run Stmt.exec schedule

/-- The job as it is submitted: one replica is live, the others are `NOT_USED`. -/
structure MultireplicaJob (j : String) (db : Db) : Prop where
  type : ∃ job, db.jobs.find? j = some job ∧ job.jobType = some .multipleReplica
  live : ∃ a ∈ db.filesOf j, a.fileState.live = true ∧
    ∀ b ∈ db.filesOf j, b.fileId ≠ a.fileId → b.fileState = .notUsed

/-! ## The parties -/

section parties

variable {j : String} {F : Nat → Prop} {node : Node} {db : Db}

theorem Report.within {report : Report} (hrep : report.reported ≠ .notUsed) {r : FileRow} (hdb : Replicas j F db)
    (hr : Taken j r.jobId r.fileId db) :
    (report.prog node r).Within (replicaContract j) (Replicas j F) db := by
  cases report with
  | updateTransferStatus a =>
      exact (updateTransferStatus_replica (a := { a with jobId := r.jobId, fileId := r.fileId }) hrep hdb hr).bind
        fun _ _ h => .ret h
  | updateJobStatus st =>
      exact ((allows_onReplica j F).within (updateJob_onReplica node r.jobId st) hdb).bind fun _ _ h => .ret h
  | setRetryTransfer n reason log timedOut =>
      refine Op.Within.of_or (f := r.fileId) ((allows_onReplica j _).within ?_ (hdb.or hr))
      simp [Report.prog, MySql.setRetryTransfer, Stmt.OnReplica]
  | updateStagingState st reason retry hashed =>
      refine Op.Within.of_or (f := r.fileId) (updateStagingStateInternal_within (allows_onReplica j _) ?_ ?_ ?_
        (fun _ => trivial) ?_ ?_ (fun _ _ _ => updateJob_onReplica _ _ _) (hdb.or hr))
      · intro i _ db hdb hty db' hdb'
        exact useNextHop_spares (type_ne_of_multiHop hdb.1 hty) hdb'
      · simp [Stmt.OnReplica]
      · simp [Stmt.OnReplica]
      · simp [Stmt.OnReplica]
      · have hst : st ≠ .notUsed := hrep
        simpa [Stmt.OnReplica] using hst

theorem Worker.within (w : Worker) (hdb : Replicas j F db) :
    w.prog.Within (replicaContract j) (Replicas j F) db := by
  simp only [Worker.prog, Proc.bind_eq, select_bind]
  intro db₁ h₁
  have hdb₁ : Replicas j F db₁ := ReplicasKept.replicas h₁.rely hdb
  dsimp only
  cases hfile : (db₁.files.find? w.fileId).filter fun r => decide (r.fileState ≠ .notUsed) with
  | none => exact hdb₁
  | some r =>
      rw [Option.filter_eq_some_iff, decide_eq_true_eq] at hfile
      refine Op.Within.forM_of (T := fun _ => Taken j r.jobId r.fileId)
        (fun _ _ _ h => h.taken) (fun report hrep db hdb hr => ?_) hdb₁
        fun _ _ => taken_of_row (Table.mem_of_find? hfile.1) hfile.2
      exact Report.within (w.reported report hrep) hdb hr

theorem recoverFile_within {st : FileState} (hst : st ≠ .notUsed) (message : String) {r : FileRow}
    (hdb : Replicas j F db) (hr : Taken j r.jobId r.fileId db) :
    (recoverFile node st message r).Within (replicaContract j) (Replicas j F) db := by
  have hfile : (updateFileTransferStatusInternal node
      { jobId := r.jobId, fileId := r.fileId, newFileState := st, errorReason := message }).Within
      (replicaContract j) (Replicas j F) db := updateTransferStatus_replica hst hdb hr
  refine hfile.bind fun _ db hdb => ?_
  exact ((allows_onReplica j F).within (updateJob_onReplica node r.jobId st) hdb).bind fun _ _ h => .ret h

/-- Once a replica has finished no other one is live, so there is nothing that the check could reset. -/
theorem fixMultireplicaFinished_harmless {j' : String} (hfin : j' = j → ∃ r ∈ db.filesOf j, r.fileState = .finished)
    (hcost : replicaCost (db.filesOf j) ≤ 1) : (FileUpdate.fixMultireplicaFinished j').Harmless j db := by
  intro r hr hsel
  simp only [FileUpdate.selects, Bool.and_eq_true, decide_eq_true_eq] at hsel
  obtain ⟨r₀, hr₀, hst₀⟩ := hfin (hsel.2.symm.trans (mem_filesOf.mp hr).2)
  have hany : ((db.filesOf j).any fun r => r.fileState = .finished) = true :=
    List.any_eq_true.mpr ⟨r₀, hr₀, by simpa using hst₀⟩
  have hlive : r.fileState.live = true := by
    rcases List.mem_cons.mp hsel.1 with h | h
    · rw [h]
      rfl
    · rw [List.mem_singleton.mp h]
      rfl
  have hpos : 0 < (db.filesOf j).countP fun r => r.fileState.live := List.countP_pos_iff.mpr ⟨r, hr, hlive⟩
  rw [replicaCost, hany, Bool.toNat_true] at hcost
  omega

theorem fixJobOfRow_within (job : JobRow) (hdb : Replicas j F db) :
    (fixJobOfRow job).Within (replicaContract j) (Replicas j F) db := by
  simp only [fixJobOfRow, Proc.bind_eq, select_bind]
  intro db₁ h₁
  have hdb₁ : Replicas j F db₁ := ReplicasKept.replicas h₁.rely hdb
  simp only [fixJob]
  split
  · exact (allows_onReplica j F).within (by simp [fixEmptyJob, Stmt.OnReplica]) hdb₁
  · split
    · refine (allows_onReplica j F).within ?_ hdb₁
      simp [fixNonTerminalJob, Stmt.OnReplica]
    · split
      · rename_i hfin
        rw [stateCount_finished] at hfin
        obtain ⟨r, hr, hst⟩ := List.countP_pos_iff.mp hfin
        intro db₂ h₂
        have hdb₂ : Replicas j F db₂ := ReplicasKept.replicas h₂.rely hdb₁
        have hsafe : (FileUpdate.fixMultireplicaFinished job.jobId).Harmless j db₂ := by
          refine fixMultireplicaFinished_harmless (fun hj => ?_) h₂.budget
          subst hj
          exact ReplicasKept.finished h₂.rely ⟨r, hr, by simpa using hst⟩
        refine ⟨trivial, hsafe.kept, 0, Nat.le_trans (Nat.le_add_right _ _) hsafe.cost, ?_⟩
        exact (allows_onReplica j F).within (by simp [Stmt.OnReplica]) (hsafe.kept.replicas hdb₂)
      · refine (allows_onReplica j F).within ?_ hdb₁
        simp [Stmt.OnReplica]

theorem recoverRows_within {γ : Type} {rows : List γ} {g : γ → FileRow} {body : γ → Op Unit} {db₀ : Db}
    (h₀ : ReplicasKept j db₀ db) (hrows : ∀ x ∈ rows, g x ∈ db₀.files.rows ∧ (g x).fileState ≠ .notUsed)
    (hbody : ∀ x db, Replicas j F db → Taken j (g x).jobId (g x).fileId db →
      (body x).Within (replicaContract j) (Replicas j F) db)
    (hdb : Replicas j F db) : Op.Within (replicaContract j) (Replicas j F) (rows.forM body) db :=
  Op.Within.forM_of (T := fun x => Taken j (g x).jobId (g x).fileId)
    (fun _ _ _ h => h.taken) (fun x _ db => hbody x db) hdb
    fun x hx => h₀.taken (taken_of_row (hrows x hx).1 (hrows x hx).2)

/-- The body of the loops over stalled requests. -/
theorem recoverOverdue_within {overdue : Prop} [Decidable overdue] {message : String} {u : FileUpdate} {r : FileRow}
    (hu : Stmt.OnReplica j F (.file u)) (hdb : Replicas j F db) (hr : Taken j r.jobId r.fileId db) :
    Op.Within (replicaContract j) (Replicas j F)
      (if overdue then do
        recoverFile node .failed message r
        let _ ← updateFile u
        pure ()
      else pure ()) db := by
  split
  · refine (recoverFile_within (by decide) _ hdb hr).bind fun _ db hdb => ?_
    exact (allows_onReplica j F).within ⟨hu, fun _ => trivial⟩ hdb
  · exact hdb

theorem recoverFromDeadHosts_within (hdb : Replicas j F db) :
    (recoverFromDeadHosts node).Within (replicaContract j) (Replicas j F) db := by
  have hI := (allows_onReplica j F).stable
  simp only [recoverFromDeadHosts, Proc.bind_eq, select_bind]
  intro db₁ h₁
  refine Op.Within.forM (fun host _ db hdb => ?_) (hI _ _ h₁.rely hdb)
  intro db₂ h₂
  refine recoverRows_within (g := id) (.refl _) (fun r hr => ?_)
    (fun r db hdb hr => recoverFile_within (by decide) _ hdb hr) (hI _ _ h₂.rely hdb)
  obtain ⟨hmem, hst⟩ := List.mem_filter.mp hr
  simp only [Bool.and_eq_true, decide_eq_true_eq] at hst
  exact ⟨hmem, by simp [hst.1]⟩

theorem recoverStalledStaging_within (hdb : Replicas j F db) :
    (recoverStalledStaging node).Within (replicaContract j) (Replicas j F) db := by
  have hI := (allows_onReplica j F).stable
  simp only [recoverStalledStaging, Proc.bind_eq, select_bind, beginTx_bind]
  intro db₁ h₁ db₂ h₂
  refine (recoverRows_within (g := Prod.fst) h₂.rely (fun x hx => ?_) (fun x db hdb hx => ?_)
    (hI _ _ h₂.rely (hI _ _ h₁.rely hdb))).bind fun _ db hdb db' h => hI _ _ h.rely hdb
  · obtain ⟨r, hr, hx⟩ := List.mem_filterMap.mp hx
    split at hx
    · rename_i hst
      obtain ⟨job, -, rfl⟩ := Option.map_eq_some_iff.mp hx
      exact ⟨hr, by simp [hst]⟩
    · cases hx
  · exact recoverOverdue_within trivial hdb hx

theorem recoverStalledArchiving_within (hdb : Replicas j F db) :
    (recoverStalledArchiving node).Within (replicaContract j) (Replicas j F) db := by
  have hI := (allows_onReplica j F).stable
  simp only [recoverStalledArchiving, Proc.bind_eq, select_bind, beginTx_bind]
  intro db₁ h₁ db₂ h₂
  refine (recoverRows_within (g := Prod.fst) h₂.rely (fun x hx => ?_) (fun x db hdb hx => ?_)
    (hI _ _ h₂.rely (hI _ _ h₁.rely hdb))).bind fun _ db hdb db' h => hI _ _ h.rely hdb
  · obtain ⟨r, hr, hx⟩ := List.mem_filterMap.mp hx
    split at hx
    · rename_i hst
      obtain ⟨job, -, rfl⟩ := Option.map_eq_some_iff.mp hx
      exact ⟨hr, by simp [hst.1]⟩
    · cases hx
  · exact recoverOverdue_within trivial hdb hx

theorem checkSanityState_within (hdb : Replicas j F db) :
    (checkSanityState node).Within (replicaContract j) (Replicas j F) db := by
  have hI := (allows_onReplica j F).stable
  unfold checkSanityState
  split
  · exact hdb
  · refine Op.Within.bind (p := fixJobNonTerminallAllFilesTerminal) ?_ fun _ db hdb => ?_
    · intro db₁ h₁ db₂ h₂
      refine (Op.Within.forM (fun job _ db hdb => fixJobOfRow_within job hdb)
        (hI _ _ h₂.rely (hI _ _ h₁.rely hdb))).bind fun _ db hdb db' h => hI _ _ h.rely hdb
    refine Op.Within.bind (p := fixJobTerminalFileNonTerminal) ?_ fun _ db hdb => ?_
    · refine (allows_onReplica j F).within (fun _ => (Proc.issues_forM _ _ fun _ _ => ?_).bind fun _ => trivial) hdb
      simp [Stmt.OnReplica]
    refine Op.Within.bind (p := fixDeleteInconsistencies) ?_ fun _ db hdb => ?_
    · refine (allows_onReplica j F).within (fun _ => (Proc.issues_forM _ _ fun _ _ => ?_).bind fun _ => trivial) hdb
      simp [Stmt.OnReplica]
    exact (recoverFromDeadHosts_within hdb).bind fun _ db hdb =>
      (recoverStalledStaging_within hdb).bind fun _ db hdb => recoverStalledArchiving_within hdb

/-- The repair of multihop jobs has nothing to do with replicas. -/
theorem multihopSanitySate_spares (hdb : Replicas j F db) :
    (multihopSanitySate node).Within (replicaContract j) (Replicas j F) db := by
  have hI := (allows_onReplica j F).stable
  unfold multihopSanitySate
  split
  · exact hdb
  · simp only [fixFilesInNotUsedState, Proc.bind_eq, beginTx_bind, select_bind]
    intro db₁ h₁ db₂ h₂
    have hdb₂ := hI _ _ h₂.rely (hI _ _ h₁.rely hdb)
    refine (Op.Within.forM (fun j' hj' db hdb => ?_) hdb₂).bind fun _ db hdb db' h => hI _ _ h.rely hdb
    have hne : j' ≠ j := by
      rintro rfl
      obtain ⟨job', hjob', hid⟩ := List.mem_map.mp hj'
      obtain ⟨hmem, hty'⟩ := List.mem_filter.mp hjob'
      obtain ⟨job, hjob, hty⟩ := hdb₂.1
      have hfind := Table.find?_key hmem
      rw [hid, hjob] at hfind
      simp only [Bool.and_eq_true, decide_eq_true_eq] at hty'
      rw [Option.some.inj hfind, JobRow.type, hty'.2] at hty
      cases hty
    simp only [fixStuckHop, Proc.bind_eq, select_bind]
    intro db₃ h₃
    have hdb₃ := hI _ _ h₃.rely hdb
    dsimp only
    split
    · exact hdb₃
    · intro db₄ h₄
      have hdb₄ := hI _ _ h₄.rely hdb₃
      dsimp only
      split
      · intro db₅ h₅
        have hsafe : ∀ i, (FileUpdate.fixFilesInNotUsedState j' i).Harmless j db₅ := by
          intro i r hr hsel
          simp only [FileUpdate.selects, Bool.and_eq_true, decide_eq_true_eq] at hsel
          exact absurd (hsel.2.symm.trans (mem_filesOf.mp hr).2) hne
        exact ⟨trivial, (hsafe _).kept, 0, Nat.le_trans (Nat.le_add_right _ _) (hsafe _).cost,
          (hsafe _).kept.replicas (hI _ _ h₅.rely hdb₄)⟩
      · exact hdb₄

theorem Party.within (p : Party) (hdb : Replicas j F db) :
    p.prog.Within (replicaContract j) (Replicas j F) db := by
  cases p with
  | worker w => exact w.within hdb
  | checkSanityState node => exact checkSanityState_within hdb
  | multihopSanitySate node => exact multihopSanitySate_spares hdb

end parties

/-! ## The runs -/

theorem MultireplicaJob.cost {j : String} {db : Db} (h : MultireplicaJob j db) :
    replicaCost (db.filesOf j) ≤ 1 := by
  obtain ⟨a, ha, hlive, hrest⟩ := h.live
  have hst : ∀ r ∈ db.filesOf j, r.fileState = .notUsed ∨ r = a := by
    intro r hr
    by_cases hid : r.fileId = a.fileId
    · exact .inr (eq_of_mem_filesOf hr ha hid)
    · exact .inl (hrest r hr hid)
  have hone : (db.filesOf j).countP (fun r => r.fileState.live) ≤ 1 := by
    refine countP_le_one_of_eq (db.files.select_nodup _) fun x hx y hy hlx hly => ?_
    have heq : ∀ z ∈ db.filesOf j, z.fileState.live = true → z = a := by
      intro z hz hlz
      refine (hst z hz).resolve_left fun h => ?_
      rw [h] at hlz
      cases hlz
    rw [heq x hx hlx, heq y hy hly]
  have hany : ((db.filesOf j).any fun r => r.fileState = .finished) = false := by
    rw [List.any_eq_false]
    intro r hr hfin
    rw [decide_eq_true_eq] at hfin
    rcases hst r hr with h | rfl
    · rw [h] at hfin
      cases hfin
    · rw [hfin] at hlive
      cases hlive
  rw [replicaCost, hany]
  simpa using hone

theorem FileState.live_of_inProgress {st : FileState} (h : st.inProgress = true) : st.live = true := by
  cases st <;> first | rfl | cases h

/-- At every moment of every run at most one replica is in progress. -/
theorem at_most_one_live_replica (j : String) (db : Db) (parties : List Party) (schedule : List Nat)
    (hdb : MultireplicaJob j db) : (Parties.after db parties schedule).store.AtMostOneLive j := by
  have hreplicas : Replicas j (fun _ => False) db := by
    obtain ⟨job, hjob, hty⟩ := hdb.type
    exact ⟨⟨job, hjob, by rw [JobRow.type, hty]; rfl⟩, by simp⟩
  have hstart : (Pool.start db (parties.map Party.prog)).HonorsWith Stmt.exec (replicaContract j)
      (List.replicate (parties.map Party.prog).length 0) := by
    refine Pool.honorsWith_start hdb.cost fun p hp => ?_
    obtain ⟨party, -, rfl⟩ := List.mem_map.mp hp
    exact (party.within hreplicas).honors
  have hcost : replicaCost ((Parties.after db parties schedule).store.filesOf j) ≤ 1 :=
    (hstart.run schedule fun _ _ => trivial).2
  have hmono : ((Parties.after db parties schedule).store.filesOf j).countP (·.fileState.inProgress) ≤
      ((Parties.after db parties schedule).store.filesOf j).countP (·.fileState.live) :=
    List.countP_mono_left fun r _ h => FileState.live_of_inProgress h
  unfold replicaCost at hcost
  unfold Db.AtMostOneLive
  omega

def twoReplicas : Db where
  files := .ofRows [
    { fileId := 1, jobId := "j", fileState := .submitted, fileIndex := some 0, destSurlUuid := some "u" },
    { fileId := 2, jobId := "j", fileState := .notUsed, fileIndex := some 0 }]
  jobs := .ofRows [{ jobId := "j", jobState := .submitted, jobType := some .multipleReplica }]

theorem multireplicaJob_twoReplicas : MultireplicaJob "j" twoReplicas where
  type := ⟨_, rfl, rfl⟩
  live := by decide

/-- The transfer of the first replica starts and fails. -/
def failedReplica : Worker where
  node := { hostname := "a" }
  fileId := 1
  reports := [.updateTransferStatus { jobId := "", fileId := 0, newFileState := .ready },
    .updateTransferStatus { jobId := "", fileId := 0, newFileState := .failed }]
  reported := by decide

/-- Two services report the failure, and the sanity checks run. -/
theorem at_most_one_live_replica_failedReplica :
    (Parties.after twoReplicas [.worker failedReplica, .worker failedReplica, .checkSanityState { hostname := "a" }]
      (List.replicate 10 1 ++ List.replicate 40 0 ++ List.replicate 40 2 ++ List.replicate 40 1)).store.AtMostOneLive "j" ∧
    (Parties.after twoReplicas [.worker failedReplica, .worker failedReplica, .checkSanityState { hostname := "a" }]
      (List.replicate 10 1 ++ List.replicate 40 0 ++ List.replicate 40 2 ++ List.replicate 40 1)).store.fileState? 2 =
        some .submitted :=
  ⟨at_most_one_live_replica "j" twoReplicas _ _ multireplicaJob_twoReplicas, by decide⟩

end Fts3.MySql
