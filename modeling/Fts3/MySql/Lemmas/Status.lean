import Fts3.Sql.Contract
import Fts3.MySql.Lemmas.Writes

/-!
# The status operations under a contract

`updateTransferStatus` honors a contract that its compare-and-set and what follows it honor, and so on: one
rule for each operation, whatever the contract is.
-/

namespace Fts3.MySql

open Fts3.Sql

variable {K : Contract Db Sel Stmt} {I : Db → Prop} {node : Node}

/-- From a store with `I` on, which the others keep, every statement with `P` is within the contract. -/
structure Allows (K : Contract Db Sel Stmt) (I : Db → Prop) (P : Stmt → Prop) : Prop where
  stable : ∀ db db', K.rely db db' → I db → I db'
  update : ∀ u db db', P u → I db → K.Ready (.update u) 0 db db' →
    K.promise u db db' ∧ K.rely db' (u.exec db').2 ∧ K.cost (u.exec db').2 ≤ K.cost db'

/-- The client is within the contract, and ends in a store with `I`. -/
def Op.Within {β : Type} (K : Contract Db Sel Stmt) (I : Db → Prop) (p : Op β) (db : Db) : Prop :=
  p.Honors Stmt.exec K (fun _ _ db => I db) 0 db

theorem Allows.within {β : Type} {P : Stmt → Prop} {p : Op β} {db : Db} (h : Allows K I P) (hp : p.Issues P)
    (hdb : I db) : p.Within K I db :=
  hp.honors h.stable h.update hdb

namespace Op.Within

variable {β γ : Type} {db : Db}

theorem ret {b : β} (h : I db) : Op.Within K I (Proc.ret b) db := h

theorem bind {p : Op β} {f : β → Op γ} (hp : p.Within K I db) (hf : ∀ b db, I db → (f b).Within K I db) :
    Op.Within K I (Proc.bind p f) db :=
  Proc.Honors.bind (fun b g db hdb => (hf b db hdb).weaken (Nat.zero_le g)) hp

theorem forM {xs : List γ} {f : γ → Op PUnit} (hf : ∀ x ∈ xs, ∀ db, I db → (f x).Within K I db) (hdb : I db) :
    Op.Within K I (xs.forM f) db :=
  Proc.honors_forM hf hdb

/-- A loop over what is known of each of its items. -/
theorem forM_of {T : γ → Db → Prop} {xs : List γ} {f : γ → Op PUnit}
    (hT : ∀ x db db', K.rely db db' → T x db → T x db')
    (hf : ∀ x ∈ xs, ∀ db, I db → T x db → (f x).Within K I db) (hdb : I db) (hxs : ∀ x ∈ xs, T x db) :
    Op.Within K I (xs.forM f) db := by
  have hloop : Op.Within K (fun db => I db ∧ ∀ x ∈ xs, T x db) (xs.forM f) db := by
    refine forM (fun x hx db hdb => ?_) ⟨hdb, hxs⟩
    refine Proc.Honors.stable (hf x hx db hdb.1 (hdb.2 x hx)) (I := fun db => ∀ x ∈ xs, T x db) ?_ hdb.2
    exact fun _ _ hr h x hx => hT x _ _ hr (h x hx)
  exact Proc.Honors.mono (fun _ _ _ h => h.1) hloop

theorem honors {p : Op β} (hp : p.Within K I db) : p.Honors Stmt.exec K (fun _ _ _ => True) 0 db :=
  Proc.Honors.mono (fun _ _ _ _ => trivial) hp

end Op.Within

theorem honorsWith_init {db : Db} {calls : List Call} (hcost : K.cost db ≤ K.budget)
    (h : ∀ c ∈ calls, c.prog.Honors Stmt.exec K (fun _ _ _ => True) 0 db) :
    (System.init db calls).HonorsWith Stmt.exec K (List.replicate (calls.map Call.prog).length 0) := by
  refine Pool.honorsWith_start hcost fun p hp => ?_
  obtain ⟨c, hc, rfl⟩ := List.mem_map.mp hp
  exact h c hc

/-- The file, if there is one, is a file of the job. -/
def FileOf (j : String) (f : Nat) (db : Db) : Prop :=
  ∀ r, db.files.find? f = some r → r.jobId = j

/-! ## The next replica or hop -/

theorem minNotUsed_mem_of_unused {j : String} {db : Db} {r : FileRow} (hr : r ∈ db.filesOf j)
    (hst : r.fileState = .notUsed) :
    ∃ r' ∈ db.filesOf j, r'.fileState = .notUsed ∧ r'.fileId = minNotUsed j db := by
  unfold minNotUsed
  have hmem : r.fileId ∈ ((db.filesOf j).filter fun r => r.fileState = .notUsed).map (·.fileId) :=
    List.mem_map_of_mem (List.mem_filter.mpr ⟨hr, by simpa using hst⟩)
  cases hmin : (((db.filesOf j).filter fun r => r.fileState = .notUsed).map (·.fileId)).min? with
  | none =>
      rw [List.min?_eq_none_iff] at hmin
      rw [hmin] at hmem
      cases hmem
  | some f =>
      obtain ⟨r', hr', hf⟩ := List.mem_map.mp (List.min?_mem hmin)
      obtain ⟨hmem', hst'⟩ := List.mem_filter.mp hr'
      exact ⟨r', hmem', by simpa using hst', by simpa using hf⟩

theorem minNotUsed_mem {j : String} {db : Db} (h : minNotUsed j db ≠ 0) :
    ∃ r ∈ db.filesOf j, r.fileState = .notUsed ∧ r.fileId = minNotUsed j db := by
  by_cases hleft : ∃ r ∈ db.filesOf j, r.fileState = .notUsed
  · obtain ⟨r, hr, hst⟩ := hleft
    exact minNotUsed_mem_of_unused hr hst
  · have hnil : (db.filesOf j).filter (fun r => r.fileState = .notUsed) = [] := by
      rw [List.filter_eq_nil_iff]
      exact fun r hr hst => hleft ⟨r, hr, by simpa using hst⟩
    exact absurd (by simp [minNotUsed, hnil]) h

theorem minNotUsed_le {j : String} {db : Db} {r : FileRow} (hr : r ∈ db.filesOf j)
    (hst : r.fileState = .notUsed) : minNotUsed j db ≤ r.fileId := by
  unfold minNotUsed
  have hmem : r.fileId ∈ ((db.filesOf j).filter fun r => r.fileState = .notUsed).map (·.fileId) :=
    List.mem_map_of_mem (List.mem_filter.mpr ⟨hr, by simpa using hst⟩)
  cases hmin : (((db.filesOf j).filter fun r => r.fileState = .notUsed).map (·.fileId)).min? with
  | none =>
      rw [List.min?_eq_none_iff] at hmin
      rw [hmin] at hmem
      cases hmem
  | some f => exact (List.min?_eq_some_iff.mp hmin).2 _ hmem

/-! ## The status of a file -/

/-- The compare-and-set, and what follows it when it has matched the file. -/
theorem storeFileState_honors {a : TransferStatus} {j : String} {f : Nat} {job : JobInfo}
    {stored : Option FileState} {uuid : Option String} {archiving : Bool}
    {Ψ : Bool × Option FileState → Db → Prop} {db : Db}
    (href : refused stored a.newFileState a.processId = false)
    (harch : archiving = true → a.newFileState = .finished)
    (h : ∀ u : StatusUpdate, u.fileId = f → u.oldState = stored → u.requested = a.newFileState → u.Issued →
      ∀ db₁, K.Ready (.update (.file (.updateFileTransferStatus u))) 0 db db₁ →
      K.promise (.file (.updateFileTransferStatus u)) db db₁ ∧
      K.rely db₁ ((Stmt.file (.updateFileTransferStatus u)).exec db₁).2 ∧
      ∃ g, K.cost ((Stmt.file (.updateFileTransferStatus u)).exec db₁).2 + g ≤ K.cost db₁ ∧
      ∀ db₂, K.rely ((Stmt.file (.updateFileTransferStatus u)).exec db₁).2 db₂ →
        (((Stmt.file (.updateFileTransferStatus u)).exec db₁).1 = 0 → Ψ (false, stored) db₂) ∧
        (((Stmt.file (.updateFileTransferStatus u)).exec db₁).1 ≠ 0 →
          (afterFileUpdate node j f job u.newState uuid).Honors Stmt.exec K (fun _ _ => Ψ (true, none)) g db₂)) :
    (storeFileState node a j f job stored uuid archiving).Honors Stmt.exec K (fun x _ => Ψ x) 0 db := by
  rw [storeFileState_eq]
  intro db₁ h₁
  have hissued : (a.update node f job stored archiving).Issued := by
    refine ⟨href, ?_⟩
    cases archiving with
    | false => exact .inl rfl
    | true => exact .inr ⟨harch rfl, rfl⟩
  obtain ⟨hpromise, hrely, g, hcost, hrest⟩ := h (a.update node f job stored archiving) rfl rfl rfl hissued db₁ h₁
  refine ⟨hpromise, hrely, g, hcost, ?_⟩
  dsimp only
  split
  · rename_i hm
    exact fun db₂ h₂ => (hrest db₂ h₂.rely).1 hm
  · rename_i hm
    rw [commit_bind, Proc.honors_tx]
    intro db₂ h₂
    exact Proc.Honors.bind (fun _ _ _ h => h) ((hrest db₂ h₂.rely).2 hm)

section file

variable {a : TransferStatus} {Ψ : Bool × Option FileState → Db → Prop}
  (hI : ∀ db db', K.rely db db' → I db → I db')

include hI

theorem updateFileState_honors {j : String} {f : Nat} {J : JobInfo → Db → Prop}
    (hend : ∀ x db, I db → Ψ x db) (hJ : ∀ job db db', K.rely db db' → J job db → J job db')
    (hjob : ∀ db, I db → J (jobInfo node j db) db)
    (hstore : ∀ job stored uuid archiving db, I db → J job db →
      refused stored a.newFileState a.processId = false → (archiving = true → a.newFileState = .finished) →
      (storeFileState node a j f job stored uuid archiving).Honors Stmt.exec K (fun x _ => Ψ x) 0 db)
    {db : Db} (hdb : I db) : (updateFileState node a j f).Honors Stmt.exec K (fun x _ => Ψ x) 0 db := by
  simp only [updateFileState, Proc.bind_eq, select_bind, Proc.honors_select]
  intro db₁ h₁ db₂ h₂
  have hI₁ := hI _ _ h₁.rely hdb
  have hI₂ := hI _ _ h₂.rely hI₁
  have hJ₂ := hJ _ _ _ h₂.rely (hjob db₁ hI₁)
  split
  · exact fun db₃ h₃ => hend _ _ (hI _ _ h₃.rely hI₂)
  · rename_i href
    rw [Bool.not_eq_true] at href
    split
    · rename_i hfin
      have hselect : (isArchivingTransfer j (jobInfo node j db₁).jobType
          (jobInfo node j db₁).archiveTimeout).Issues fun _ => False := by
        simp only [isArchivingTransfer, getNextHop]
        split <;> simp
      refine (hselect.honors (K := K) (I := fun db => I db ∧ J (jobInfo node j db₁) db) ?_ (by simp)
        ⟨hI₂, hJ₂⟩).bind ?_
      · exact fun _ _ hr h => ⟨hI _ _ hr h.1, hJ _ _ _ hr h.2⟩
      · rintro archiving g db₃ ⟨hI₃, hJ₃⟩
        exact (hstore _ _ _ _ _ hI₃ hJ₃ href fun _ => hfin).weaken (Nat.zero_le g)
    · exact hstore _ _ _ _ _ hI₂ hJ₂ href (by simp)

/-- The transfer is the one of the message or, looked up by its process, an `ACTIVE` one. -/
theorem updateFileTransferStatusInternal_honors {T : String → Nat → Db → Prop}
    (hT : ∀ j f db db', K.rely db db' → T j f db → T j f db')
    (hactive : ∀ db r, I db → r ∈ db.files.rows → r.fileState = .active → T r.jobId r.fileId db)
    (hstate : ∀ j f db, I db → T j f db → (updateFileState node a j f).Honors Stmt.exec K (fun x _ => Ψ x) 0 db)
    {db : Db} (hdb : I db) (hown : T a.jobId a.fileId db) :
    (updateFileTransferStatusInternal node a).Honors Stmt.exec K (fun x _ => Ψ x) 0 db := by
  simp only [updateFileTransferStatusInternal, Proc.bind_eq, beginTx_bind, Proc.honors_tx]
  intro db₁ h₁
  have hI₁ := hI _ _ h₁.rely hdb
  have hown₁ := hT _ _ _ _ h₁.rely hown
  unfold fileToUpdate
  split
  · intro db₂ h₂
    have hI₂ := hI _ _ h₂.rely hI₁
    cases hfind : db₂.files.rows.find? (fun r => r.pid = some a.processId && r.fileState = .active) with
    | none =>
        simp only [Proc.ret_bind, hfind, Option.map_none, Option.getD_none]
        exact hstate _ _ _ hI₂ (hT _ _ _ _ h₂.rely hown₁)
    | some r =>
        have hact := List.find?_some hfind
        simp only [Bool.and_eq_true, decide_eq_true_eq] at hact
        simp only [Proc.ret_bind, hfind, Option.map_some, Option.getD_some]
        exact hstate _ _ _ hI₂ (hactive _ r hI₂ (List.mem_of_find?_eq_some hfind) hact.2)
  · exact hstate _ _ _ hI₁ hown₁

end file

/-! ## Staging and archiving -/

section staging

variable {P : Stmt → Prop} {db : Db} (h : Allows K I P)

include h

theorem stagingEnded_within {i : MinFileStatus FileState} {hashedId : Nat}
    (hhop : ∀ db, I db → ((db.jobs.find? i.jobId).map (·.type)).getD node.uninitialized = .multiHop →
      ∀ db, I db → (useNextHop i.jobId).Within K I db)
    (hsub : P (.file (.stagingSubmitted i.fileId hashedId)))
    (hterm : ∀ reason, P (.file (.stagingTerminal i.fileId i.state reason))) (hdb : I db) :
    (stagingEnded node i hashedId).Within K I db := by
  have hstore : ∀ st reason, (st ≠ .submitted → st = i.state) → ∀ db, I db → Op.Within K I
      (if st = .submitted then do
        let _ ← updateFile (.stagingSubmitted i.fileId hashedId)
        pure ()
      else do
        let _ ← updateFile (.stagingTerminal i.fileId st reason)
        pure ()) db := by
    intro st reason hst db hdb
    refine h.within ?_ hdb
    split
    · simp [hsub]
    · rename_i hne
      simp [hst hne, hterm]
  simp only [stagingEnded, Proc.bind_eq, select_bind]
  intro db₁ h₁
  have hI₁ := h.stable _ _ h₁.rely hdb
  dsimp only
  by_cases hin : db₁.files.matched (fun r =>
    decide (r.fileId = i.fileId) && r.sourceSurl.isSome && decide (r.sourceSurl = r.destSurl)) = 0
  · rw [if_pos hin]
    refine hstore _ _ (fun hne => ?_) _ hI₁
    split at hne
    · cases hne rfl
    · rename_i hfin
      exact if_neg hfin
  · simp only [hin, false_and, if_false]
    intro db₂ h₂
    have hI₂ := h.stable _ _ h₂.rely hI₁
    dsimp only
    split
    · rename_i hc
      exact (hhop db₂ hI₂ hc.2 db₂ hI₂).bind fun _ => hstore _ _ fun _ => rfl
    · exact hstore _ _ (fun _ => rfl) _ hI₂

/-- One status after the other, and then the status of their jobs. -/
theorem updateStagingStateInternal_within {ops : List (MinFileStatus FileState × Nat)}
    (hhop : ∀ i ∈ ops, ∀ db, I db →
      ((db.jobs.find? i.1.jobId).map (·.type)).getD node.uninitialized = .multiHop →
      ∀ db, I db → (useNextHop i.1.jobId).Within K I db)
    (hstart : ∀ i ∈ ops, P (.file (.stagingStarted i.1.fileId node.hostname)))
    (hreset : ∀ i ∈ ops, ∀ n t, P (.file (.resetForRetryStaging i.1.fileId i.1.jobId n t)))
    (hinsert : ∀ row, P (.insertRetryError row))
    (hsub : ∀ i ∈ ops, P (.file (.stagingSubmitted i.1.fileId i.2)))
    (hterm : ∀ i ∈ ops, ∀ reason, P (.file (.stagingTerminal i.1.fileId i.1.state reason)))
    (hjob : ∀ i ∈ ops, ∀ st, (updateJobTransferStatusInternal node i.1.jobId st).Issues P) (hdb : I db) :
    (updateStagingStateInternal node ops).Within K I db := by
  simp only [updateStagingStateInternal, Proc.bind_eq, beginTx_bind, commit_bind]
  intro db₁ h₁
  refine (Op.Within.forM (fun i hi db hdb => ?_) (h.stable _ _ h₁.rely hdb)).bind ?_
  · obtain ⟨i, hashedId⟩ := i
    simp only
    split
    · exact h.within (by simp [hstart _ hi]) hdb
    · exact h.within (issues_stagingFailed i (hreset _ hi) hinsert (hterm _ hi i.reason)) hdb
    · exact stagingEnded_within h (hhop _ hi) (hsub _ hi) (hterm _ hi) hdb
  · intro _ db₂ hdb₂ db₃ h₃
    refine Op.Within.forM (fun i hi db hdb => ?_) (h.stable _ _ h₃.rely hdb₂)
    exact (h.within (hjob i hi _) hdb).bind fun _ _ hdb => .ret hdb

theorem updateArchivingStateInternal_within {ops : List (MinFileStatus FileState)}
    (hupdate : ∀ i ∈ ops, P (.file (.updateArchivingState i.fileId i.state i.reason)))
    (hjob : ∀ i ∈ ops, ∀ st, (updateJobTransferStatusInternal node i.jobId st).Issues P) (hdb : I db) :
    (updateArchivingStateInternal node ops).Within K I db := by
  refine h.within (((Proc.issues_forM ops _ fun i hi => ?_).bind fun _ => Proc.issues_forM ops _ fun i hi => ?_)) hdb
  · simp [hupdate i hi]
  · exact (hjob i hi i.state).bind fun _ => trivial

end staging

end Fts3.MySql
