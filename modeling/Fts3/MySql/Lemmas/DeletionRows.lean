import Fts3.MySql.DeletionStates

/-!
# The rows of a batch of deletions

What a batch of `updateDeletionsState` can make of a row of `t_dm`, event by event.
-/

namespace Fts3.MySql

open Fts3.Sql

/-- What no update of `t_dm` changes. -/
structure SameDm (r r' : DmRow) : Prop where
  fileId : r'.fileId = r.fileId
  jobId : r'.jobId = r.jobId
  hashedId : r'.hashedId = r.hashedId
  sourceSurl : r'.sourceSurl = r.sourceSurl

theorem SameDm.refl (r : DmRow) : SameDm r r :=
  ⟨rfl, rfl, rfl, rfl⟩

theorem SameDm.trans {r₁ r₂ r₃ : DmRow} (h₁ : SameDm r₁ r₂) (h₂ : SameDm r₂ r₃) : SameDm r₁ r₃ where
  fileId := h₂.fileId.trans h₁.fileId
  jobId := h₂.jobId.trans h₁.jobId
  hashedId := h₂.hashedId.trans h₁.hashedId
  sourceSurl := h₂.sourceSurl.trans h₁.sourceSurl

theorem DmUpdate.same_sets (u : DmUpdate) (now : Nat) (r : DmRow) : SameDm r (u.sets now r) := by
  cases u with
  | deletionStarted => exact ⟨rfl, rfl, rfl, rfl⟩
  | deletionTerminal => exact ⟨rfl, rfl, rfl, rfl⟩
  | resetForRetryDelete => exact ⟨rfl, rfl, rfl, rfl⟩
  | requeueStartedDeletes => exact ⟨rfl, rfl, rfl, rfl⟩
  | fixDeleteInconsistencies => exact ⟨rfl, rfl, rfl, rfl⟩

section update

variable {u : DmUpdate} {db : Db} {f : Nat} {r r' : DmRow}

theorem exec_dm_row (hr' : ((Stmt.dm u).exec db).2.dms.find? f = some r') : ∃ r, db.dms.find? f = some r ∧
    SameDm r r' ∧ r' = if u.selects r then u.sets db.now r else r := by
  rw [exec_dm_find?, Option.map_eq_some_iff] at hr'
  obtain ⟨r, hr, rfl⟩ := hr'
  refine ⟨r, hr, ?_, rfl⟩
  split
  · exact u.same_sets db.now r
  · exact SameDm.refl r

theorem exec_dm_isSome (u : DmUpdate) (db : Db) (f : Nat) :
    (((Stmt.dm u).exec db).2.dms.find? f).isSome = (db.dms.find? f).isSome := by
  rw [exec_dm_find?, Option.isSome_map]

end update

/-! ## One event -/

section event

variable {node : Node} {i : MinFileStatus DmState} {db : Db} {f : Nat} {r r' : DmRow}

theorem deletionUpdate_selects (h : (deletionUpdate node i db).selects r = true) : r.fileId = i.fileId := by
  unfold deletionUpdate at h
  cases hstate : i.state with
  | failed =>
      simp only [hstate] at h
      split at h
      · simp only [retryDeletionUpdate, DmUpdate.selects, Bool.and_eq_true, decide_eq_true_eq] at h
        exact h.1.1
      · simpa [DmUpdate.selects] using h
  | _ =>
      simp only [hstate] at h
      simpa [DmUpdate.selects] using h

/-- The state that the event leaves in a row that it selects: its own one, or that of a deletion that is tried again. -/
theorem deletionUpdate_state (node : Node) (i : MinFileStatus DmState) (db : Db) (now : Nat) (r : DmRow) :
    ((deletionUpdate node i db).sets now r).fileState = i.state ∨
      i.state = .failed ∧ ((deletionUpdate node i db).sets now r).fileState = .delete := by
  unfold deletionUpdate
  cases hstate : i.state with
  | failed =>
      simp only
      split
      · exact .inr ⟨trivial, rfl⟩
      · exact .inl rfl
  | _ => exact .inl rfl

/-- An event about a deletion that is started finds its row. -/
theorem deletionUpdate_selects_started (hfile : r.fileId = i.fileId) (hjob : r.jobId = i.jobId)
    (hstarted : r.fileState = .started) : (deletionUpdate node i db).selects r = true := by
  unfold deletionUpdate
  cases hstate : i.state with
  | failed =>
      simp only
      split
      · simp only [retryDeletionUpdate, DmUpdate.selects, hfile, hjob, hstarted, decide_true, Bool.true_and]
        split
        · decide
        · decide
      · simp [DmUpdate.selects, hfile]
  | _ => simp [DmUpdate.selects, hfile]

theorem storeDeletion_row (hr' : ((storeDeletion node i).alone db).dms.find? f = some r') :
    ∃ r, db.dms.find? f = some r ∧ SameDm r r' ∧ (r' = r ∨
      i.fileId = f ∧ (r'.fileState = i.state ∨ i.state = .failed ∧ r'.fileState = .delete)) := by
  rw [storeDeletion_alone] at hr'
  obtain ⟨r, hr, hsame, heq⟩ := exec_dm_row hr'
  refine ⟨r, hr, hsame, ?_⟩
  split at heq
  case isTrue hsel =>
    right
    rw [heq]
    exact ⟨(deletionUpdate_selects hsel).symm.trans (Table.find?_some hr), deletionUpdate_state node i db db.now r⟩
  case isFalse => exact .inl heq

/-- A deletion that has ended is not started any more. -/
theorem storeDeletion_ends (hi : i.state ≠ .started) (hr : db.dms.find? f = some r) (hfile : i.fileId = f)
    (hjob : r.jobId = i.jobId) (hr' : ((storeDeletion node i).alone db).dms.find? f = some r') :
    r'.fileState ≠ .started := by
  rw [storeDeletion_alone] at hr'
  obtain ⟨r₀, hr₀, -, heq⟩ := exec_dm_row hr'
  obtain rfl := Option.some.inj (hr.symm.trans hr₀)
  split at heq
  case isTrue hsel =>
    rw [heq]
    rcases deletionUpdate_state node i db db.now r with hst | ⟨-, hst⟩
    · rw [hst]
      exact hi
    · rw [hst]
      exact DmState.noConfusion
  case isFalse hnot =>
    rw [heq]
    intro hstarted
    exact hnot (deletionUpdate_selects_started ((Table.find?_some hr).trans hfile.symm) hjob hstarted)

theorem storeDeletion_isSome : (((storeDeletion node i).alone db).dms.find? f).isSome = (db.dms.find? f).isSome := by
  rw [storeDeletion_alone, exec_dm_isSome]

end event

/-! ## A batch -/

section batch

variable {node : Node} {ops : List (MinFileStatus DmState)} {db : Db} {f : Nat} {r r' : DmRow}

theorem store_cons (node : Node) (i : MinFileStatus DmState) (ops : List (MinFileStatus DmState)) (db : Db) :
    DeletionStep.exec (.store node (i :: ops)) db =
      DeletionStep.exec (.store node ops) ((storeDeletion node i).alone db) := by
  rw [DeletionStep.exec, Op.alone, Proc.run_forM_cons]
  rfl

theorem store_isSome : ((DeletionStep.exec (.store node ops) db).dms.find? f).isSome = (db.dms.find? f).isSome := by
  induction ops generalizing db with
  | nil => rfl
  | cons i ops ih => rw [store_cons, ih, storeDeletion_isSome]

/-- A row is as before, or has the state of an event of the batch. -/
theorem store_row (hr' : (DeletionStep.exec (.store node ops) db).dms.find? f = some r') :
    ∃ r, db.dms.find? f = some r ∧ SameDm r r' ∧ (r' = r ∨
      ∃ i ∈ ops, i.fileId = f ∧ (r'.fileState = i.state ∨ i.state = .failed ∧ r'.fileState = .delete)) := by
  induction ops generalizing db with
  | nil => exact ⟨r', hr', SameDm.refl r', .inl rfl⟩
  | cons i ops ih =>
      rw [store_cons] at hr'
      obtain ⟨r₁, hr₁, hsame₁, hlater⟩ := ih hr'
      obtain ⟨r, hr, hsame, hfirst⟩ := storeDeletion_row hr₁
      refine ⟨r, hr, hsame.trans hsame₁, ?_⟩
      rcases hlater with rfl | ⟨i', hi', hevent⟩
      · exact hfirst.imp id fun hevent => ⟨i, List.mem_cons_self, hevent⟩
      · exact .inr ⟨i', List.mem_cons_of_mem i hi', hevent⟩

theorem store_row_of_not_mem (hnot : ∀ i ∈ ops, i.fileId ≠ f)
    (hr' : (DeletionStep.exec (.store node ops) db).dms.find? f = some r') : db.dms.find? f = some r' := by
  obtain ⟨r, hr, -, rfl | ⟨i, hi, hfile, -⟩⟩ := store_row hr'
  · exact hr
  · exact absurd hfile (hnot i hi)

/-- A deletion that ends in the batch is not started after it. -/
theorem store_ends (hops : ∀ i ∈ ops, i.state ≠ .started) (hr : db.dms.find? f = some r)
    (hjob : ∀ i ∈ ops, i.fileId = f → i.jobId = r.jobId) (hmem : ∃ i ∈ ops, i.fileId = f)
    (hr' : (DeletionStep.exec (.store node ops) db).dms.find? f = some r') : r'.fileState ≠ .started := by
  induction ops generalizing db r with
  | nil =>
      obtain ⟨i, hi, -⟩ := hmem
      cases hi
  | cons i ops ih =>
      rw [store_cons] at hr'
      obtain ⟨r₁, hr₁, hsame₁, hlater⟩ := store_row hr'
      obtain ⟨r₀, hr₀, hsame₀, -⟩ := storeDeletion_row hr₁
      obtain rfl := Option.some.inj (hr.symm.trans hr₀)
      have hops' : ∀ i ∈ ops, i.state ≠ .started := fun i' hi' => hops i' (List.mem_cons_of_mem i hi')
      by_cases hrest : ∃ i ∈ ops, i.fileId = f
      · refine ih hops' hr₁ (fun i' hi' hfile => ?_) hrest hr'
        rw [hsame₀.jobId]
        exact hjob i' (List.mem_cons_of_mem i hi') hfile
      · have hfile : i.fileId = f := by
          obtain ⟨i', hi', hfile⟩ := hmem
          cases hi' with
          | head => exact hfile
          | tail _ hi' => exact absurd ⟨i', hi', hfile⟩ hrest
        have heq := store_row_of_not_mem (fun i' hi' h => hrest ⟨i', hi', h⟩) hr'
        obtain rfl := Option.some.inj (hr₁.symm.trans heq)
        exact storeDeletion_ends (hops i List.mem_cons_self) hr hfile (hjob i List.mem_cons_self hfile).symm hr₁

/-- A deletion that only starts in the batch is started after it. -/
theorem store_starts (hops : ∀ i ∈ ops, i.state = .started) (hmem : ∃ i ∈ ops, i.fileId = f)
    (hr' : (DeletionStep.exec (.store node ops) db).dms.find? f = some r') : r'.fileState = .started := by
  induction ops generalizing db with
  | nil =>
      obtain ⟨i, hi, -⟩ := hmem
      cases hi
  | cons i ops ih =>
      rw [store_cons] at hr'
      have hops' : ∀ i ∈ ops, i.state = .started := fun i' hi' => hops i' (List.mem_cons_of_mem i hi')
      by_cases hrest : ∃ i ∈ ops, i.fileId = f
      · exact ih hops' hrest hr'
      · have hfile : i.fileId = f := by
          obtain ⟨i', hi', hfile⟩ := hmem
          cases hi' with
          | head => exact hfile
          | tail _ hi' => exact absurd ⟨i', hi', hfile⟩ hrest
        have hrow := store_row_of_not_mem (fun i' hi' h => hrest ⟨i', hi', h⟩) hr'
        rw [storeDeletion_alone, deletionUpdate, hops i List.mem_cons_self] at hrow
        obtain ⟨r, hr, -, heq⟩ := exec_dm_row hrow
        rw [heq, if_pos (by simp [DmUpdate.selects, hfile, Table.find?_some hr])]
        rfl

end batch

end Fts3.MySql
