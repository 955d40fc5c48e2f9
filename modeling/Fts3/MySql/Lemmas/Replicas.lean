import Fts3.MySql.Lemmas.Status
import Fts3.MySql.Lemmas.Progress

/-!
# Replicas of one file

The contract between those who work on a multiple replica job: a live replica costs one unit, and so does the
first one that finishes. Whoever ends a replica holds its unit until the next replica is taken into use.
-/

namespace Fts3.MySql

open Fts3.Sql

/-! ## What the others rely on -/

/-- The live replicas, and one more once a replica has finished. -/
def replicaCost (rows : List FileRow) : Nat :=
  rows.countP (·.fileState.live) + (rows.any fun r => r.fileState = .finished).toNat

structure ReplicasKept (j : String) (db db' : Db) : Prop where
  row : ∀ f r', db'.files.find? f = some r' → ∃ r, db.files.find? f = some r ∧ r'.jobId = r.jobId ∧
    (r.jobId = j → r.fileState ≠ .notUsed → r'.fileState ≠ .notUsed)
  finished : (∃ r ∈ db.filesOf j, r.fileState = .finished) → ∃ r ∈ db'.filesOf j, r.fileState = .finished
  type : ∀ ty, HasType j ty db → HasType j ty db'

namespace ReplicasKept

variable {j : String} {db db' : Db}

theorem refl (db : Db) : ReplicasKept j db db :=
  ⟨fun _ r hr => ⟨r, hr, rfl, fun _ h => h⟩, id, fun _ h => h⟩

theorem trans {db₁ db₂ db₃ : Db} (h₁ : ReplicasKept j db₁ db₂) (h₂ : ReplicasKept j db₂ db₃) :
    ReplicasKept j db₁ db₃ := by
  refine ⟨fun f r₃ hr₃ => ?_, fun h => h₂.finished (h₁.finished h), fun ty h => h₂.type ty (h₁.type ty h)⟩
  obtain ⟨r₂, hr₂, hj₂, hu₂⟩ := h₂.row f r₃ hr₃
  obtain ⟨r₁, hr₁, hj₁, hu₁⟩ := h₁.row f r₂ hr₂
  exact ⟨r₁, hr₁, hj₂.trans hj₁, fun hj hne => hu₂ (hj₁.trans hj) (hu₁ hj hne)⟩

end ReplicasKept

def replicaContract (j : String) : Contract Db Sel Stmt where
  rely := ReplicasKept j
  refl := .refl
  trans := .trans
  cost db := replicaCost (db.filesOf j)
  budget := 1

/-- The `UPDATE` changes the state of a live replica only, or cancels one that is not used. -/
def FileUpdate.Harmless (j : String) (u : FileUpdate) (db : Db) : Prop :=
  ∀ r ∈ db.filesOf j, u.selects r = true → ∀ st, u.writes? = some st →
    r.fileState.live = true ∧ st ≠ .notUsed ∨ r.fileState = .notUsed ∧ st = .canceled

theorem finished_not_live {r : FileRow} (h : decide (r.fileState = .finished) = true) : r.fileState.live = false := by
  rw [decide_eq_true_eq] at h
  rw [h]
  rfl

section file

variable {j : String} {u : FileUpdate} {db : Db}

theorem replicasKept_file
    (hused : ∀ r ∈ db.filesOf j, u.selects r = true → r.fileState ≠ .notUsed → u.writes? ≠ some .notUsed)
    (hfin : ∀ r ∈ db.filesOf j, u.selects r = true → r.fileState = .finished → u.writes? = none) :
    ReplicasKept j db ((Stmt.file u).exec db).2 := by
  constructor
  · intro f r' hr'
    rw [exec_file_find?, Option.map_eq_some_iff] at hr'
    obtain ⟨r, hr, rfl⟩ := hr'
    refine ⟨r, hr, ?_, fun hj hne => ?_⟩
    · split
      · exact u.sets_jobId db.now r
      · rfl
    · split
      · rename_i hsel
        have hw := hused r (mem_filesOf.mpr ⟨Table.find?_key (Table.mem_of_find? hr), hj⟩) hsel hne
        rw [u.sets_fileState]
        cases hst : u.writes? with
        | none => exact hne
        | some st => exact fun h => hw (by rw [hst, ← h]; rfl)
      · exact hne
  · rintro ⟨r, hr, hrfin⟩
    rw [exec_file_filesOf]
    refine ⟨_, List.mem_map_of_mem hr, ?_⟩
    split
    · rename_i hsel
      rw [u.sets_fileState, hfin r hr hsel hrfin]
      exact hrfin
    · exact hrfin
  · exact fun ty h => h

theorem FileUpdate.Harmless.kept (h : u.Harmless j db) : ReplicasKept j db ((Stmt.file u).exec db).2 := by
  refine replicasKept_file (fun r hr hsel hne hw => ?_) fun r hr hsel hrfin => ?_
  · rcases h r hr hsel .notUsed hw with ⟨-, hst⟩ | ⟨hnot, -⟩
    · exact hst rfl
    · exact hne hnot
  · cases hw : u.writes? with
    | none => rfl
    | some st =>
        rcases h r hr hsel st hw with ⟨hlive, -⟩ | ⟨hnot, -⟩
        · rw [hrfin] at hlive
          cases hlive
        · rw [hrfin] at hnot
          cases hnot

/-- The replicas that the `UPDATE` ends without an end are credits, those that it takes into use cost one each. -/
theorem replicaCost_file (h : ∀ r ∈ db.filesOf j, u.selects r = true → u.writes? = some .finished →
      r.fileState = .finished ∨ r.fileState.live = true) :
    replicaCost (((Stmt.file u).exec db).2.filesOf j) +
        (db.filesOf j).countP (fun r => u.selects r && r.fileState.live && u.writes?.any fun st =>
          !st.live && st ≠ .finished) ≤
      replicaCost (db.filesOf j) +
        (db.filesOf j).countP (fun r => u.selects r && !r.fileState.live && u.writes?.any (·.live)) := by
  have hstate : ∀ r, (if u.selects r then u.sets db.now r else r).fileState =
      if u.selects r then u.writes?.getD r.fileState else r.fileState := by
    intro r
    split
    · exact u.sets_fileState db.now r
    · rfl
  have hfinished : ∀ r ∈ db.filesOf j,
      decide ((if u.selects r then u.sets db.now r else r).fileState = .finished) = true →
      decide (r.fileState = .finished) = true ∨ r.fileState.live = true := by
    intro r hr hfin
    simp only [decide_eq_true_eq, hstate] at hfin ⊢
    split at hfin
    · rename_i hsel
      cases hw : u.writes? with
      | none => exact .inl (by simpa [hw] using hfin)
      | some st =>
          rw [hw, Option.getD_some] at hfin
          exact h r hr hsel (by rw [hw, hfin])
    · exact .inl hfin
  have hcost := (countP_exchange (p := fun r : FileRow => r.fileState.live)
    (q := fun r => decide (r.fileState = .finished)) (f := fun r => if u.selects r then u.sets db.now r else r)
    (fun r => finished_not_live) hfinished).2
  rw [exec_file_filesOf]
  unfold replicaCost
  refine Nat.le_trans (Nat.add_le_add_left ?_ _) (Nat.le_trans hcost (Nat.add_le_add_left ?_ _))
  · refine List.countP_mono_left fun r _ hr => ?_
    simp only [Bool.and_eq_true, Option.any_eq_true, Bool.not_eq_true', decide_eq_true_eq] at hr
    obtain ⟨⟨hsel, hlive⟩, st, hw, hst, hfin⟩ := hr
    simp [hsel, hlive, u.sets_fileState, hw, hst, hfin]
  · refine List.countP_mono_left fun r _ hr => ?_
    simp only [hstate, Bool.and_eq_true, Bool.not_eq_true'] at hr
    obtain ⟨hlive, hr⟩ := hr
    split at hr
    · rename_i hsel
      cases hw : u.writes? with
      | none =>
          rw [hw, Option.getD_none, hlive] at hr
          cases hr
      | some st =>
          rw [hw, Option.getD_some] at hr
          simp [hsel, hlive, hr]
    · rw [hlive] at hr
      cases hr

theorem FileUpdate.Harmless.cost (h : u.Harmless j db) :
    replicaCost (((Stmt.file u).exec db).2.filesOf j) +
        (db.filesOf j).countP (fun r => u.selects r && r.fileState.live && u.writes?.any fun st =>
          !st.live && st ≠ .finished) ≤ replicaCost (db.filesOf j) := by
  have hzero : (db.filesOf j).countP (fun r => u.selects r && !r.fileState.live && u.writes?.any (·.live)) = 0 := by
    rw [List.countP_eq_zero]
    intro r hr hsel
    simp only [Bool.and_eq_true, Bool.not_eq_true', Option.any_eq_true] at hsel
    obtain ⟨⟨hsel, hlive⟩, st, hw, hst⟩ := hsel
    rcases h r hr hsel st hw with ⟨hlive', -⟩ | ⟨-, rfl⟩
    · rw [hlive] at hlive'
      cases hlive'
    · cases hst
  have hcost := replicaCost_file (j := j) (u := u) fun r (hr : r ∈ db.filesOf j) hsel hw => ?_
  · omega
  · rcases h r hr hsel .finished hw with ⟨hlive, -⟩ | ⟨-, hst⟩
    · exact .inr hlive
    · cases hst

end file

theorem replicasKept_job (j : String) (u : JobUpdate) (db : Db) : ReplicasKept j db ((Stmt.job u).exec db).2 := by
  refine ⟨fun _ r hr => ⟨r, hr, rfl, fun _ h => h⟩, id, ?_⟩
  rintro ty ⟨job, hjob, hty⟩
  refine ⟨_, by rw [exec_job_find?, hjob, Option.map_some], ?_⟩
  split
  · rw [u.sets_type, hty]
  · exact hty

/-! ## One statement -/

/-- The job is a multiple replica job, and its replicas with `F` are used. -/
def Replicas (j : String) (F : Nat → Prop) (db : Db) : Prop :=
  HasType j .multipleReplica db ∧ ∀ r ∈ db.filesOf j, F r.fileId → r.fileState ≠ .notUsed

theorem ReplicasKept.replicas {j : String} {F : Nat → Prop} {db db' : Db} (h : ReplicasKept j db db')
    (hdb : Replicas j F db) : Replicas j F db' := by
  refine ⟨h.type _ hdb.1, fun r' hr' hF => ?_⟩
  obtain ⟨hfind, hrj'⟩ := mem_filesOf.mp hr'
  obtain ⟨r, hr, hj, hused⟩ := h.row _ r' hfind
  have hid : r.fileId = r'.fileId := Table.find?_some hr
  have hrj : r.jobId = j := hj.symm.trans hrj'
  exact hused hrj (hdb.2 r (mem_filesOf.mpr ⟨hid ▸ hr, hrj⟩) (hid ▸ hF))

/-- What is issued about the files with `F` and about other jobs than `j`, and what nobody has to be careful
with. -/
def Stmt.OnReplica (j : String) (F : Nat → Prop) : Stmt → Prop
  | .file (.updateFileTransferStatus u) => F u.fileId ∧ u.Issued ∧ u.newState ≠ .notUsed
  | .file (.setRetryTransfer f _ _ _) | .file (.setRetryTransferStaging f _ _)
  | .file (.resetForRetryStaging f _ _ _) => F f
  | .file (.stagingTerminal _ st _) => st ≠ .notUsed
  | .file (.useFileReplica j' _ _) => j' ≠ j
  | .file (.stagingStarted _ _) | .file (.stagingSubmitted _ _) | .file (.cancelUnusedMultihopFiles _)
  | .file (.recoverStalledStaging _) | .file (.recoverStalledArchiving _) | .file (.setNullDestSURLMultiHop _)
  | .file (.fixJobTerminalFileNonTerminal _) => True
  | .job _ | .dm _ | .insertRetryError _ => True
  | _ => False

section harmless

variable {j : String} {u : FileUpdate} {db : Db}

theorem harmless_of_writes_none (h : u.writes? = none) : u.Harmless j db := by
  intro r _ _ st hw
  rw [h] at hw
  cases hw

theorem harmless_of_used (hi : Stmt.Issued (.file u)) (hg : u.unguarded = false) (hst : u.writes? ≠ some .notUsed)
    (hused : ∀ r ∈ db.filesOf j, u.selects r = true → r.fileState ≠ .notUsed) : u.Harmless j db := by
  intro r hr hsel st hw
  refine .inl ⟨?_, fun h => hst (by rw [hw, h])⟩
  simp [FileState.live, u.selects_not_terminal hi hw hg hsel, hused r hr hsel]

theorem OnReplica.harmless {F : Nat → Prop} (h : Stmt.OnReplica j F (.file u)) (hdb : Replicas j F db) :
    u.Harmless j db := by
  cases u with
  | updateFileTransferStatus a =>
      obtain ⟨hF, hi, hne⟩ := h
      refine harmless_of_used hi rfl (by simpa [FileUpdate.writes?] using hne) fun r hr hsel => hdb.2 r hr ?_
      simp only [FileUpdate.selects, Bool.and_eq_true, decide_eq_true_eq] at hsel
      exact hsel.1 ▸ hF
  | setRetryTransfer f j₁ n t =>
      refine harmless_of_used trivial rfl (by simp [FileUpdate.writes?]) fun r hr hsel => hdb.2 r hr ?_
      simp only [FileUpdate.selects, Bool.and_eq_true, decide_eq_true_eq] at hsel
      exact hsel.1.1 ▸ h
  | setRetryTransferStaging f j₁ n =>
      refine harmless_of_used trivial rfl (by simp [FileUpdate.writes?]) fun r hr hsel => hdb.2 r hr ?_
      simp only [FileUpdate.selects, Bool.and_eq_true, decide_eq_true_eq] at hsel
      exact hsel.1.1 ▸ h
  | resetForRetryStaging f j₁ n t =>
      refine harmless_of_used trivial rfl (by simp [FileUpdate.writes?]) fun r hr hsel => hdb.2 r hr ?_
      simp only [FileUpdate.selects, Bool.and_eq_true, decide_eq_true_eq] at hsel
      exact hsel.1.1 ▸ h
  | stagingTerminal f' st reason =>
      have hne : st ≠ .notUsed := h
      refine harmless_of_used trivial rfl (by simpa [FileUpdate.writes?] using hne) fun r hr hsel hnot => ?_
      simp [FileUpdate.selects, hnot] at hsel
  | stagingStarted f' host =>
      refine harmless_of_used trivial rfl (by simp [FileUpdate.writes?]) fun r hr hsel hnot => ?_
      simp [FileUpdate.selects, hnot] at hsel
  | stagingSubmitted f' hashed =>
      refine harmless_of_used trivial rfl (by simp [FileUpdate.writes?]) fun r hr hsel hnot => ?_
      simp [FileUpdate.selects, hnot] at hsel
  | fixJobTerminalFileNonTerminal j₁ =>
      refine harmless_of_used trivial rfl (by simp [FileUpdate.writes?]) fun r hr hsel hnot => ?_
      simp [FileUpdate.selects, hnot] at hsel
  | useFileReplica j₁ f' uuid =>
      intro r hr hsel
      simp only [FileUpdate.selects, Bool.and_eq_true, decide_eq_true_eq] at hsel
      exact absurd (hsel.1.1.symm.trans (mem_filesOf.mp hr).2) h
  | cancelUnusedMultihopFiles j₁ =>
      intro r hr hsel st hw
      simp only [FileUpdate.selects, Bool.and_eq_true, decide_eq_true_eq] at hsel
      exact .inr ⟨hsel.2, (Option.some.inj hw).symm⟩
  | recoverStalledStaging f' => exact harmless_of_writes_none rfl
  | recoverStalledArchiving f' => exact harmless_of_writes_none rfl
  | setNullDestSURLMultiHop j₁ => exact harmless_of_writes_none rfl
  | _ => cases h

end harmless

theorem allows_onReplica (j : String) (F : Nat → Prop) :
    Allows (replicaContract j) (Replicas j F) (Stmt.OnReplica j F) where
  stable _ _ h := h.replicas
  update s db db' hs hdb hready := by
    refine ⟨trivial, ?_⟩
    cases s with
    | file u =>
        have hsafe : u.Harmless j db' := OnReplica.harmless hs (ReplicasKept.replicas hready.rely hdb)
        exact ⟨hsafe.kept, Nat.le_trans (Nat.le_add_right _ _) hsafe.cost⟩
    | job u => exact ⟨replicasKept_job j u db', Nat.le_refl _⟩
    | dm u => exact ⟨⟨fun _ r hr => ⟨r, hr, rfl, fun _ h => h⟩, id, fun _ h => h⟩, Nat.le_refl _⟩
    | insertRetryError row => exact ⟨⟨fun _ r hr => ⟨r, hr, rfl, fun _ h => h⟩, id, fun _ h => h⟩, Nat.le_refl _⟩
    | _ => cases hs

/-! ## The next replica -/

section next

variable {j : String} {F : Nat → Prop} {node : Node} {db : Db}

/-- The credit of the caller is spent on the replica that it takes into use. -/
theorem useFileReplica_update {f : Nat} {uuid : Option String} {db' : Db}
    (hready : (replicaContract j).Ready (.update (.file (.useFileReplica j f uuid))) 1 db db')
    (hdb : Replicas j F db) :
    ReplicasKept j db' ((Stmt.file (.useFileReplica j f uuid)).exec db').2 ∧
      ∃ g, replicaCost (((Stmt.file (.useFileReplica j f uuid)).exec db').2.filesOf j) + g ≤
          replicaCost (db'.filesOf j) + 1 ∧
        Replicas j F ((Stmt.file (.useFileReplica j f uuid)).exec db').2 := by
  have hsel : ∀ r, (FileUpdate.useFileReplica j f uuid).selects r = true → r.fileId = f ∧ r.fileState = .notUsed := by
    intro r hr
    simp only [FileUpdate.selects, Bool.and_eq_true, decide_eq_true_eq] at hr
    exact ⟨hr.1.2, hr.2⟩
  have hkept : ReplicasKept j db' ((Stmt.file (.useFileReplica j f uuid)).exec db').2 := by
    refine replicasKept_file (fun r _ hr hne => absurd (hsel r hr).2 hne) fun r _ hr hfin => ?_
    rw [(hsel r hr).2] at hfin
    cases hfin
  refine ⟨hkept, 0, ?_, hkept.replicas (ReplicasKept.replicas hready.rely hdb)⟩
  have hone : (db'.filesOf j).countP (fun r => (FileUpdate.useFileReplica j f uuid).selects r &&
      !r.fileState.live && (FileUpdate.useFileReplica j f uuid).writes?.any (·.live)) ≤ 1 := by
    refine countP_le_one_of_eq (db'.files.select_nodup _) fun a ha b hb hpa hpb => ?_
    simp only [Bool.and_eq_true] at hpa hpb
    exact eq_of_mem_filesOf ha hb ((hsel a hpa.1.1).1.trans (hsel b hpb.1.1).1.symm)
  have hcost := replicaCost_file (j := j) (u := .useFileReplica j f uuid)
    fun r (_ : r ∈ db'.filesOf j) _ hw => by simp [FileUpdate.writes?] at hw
  omega

theorem useFileReplica_honors {f : Nat} {uuid : Option String} (hdb : Replicas j F db) :
    (useFileReplica node j f uuid).Honors Stmt.exec (replicaContract j) (fun _ _ db => Replicas j F db) 1 db := by
  have hI := (allows_onReplica j F).stable
  have hupdate : ∀ f db, Replicas j F db → (updateFile (.useFileReplica j f uuid) >>= fun _ =>
      (pure () : Op Unit)).Honors Stmt.exec (replicaContract j) (fun _ _ db => Replicas j F db) 1 db := by
    intro f db hdb db₁ h₁
    obtain ⟨hkept, g, hcost, hdb₁⟩ := useFileReplica_update h₁ hdb
    exact ⟨trivial, hkept, g, hcost, hdb₁⟩
  simp only [useFileReplica, Proc.bind_eq, select_bind]
  intro db₁ h₁
  have hdb₁ := hI _ _ h₁.rely hdb
  dsimp only
  split
  · exact hdb₁
  · intro db₂ h₂ db₃ h₃
    have hdb₃ := hI _ _ h₃.rely (hI _ _ h₂.rely hdb₁)
    dsimp only
    split
    · refine Proc.Honors.bind ?_ ((issues_getBestNextReplica node j _).honors_reads hI hdb₃)
      rintro best _ db₄ ⟨rfl, hdb₄⟩
      split
      · exact hupdate _ _ hdb₄
      · exact hdb₄
    · exact hupdate _ _ hdb₃

theorem useNextHop_spares {j' : String} (hne : j' ≠ j) (hdb : Replicas j F db) :
    (useNextHop j').Within (replicaContract j) (Replicas j F) db := by
  simp only [useNextHop, getNextHop, Proc.bind_eq, select_bind, Op.Within, Proc.honors_select]
  intro db₁ h₁
  have hdb₁ : Replicas j F db₁ := ReplicasKept.replicas h₁.rely hdb
  split
  · exact hdb₁
  · rename_i hmin
    intro db₂ h₂
    have hdb₂ : Replicas j F db₂ := ReplicasKept.replicas h₂.rely hdb₁
    have hsafe : (FileUpdate.useNextHop (minNotUsed j' db₁)).Harmless j db₂ := by
      intro r hr hsel
      simp only [FileUpdate.selects, Bool.and_eq_true, decide_eq_true_eq] at hsel
      obtain ⟨hfind, hrj⟩ := mem_filesOf.mp hr
      obtain ⟨r₁, hr₁, hj₁, -⟩ := ReplicasKept.row h₂.rely _ r hfind
      obtain ⟨hop, hhop, -, hid⟩ := minNotUsed_mem hmin
      have hsame := (mem_filesOf.mp hhop).1
      rw [hid, ← hsel.1, hr₁] at hsame
      rw [Option.some.inj hsame, (mem_filesOf.mp hhop).2, hrj] at hj₁
      exact absurd hj₁.symm hne
    exact ⟨trivial, hsafe.kept, 0, Nat.le_trans (Nat.le_add_right _ _) hsafe.cost, hsafe.kept.replicas hdb₂⟩

end next

/-! ## The status of a replica -/

theorem ReplicasKept.fileOf {j j' : String} {f : Nat} {db db' : Db} (h : ReplicasKept j db db')
    (hdb : FileOf j' f db) : FileOf j' f db' := by
  intro r' hr'
  obtain ⟨r, hr, hj, -⟩ := h.row f r' hr'
  exact hj.trans (hdb r hr)

section status

variable {j j' : String} {f : Nat} {F : Nat → Prop} {node : Node} {job : JobInfo} {uuid : Option String} {db : Db}

/-- A caller uses the next replica after it has ended the last one. -/
def usesReplica (job : JobInfo) (st : FileState) : Prop :=
  (job.jobState ≠ some .canceled ∧ job.jobState ≠ some .failed) ∧ (st = .failed ∨ st = .canceled)

theorem afterFileUpdate_honors {st : FileState} {g : Nat} (hjob : j' = j → job.jobType = .multipleReplica)
    (hg : j' = j → usesReplica job st → g = 1) (hdb : Replicas j F db) :
    (afterFileUpdate node j' f job st uuid).Honors Stmt.exec (replicaContract j) (fun _ _ db => Replicas j F db) g db := by
  have hI := (allows_onReplica j F).stable
  by_cases hj : j' = j
  · subst hj
    simp only [afterFileUpdate, hjob rfl]
    split
    · rename_i huse
      intro db₁ h₁
      obtain rfl := hg rfl huse
      refine (useFileReplica_honors (hI _ _ h₁.rely hdb)).bind ?_
      exact fun _ _ db₂ hdb₂ db₃ h₃ => hI _ _ h₃.rely hdb₂
    · exact hdb
  · refine Proc.Honors.weaken ?_ (Nat.zero_le g)
    unfold afterFileUpdate
    extract_lets jobAlive
    split
    · refine (allows_onReplica j F).within ?_ hdb
      split
      · exact (issues_useFileReplica node j' f uuid fun _ => hj).bind fun _ => issues_commit.mpr trivial
      · trivial
    · split
      · intro db₁ h₁
        refine (useNextHop_spares hj (hI _ _ h₁.rely hdb)).bind ?_
        exact fun _ db₂ hdb₂ db₃ h₃ => hI _ _ h₃.rely hdb₂
      · refine (allows_onReplica j F).within ?_ hdb
        simp [setNullDestSURLMultiHop, Stmt.OnReplica]
    · exact hdb

/-- The compare-and-set that ends a replica gives a credit. -/
theorem cas_credit {u : StatusUpdate} (hi : u.Issued) (hF : F u.fileId) (hnew : u.newState ≠ .notUsed)
    (hfile : FileOf j u.fileId db) (hdb : Replicas j F db)
    (hm : ((Stmt.file (.updateFileTransferStatus u)).exec db).1 ≠ 0)
    (hst : u.newState = .failed ∨ u.newState = .canceled) :
    replicaCost (((Stmt.file (.updateFileTransferStatus u)).exec db).2.filesOf j) + 1 ≤
      replicaCost (db.filesOf j) := by
  obtain ⟨r, hr, hsel⟩ := Table.matched_pos.mp (Nat.pos_of_ne_zero hm)
  have hid : r.fileId = u.fileId := by
    simp only [FileUpdate.selects, Bool.and_eq_true, decide_eq_true_eq] at hsel
    exact hsel.1
  have hfind := Table.find?_key hr
  have hrj : r ∈ db.filesOf j := mem_filesOf.mpr ⟨hfind, hfile r (hid ▸ hfind)⟩
  have hlive : r.fileState.live = true := by
    have hterm := FileUpdate.selects_not_terminal (u := .updateFileTransferStatus u) hi rfl rfl hsel
    simp [FileState.live, hterm, hdb.2 r hrj (hid ▸ hF)]
  have hsafe : (FileUpdate.updateFileTransferStatus u).Harmless j db := OnReplica.harmless ⟨hF, hi, hnew⟩ hdb
  have hpos : 0 < (db.filesOf j).countP fun r => (FileUpdate.updateFileTransferStatus u).selects r &&
      r.fileState.live && (FileUpdate.updateFileTransferStatus u).writes?.any fun st => !st.live && st ≠ .finished := by
    refine List.countP_pos_iff.mpr ⟨r, hrj, ?_⟩
    have hend : (!u.newState.live && decide (u.newState ≠ .finished)) = true := by
      rcases hst with hst | hst <;> rw [hst] <;> rfl
    simpa [hsel, hlive, FileUpdate.writes?] using hend
  have := hsafe.cost
  omega

theorem storeFileState_replica {a : TransferStatus} {stored : Option FileState} {archiving : Bool}
    (href : refused stored a.newFileState a.processId = false)
    (harch : archiving = true → a.newFileState = .finished) (hnew : a.newFileState ≠ .notUsed)
    (hjob : j' = j → job.jobType = .multipleReplica) (hfile : FileOf j' f db) (hF : F f)
    (hdb : Replicas j F db) :
    (storeFileState node a j' f job stored uuid archiving).Within (replicaContract j) (Replicas j F) db := by
  refine storeFileState_honors href harch fun u hf _ hreq hi db₁ h₁ => ?_
  subst hf
  have hnewu : u.newState ≠ .notUsed := by
    rcases hi.2 with heq | ⟨-, heq⟩
    · rw [heq, hreq]
      exact hnew
    · rw [heq]
      decide
  have hdb₁ : Replicas j F db₁ := ReplicasKept.replicas h₁.rely hdb
  have hsafe : (FileUpdate.updateFileTransferStatus u).Harmless j db₁ := OnReplica.harmless ⟨hF, hi, hnewu⟩ hdb₁
  refine ⟨trivial, hsafe.kept, ?_⟩
  by_cases hcredit : j' = j ∧ ((Stmt.file (.updateFileTransferStatus u)).exec db₁).1 ≠ 0 ∧ usesReplica job u.newState
  · obtain ⟨rfl, hm, huse⟩ := hcredit
    refine ⟨1, cas_credit hi hF hnewu (ReplicasKept.fileOf h₁.rely hfile) hdb₁ hm huse.2, fun db₂ h₂ => ?_⟩
    have hdb₂ := h₂.replicas (hsafe.kept.replicas hdb₁)
    exact ⟨fun h => absurd h hm, fun _ => afterFileUpdate_honors hjob (fun _ _ => rfl) hdb₂⟩
  · refine ⟨0, Nat.le_trans (Nat.le_add_right _ _) hsafe.cost, fun db₂ h₂ => ?_⟩
    have hdb₂ := h₂.replicas (hsafe.kept.replicas hdb₁)
    exact ⟨fun _ => hdb₂, fun hm => afterFileUpdate_honors hjob (fun hj huse => absurd ⟨hj, hm, huse⟩ hcredit) hdb₂⟩

end status

/-- The file is one of `j'` and, as a replica of `j`, is used: as a service has taken it from the database. -/
def Taken (j j' : String) (f : Nat) (db : Db) : Prop :=
  FileOf j' f db ∧ ∀ r ∈ db.filesOf j, r.fileId = f → r.fileState ≠ .notUsed

section taken

variable {j : String} {F : Nat → Prop} {node : Node} {db : Db}

theorem ReplicasKept.taken {j' : String} {f : Nat} {db' : Db} (h : ReplicasKept j db db') (hdb : Taken j j' f db) :
    Taken j j' f db' := by
  refine ⟨h.fileOf hdb.1, fun r' hr' hid' => ?_⟩
  obtain ⟨hfind, hrj'⟩ := mem_filesOf.mp hr'
  obtain ⟨r, hr, hj, hused⟩ := h.row _ r' hfind
  have hid : r.fileId = r'.fileId := Table.find?_some hr
  have hrj : r.jobId = j := hj.symm.trans hrj'
  exact hused hrj (hdb.2 r (mem_filesOf.mpr ⟨hid ▸ hr, hrj⟩) (hid.trans hid'))

theorem taken_of_row {r : FileRow} (hr : r ∈ db.files.rows) (hst : r.fileState ≠ .notUsed) :
    Taken j r.jobId r.fileId db := by
  have hfind := Table.find?_key hr
  refine ⟨fun r' hr' => ?_, fun r' hr' hid => ?_⟩
  · rw [hfind] at hr'
    rw [Option.some.inj hr']
  · have hfind' := (mem_filesOf.mp hr').1
    rw [hid, hfind] at hfind'
    rw [← Option.some.inj hfind']
    exact hst

theorem Replicas.or {j' : String} {f : Nat} (hdb : Replicas j F db) (h : Taken j j' f db) :
    Replicas j (fun f' => F f' ∨ f' = f) db :=
  ⟨hdb.1, fun r hr hF => hF.elim (hdb.2 r hr) (h.2 r hr)⟩

theorem Op.Within.of_or {β : Type} {f : Nat} {p : Op β}
    (h : p.Within (replicaContract j) (Replicas j fun f' => F f' ∨ f' = f) db) :
    p.Within (replicaContract j) (Replicas j F) db :=
  Proc.Honors.mono (fun _ _ _ hdb => ⟨hdb.1, fun r hr hF => hdb.2 r hr (.inl hF)⟩) h

theorem type_ne_of_multiHop {j' : String} {ty : JobType} (hdb : HasType j .multipleReplica db)
    (h : ((db.jobs.find? j').map (·.type)).getD ty = .multiHop) : j' ≠ j := by
  rintro rfl
  obtain ⟨job, hjob, hty⟩ := hdb
  simp [hjob, hty] at h

theorem updateTransferStatus_replica {a : TransferStatus} (hnew : a.newFileState ≠ .notUsed)
    (hdb : Replicas j F db) (ha : Taken j a.jobId a.fileId db) :
    (updateFileTransferStatusInternal node a).Within (replicaContract j) (Replicas j F) db := by
  refine updateFileTransferStatusInternal_honors (T := Taken j) (allows_onReplica j F).stable
    (fun _ _ _ _ h => h.taken) (fun db r _ hr hst => taken_of_row hr (by simp [hst])) ?_ hdb ha
  intro j' f db hdb hf
  refine Op.Within.of_or (f := f) ?_
  refine updateFileState_honors
    (I := fun db => Replicas j (fun f' => F f' ∨ f' = f) db ∧ FileOf j' f db)
    (J := fun job _ => j' = j → job.jobType = .multipleReplica) ?_ (fun _ _ h => h.1) (fun _ _ _ _ h => h) ?_ ?_
    ⟨hdb.or hf, hf.1⟩
  · exact fun _ _ h hdb => ⟨h.replicas hdb.1, h.fileOf hdb.2⟩
  · rintro db ⟨⟨⟨job, hjob, hty⟩, -⟩, -⟩ rfl
    simp only [jobInfo, hjob, hty]
  · intro job stored uuid archiving db hdb hjob href harch
    exact storeFileState_replica href harch hnew hjob hdb.2 (.inr rfl) hdb.1

theorem updateJob_onReplica (node : Node) (j' : String) (st : FileState) :
    (updateJobTransferStatusInternal node j' st).Issues (Stmt.OnReplica j F) :=
  issues_updateJobTransferStatusInternal (fun _ _ _ _ => trivial) trivial (fun _ => trivial) trivial trivial node st

end taken

end Fts3.MySql
