import Fts3.QosDaemon.DeletionsInFlight

/-!
# Finished deletions

A deletion is finished in the database only if a storage has answered that it is.
-/

namespace Fts3.QosDaemon

open Fts3.Machine Fts3.MySql

/-- The storage has given no error for the file. -/
def AnsweredDeletion.Deleted (a : AnsweredDeletion) : Prop :=
  0 ≤ a.answer.status ∨ a.answer.errors a.entry.surl = none

/-- What is reported as finished has been deleted. -/
def Told (answered : List AnsweredDeletion) (u : MinFileStatus DmState) : Prop :=
  u.state = .finished → ∃ a ∈ answered, a.entry.fileId = u.fileId ∧ a.Deleted

/-- The rows that are finished after a change were so before, or are reported as finished. -/
def Finishes (us : List (MinFileStatus DmState)) (db db' : Db) : Prop :=
  ∀ f r', db'.dms.find? f = some r' → r'.fileState = .finished →
    (∃ r, db.dms.find? f = some r ∧ r.fileState = .finished) ∨ ∃ u ∈ us, u.fileId = f ∧ u.state = .finished

section finishes

variable {db db' : Db}

theorem Finishes.refl (us : List (MinFileStatus DmState)) (db : Db) : Finishes us db db :=
  fun _ r hr hst => .inl ⟨r, hr, hst⟩

theorem finishes_store (node : Node) (ops : List (MinFileStatus DmState)) :
    Finishes ops db (DeletionStep.exec (.store node ops) db) := by
  intro f r' hr' hst
  obtain ⟨r, hr, -, rfl | ⟨i, hi, hfile, hstate | ⟨-, hstate⟩⟩⟩ := store_row hr'
  · exact .inl ⟨r', hr, hst⟩
  · exact .inr ⟨i, hi, hfile, hstate.symm.trans hst⟩
  · rw [hst] at hstate
    cases hstate

theorem finishes_exec_dm {u : DmUpdate} (h : ∀ now r, (u.sets now r).fileState ≠ .finished) :
    Finishes [] db ((Stmt.dm u).exec db).2 := by
  intro f r' hr' hst
  obtain ⟨r, hr, -, heq⟩ := exec_dm_row hr'
  split at heq
  · rw [heq] at hst
    exact absurd hst (h db.now r)
  · rw [heq] at hst
    exact .inl ⟨r, hr, hst⟩

theorem finishes_cancel (f : Nat) : Finishes [] db (DeletionStep.exec (.cancel f) db) := by
  intro f' r' hr' hst
  have hfind : (DeletionStep.exec (.cancel f) db).dms.find? f' =
      (db.dms.find? f').map fun r => if r.fileId = f && !r.fileState.terminal then DmRow.cancel r else r :=
    Sql.Table.find?_update _ _ _ DmRow.cancel_fileId f'
  rw [hr', eq_comm, Option.map_eq_some_iff] at hfind
  obtain ⟨r, hr, rfl⟩ := hfind
  split at hst
  · cases hst
  · exact .inl ⟨r, hr, hst⟩

theorem finishes_aggregate (jobIds : List String) : Finishes [] db (DeletionStep.exec (.aggregate jobIds) db) := by
  unfold Finishes
  rw [aggregate_dms]
  exact Finishes.refl [] db

theorem finishes_insertDm (r : DmRow) : Finishes [] db (insertDm db r) := by
  intro f r' hr' hst
  rcases find?_insertDm hr' with hr | rfl
  · exact .inl ⟨r', hr, hst⟩
  · cases hst

end finishes

/-! ## The daemons -/

/-- All that the daemon has to report is true. -/
structure Truthful (answered : List AnsweredDeletion) (d : DeletionDaemon) : Prop where
  same : ∀ ctx ∈ d.tasks, ctx.Same
  told : ∀ u ∈ d.pending ++ d.messages, Told answered u
  readTold : ∀ s, d.selected = some s → ∀ u ∈ s.messages, Told answered u

/-- What the event stores. -/
def DeletionDaemon.stored (d : DeletionDaemon) : DaemonEvent → List (MinFileStatus DmState)
  | .store _ | .storeThrows _ => d.selected.elim [] fun s => startedStates s.messages s.delOps
  | .flush | .flushThrows => d.tmp
  | _ => []

section step

variable {db : Db} {d : DeletionDaemon} {answered : List AnsweredDeletion}

theorem Told.mono {answered' : List AnsweredDeletion} (h : answered ⊆ answered') {u : MinFileStatus DmState}
    (hu : Told answered u) : Told answered' u := by
  intro hst
  obtain ⟨a, ha, hfile, hdeleted⟩ := hu hst
  exact ⟨a, h ha, hfile, hdeleted⟩

theorem Told.of_ne {u : MinFileStatus DmState} (h : u.state ≠ .finished) : Told answered u :=
  fun hst => absurd hst h

/-- A task reports the files as deleted that the storage has answered about. -/
theorem told_run {ctx : JobContext} (hsame : ctx.Same) (answer : Answer) {u : MinFileStatus DmState}
    (hu : u ∈ DeletionTask.run answer ctx) : Told (ctx.jobs.map fun e => ⟨e, answer⟩) u := by
  obtain ⟨e, he, rfl⟩ := List.mem_map.mp ((DeletionTask.run_perm hsame answer).subset hu)
  intro hst
  refine ⟨⟨e, answer⟩, List.mem_map.mpr ⟨e, he, rfl⟩, rfl, ?_⟩
  unfold AnsweredDeletion.Deleted
  simp only [deletionUpdate, DeletionTask.verdict] at hst ⊢
  split at hst
  case isTrue =>
    cases herror : answer.errors e.surl with
    | none => exact .inr rfl
    | some error =>
        rw [herror] at hst
        cases hst
  case isFalse hneg => exact .inl (Int.not_lt.mp hneg)

theorem Truthful.step {e : DaemonEvent} (h : Truthful answered d) :
    Truthful (answered ++ d.answered e) (d.step db e).2 := by
  have hgrow : ∀ {u : MinFileStatus DmState}, Told answered u → Told (answered ++ d.answered e) u :=
    fun hu => hu.mono (List.subset_append_left _ _)
  have hmono : Truthful (answered ++ d.answered e) d :=
    ⟨h.same, fun u hu => hgrow (h.told u hu), fun s hs u hu => hgrow (h.readTold s hs u hu)⟩
  have hstart : ∀ setup s, d.selected = some s → ∀ u ∈ (d.startTasks setup s.delOps).pending ++ d.messages,
      Told (answered ++ d.answered e) u := by
    intro setup s hs u hu
    have hcases : u ∈ d.pending ++ d.messages ∨
        u ∈ (FetchDeletion.contexts s.delOps).entries.flatMap fun e => setProxy (setup e.1) e.2 := by
      simp only [DeletionDaemon.pending, DeletionDaemon.startTasks, List.mem_append] at hu ⊢
      tauto
    rcases hcases with hu | hu
    · exact hmono.told u hu
    · obtain ⟨e, -, hu⟩ := List.mem_flatMap.mp hu
      refine Told.of_ne ?_
      rw [Accounted.setProxy_ends hu]
      exact DmState.noConfusion
  have hsame : ∀ setup s, ∀ ctx ∈ (d.startTasks setup s).tasks, ctx.Same := by
    intro setup s ctx hctx
    rcases List.mem_append.mp hctx with hctx | hctx
    · exact h.same ctx hctx
    · obtain ⟨e, he, rfl⟩ := List.mem_map.mp hctx
      exact FetchDeletion.contexts_same s e (List.mem_of_mem_filter he)
  unfold DeletionDaemon.step
  cases e with
  | start =>
      dsimp only
      split
      · exact hmono
      · exact ⟨hmono.same, hmono.told, hmono.readTold⟩
  | select =>
      dsimp only
      split
      case isTrue =>
        refine ⟨hmono.same, fun u hu => ?_, fun s hs u hu => ?_⟩
        · exact hmono.told u (List.mem_append_left _ ((List.mem_append.mp hu).resolve_right List.not_mem_nil))
        · cases hs
          obtain ⟨m, hm, rfl⟩ := List.mem_map.mp hu
          exact hmono.told m (List.mem_append_right _ hm)
      case isFalse => exact hmono
  | startFails => exact ⟨hmono.same, hmono.told, hmono.readTold⟩
  | selectFails =>
      dsimp only
      split
      · refine ⟨hmono.same, fun u hu => hmono.told u (List.mem_append_left _ ?_), hmono.readTold⟩
        exact (List.mem_append.mp hu).resolve_right List.not_mem_nil
      · exact hmono
  | store setup =>
      dsimp only
      split
      · exact hmono
      case _ s hs =>
        exact ⟨hsame setup s.delOps, hstart setup s hs, fun _ hnone => absurd hnone (by simp [DeletionDaemon.startTasks])⟩
  | storeFails setup | storeThrows setup =>
      dsimp only
      split
      · exact hmono
      case _ s hs =>
        refine ⟨hsame setup s.delOps, fun u hu => ?_, fun _ hnone => by cases hnone⟩
        rcases List.mem_append.mp hu with hu | hu
        · exact hstart setup s hs u (List.mem_append_left _ hu)
        · rcases List.mem_append.mp hu with hu | hu
          · exact hmono.told u (List.mem_append_right _ hu)
          · rcases List.mem_append.mp hu with hu | hu
            · exact hmono.readTold s hs u hu
            · obtain ⟨op, -, rfl⟩ := List.mem_map.mp hu
              exact Told.of_ne DmState.noConfusion
  | run k answer =>
      dsimp only
      split
      case _ hnone => exact hmono
      case _ ctx hk =>
        refine ⟨fun c hc => h.same c (List.eraseIdx_subset hc), fun u hu => ?_, hmono.readTold⟩
        have hcases : u ∈ d.pending ++ d.messages ∨ u ∈ DeletionTask.run answer ctx := by
          simp only [DeletionDaemon.pending, List.mem_append] at hu ⊢
          tauto
        rcases hcases with hu | hu
        · exact hmono.told u hu
        · have hnew : d.answered (.run k answer) = ctx.jobs.map fun e => ⟨e, answer⟩ := by
            simp only [DeletionDaemon.answered, hk]
          rw [hnew]
          exact (told_run (h.same ctx (List.mem_of_getElem? hk)) answer hu).mono (List.subset_append_right _ _)
  | report k =>
      dsimp only
      split
      · exact hmono
      case _ u hk =>
        refine ⟨hmono.same, fun u' hu' => hmono.told u' ?_, hmono.readTold⟩
        have hu := List.mem_of_getElem? hk
        have hsub : u' ∈ d.reporting.eraseIdx k → u' ∈ d.reporting := fun hu' => List.eraseIdx_subset hu'
        simp only [DeletionDaemon.pending, List.mem_append, List.mem_singleton] at hu' ⊢
        rcases hu' with (hu' | hu' | hu' | rfl) | hu'
        · exact .inl (.inl (hsub hu'))
        · exact .inl (.inr (.inl hu'))
        · exact .inl (.inr (.inr hu'))
        · exact .inl (.inl hu)
        · exact .inr hu'
  | wake =>
      dsimp only
      split
      · refine ⟨hmono.same, fun u hu => hmono.told u ?_, hmono.readTold⟩
        simp only [DeletionDaemon.pending, List.mem_append, List.not_mem_nil] at hu ⊢
        tauto
      · exact hmono
  | flush =>
      refine ⟨hmono.same, fun u hu => hmono.told u ?_, hmono.readTold⟩
      simp only [DeletionDaemon.pending, List.mem_append, List.not_mem_nil] at hu ⊢
      tauto
  | flushFails | flushThrows =>
      refine ⟨hmono.same, fun u hu => hmono.told u ?_, hmono.readTold⟩
      simp only [DeletionDaemon.putBack, DeletionDaemon.pending, List.mem_append, List.not_mem_nil] at hu ⊢
      tauto
  | recover =>
      refine ⟨hmono.same, fun u hu => hmono.told u ?_, hmono.readTold⟩
      simp only [DeletionDaemon.pending, List.mem_append] at hu ⊢
      tauto
  | exit =>
      exact ⟨fun _ hctx => absurd hctx List.not_mem_nil, fun u hu => hmono.told u (List.mem_append_right _ hu),
        fun _ hnone => absurd hnone (by simp)⟩

theorem finishes_step (d : DeletionDaemon) (e : DaemonEvent) : Finishes (d.stored e) db (d.step db e).1 := by
  have hstored : ∀ {s : SelectedDeletions}, d.selected = some s →
      Finishes (d.selected.elim [] fun s => startedStates s.messages s.delOps) db
        (DeletionStep.exec (.store d.node (startedStates s.messages s.delOps)) db) := by
    intro s hs
    rw [hs, Option.elim_some]
    exact finishes_store d.node _
  unfold DeletionDaemon.step
  cases e with
  | start =>
      dsimp only
      split
      · exact Finishes.refl _ db
      · exact finishes_exec_dm fun _ _ => DmState.noConfusion
  | store setup =>
      dsimp only
      split
      · exact Finishes.refl _ db
      · exact hstored ‹_›
  | storeThrows setup =>
      dsimp only
      split
      · exact Finishes.refl _ db
      · exact hstored ‹_›
  | flush | flushThrows => exact finishes_store d.node d.tmp
  | _ =>
      dsimp only
      first
        | exact Finishes.refl _ db
        | (split <;> exact Finishes.refl _ db)

/-- What is stored is true. -/
theorem Truthful.stored (h : Truthful answered d) (e : DaemonEvent) : ∀ u ∈ d.stored e, Told answered u := by
  intro u hu
  cases e with
  | store setup | storeThrows setup =>
      cases hs : d.selected with
      | none => simp [DeletionDaemon.stored, hs] at hu
      | some s =>
          simp only [DeletionDaemon.stored, hs, Option.elim_some] at hu
          rcases List.mem_append.mp hu with hu | hu
          · exact h.readTold s hs u hu
          · obtain ⟨op, -, rfl⟩ := List.mem_map.mp hu
            exact Told.of_ne DmState.noConfusion
  | flush | flushThrows =>
      refine h.told u ?_
      have hu : u ∈ d.tmp := hu
      simp [DeletionDaemon.pending, hu]
  | _ => cases hu

end step

/-! ## The service -/

namespace DeletionService

/-- What is finished in the database was so at first or has been deleted, and nothing else is to be reported. -/
structure Honest (db₀ : Db) (s : DeletionService) : Prop where
  daemons : ∀ d ∈ s.daemons, Truthful s.answered d
  rows : ∀ f r, s.db.dms.find? f = some r → r.fileState = .finished →
    (∃ r₀, db₀.dms.find? f = some r₀ ∧ r₀.fileState = .finished) ∨ ∃ a ∈ s.answered, a.entry.fileId = f ∧ a.Deleted

theorem Honest.change {db₀ : Db} {s : DeletionService} {db' : Db} (h : s.Honest db₀) (hdb : Finishes [] s.db db') :
    Honest db₀ { s with db := db' } where
  daemons := h.daemons
  rows := by
    intro f r' hr' hst
    rcases hdb f r' hr' hst with ⟨r, hr, hst⟩ | ⟨u, hu, -⟩
    · exact h.rows f r hr hst
    · cases hu

theorem Honest.step {db₀ : Db} {s : DeletionService} (e : ServiceEvent) (h : s.Honest db₀) : (s.step e).Honest db₀ := by
  cases e with
  | daemon i e =>
      unfold DeletionService.step
      dsimp only
      split
      · exact h
      case _ d hd =>
        have hmem := List.mem_of_getElem? hd
        constructor
        case daemons =>
          intro d' hd'
          rcases List.mem_or_eq_of_mem_set hd' with hd' | rfl
          · have hd := h.daemons d' hd'
            have hgrow : s.answered ⊆ s.answered ++ d.answered e := List.subset_append_left _ _
            exact ⟨hd.same, fun u hu => (hd.told u hu).mono hgrow,
              fun sel hsel u hu => (hd.readTold sel hsel u hu).mono hgrow⟩
          · exact (h.daemons d hmem).step
        case rows =>
          intro f r' hr' hst
          rcases finishes_step d e f r' hr' hst with ⟨r, hr, hst⟩ | ⟨u, hu, rfl, hst⟩
          · exact (h.rows f r hr hst).imp id fun ⟨a, ha, hdeleted⟩ => ⟨a, List.mem_append_left _ ha, hdeleted⟩
          · obtain ⟨a, ha, hdeleted⟩ := (h.daemons d hmem).stored e u hu hst
            exact .inr ⟨a, List.mem_append_left _ ha, hdeleted⟩
  | aggregate jobIds => exact h.change (finishes_aggregate jobIds)
  | cancel f => exact h.change (finishes_cancel f)
  | fixDeleteInconsistencies j => exact h.change (finishes_exec_dm fun _ _ => DmState.noConfusion)
  | submit r => exact h.change (finishes_insertDm r)

/-- Whatever fails, in whatever order the daemons, the users and the server act: a deletion that becomes finished in the
database is one that a storage has been asked for and has answered without an error. -/
theorem finished_deletions_answered (db : Db) (nodes : List Node) (es : List ServiceEvent) {f : Nat} {r : DmRow}
    (hr : (run step { db, daemons := nodes.map fun node => { node } } es).db.dms.find? f = some r)
    (hst : r.fileState = .finished) : (∃ r₀, db.dms.find? f = some r₀ ∧ r₀.fileState = .finished) ∨
      ∃ a ∈ (run step { db, daemons := nodes.map fun node => { node } } es).answered, a.entry.fileId = f ∧ a.Deleted := by
  have hinit : Honest db { db, daemons := nodes.map fun node => { node } } := by
    refine ⟨fun d hd => ?_, fun f r hr hst => .inl ⟨r, hr, hst⟩⟩
    obtain ⟨node, -, rfl⟩ := List.mem_map.mp hd
    exact ⟨fun _ hctx => absurd hctx List.not_mem_nil, fun _ hu => absurd hu List.not_mem_nil,
      fun _ hnone => absurd hnone (by simp)⟩
  have hevents : ∀ e ∈ es, (fun _ : ServiceEvent => True) e := fun _ _ => trivial
  have hrun := (meets_of_forall hevents).invariant (I := Honest db) (fun _ e _ h => h.step e) hinit
  exact hrun.rows f r hr hst

/-- A fetch, and a task whose report is stored. -/
def finishedDeletion : DeletionService :=
  run step { db := twoHosts.db, daemons := [{ hostname := "a", hashEnd := 32766 }].map fun node => { node } }
    (firstFetch ++ [.daemon 0 (.run 0 ⟨0, fun _ => none⟩), .daemon 0 (.report 0), .daemon 0 .wake, .daemon 0 .flush])

theorem finishedDeletion_finished : (finishedDeletion.db.dms.find? 1).map (·.fileState) = some .finished := by
  simp only [finishedDeletion, firstFetch, List.cons_append, List.nil_append, run_cons, run_nil]
  rfl

theorem finished_deletions_answered_flushed : ∃ a ∈ finishedDeletion.answered, a.entry.fileId = 1 ∧ a.Deleted := by
  obtain ⟨r, hr, hst⟩ := Option.map_eq_some_iff.mp finishedDeletion_finished
  have hanswered := finished_deletions_answered twoHosts.db [{ hostname := "a", hashEnd := 32766 }] _ hr hst
  refine hanswered.resolve_left ?_
  rintro ⟨r₀, hr₀, hst₀⟩
  cases hr₀
  cases hst₀

end DeletionService

end Fts3.QosDaemon
