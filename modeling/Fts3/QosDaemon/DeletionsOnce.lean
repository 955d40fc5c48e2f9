import Fts3.QosDaemon.DeletionsInFlight

/-!
# No deletion twice in flight

While no update fails to be stored, a deletion is in the hands of one daemon only, and there it is in one task or in one
update.
-/

namespace Fts3.QosDaemon

open Fts3.Machine Fts3.MySql

namespace DeletionDaemon

/-- The deletions that have been read and are not stored as started. -/
def selectedIds (d : DeletionDaemon) : List (String × Nat) :=
  d.selected.elim [] fun s => s.delOps.map fun op => (op.jobId, op.fileId)

end DeletionDaemon

/-! ## The invariant -/

/-- What the daemon has in its hands is there once, belongs to its segment and does not wait in the database. -/
structure Single (db : Db) (d : DeletionDaemon) : Prop where
  nodup : (d.selectedIds ++ d.inFlight).Nodup
  own : ∀ id ∈ d.inFlight, ∀ r, db.dms.find? id.2 = some r → d.Holds r ∧ r.fileState ≠ .delete
  messages : d.messages = []
  readMessages : ∀ s, d.selected = some s → s.messages = []
  down : d.up = false → d.inFlight = [] ∧ d.selected = none

/-- A change of `t_dm` in which no deletion of the segment is queued. -/
def Queues (d : DeletionDaemon) (db db' : Db) : Prop :=
  ∀ f r r', db.dms.find? f = some r → db'.dms.find? f = some r' → d.Holds r → r'.fileState = .delete → r.fileState = .delete

section queues

variable {d : DeletionDaemon} {db db' : Db}

theorem Queues.refl (d : DeletionDaemon) (db : Db) : Queues d db db := by
  intro f r r' hr hr' _ hst
  rwa [Option.some.inj (hr.symm.trans hr')]

theorem queues_cancel (f : Nat) : Queues d db (DeletionStep.exec (.cancel f) db) := by
  intro f' r r' hr hr' _ hst
  have hfind : (DeletionStep.exec (.cancel f) db).dms.find? f' =
      (db.dms.find? f').map fun r => if r.fileId = f && !r.fileState.terminal then DmRow.cancel r else r :=
    Sql.Table.find?_update _ _ _ DmRow.cancel_fileId f'
  rw [hr', hr, Option.map_some, Option.some.injEq] at hfind
  split at hfind
  · rw [hfind] at hst
    cases hst
  · rwa [hfind] at hst

theorem queues_fixDeleteInconsistencies (j : String) :
    Queues d db ((Stmt.dm (.fixDeleteInconsistencies j)).exec db).2 := by
  intro f r r' hr hr' _ hst
  obtain ⟨r₀, hr₀, -, heq⟩ := exec_dm_row hr'
  obtain rfl := Option.some.inj (hr.symm.trans hr₀)
  split at heq
  · rw [heq] at hst
    cases hst
  · rwa [heq] at hst

theorem queues_aggregate (jobIds : List String) : Queues d db (DeletionStep.exec (.aggregate jobIds) db) := by
  unfold Queues
  rw [aggregate_dms]
  exact Queues.refl d db

theorem queues_insertDm (r : DmRow) : Queues d db (insertDm db r) := by
  intro f r₀ r' hr₀ hr' _ hst
  rwa [Option.some.inj ((find?_insertDm_of_some hr₀).symm.trans hr')]

theorem queues_requeue {node : Node}
    (hapart : ∀ r, d.Holds r → ¬(node.hashStart ≤ r.hashedId ∧ r.hashedId ≤ node.hashEnd)) :
    Queues d db (DeletionStep.exec (.requeue node) db) := by
  intro f r r' hr hr' hholds hst
  obtain ⟨r₀, hr₀, -, heq⟩ := exec_dm_row (u := .requeueStartedDeletes node.hashStart node.hashEnd) hr'
  obtain rfl := Option.some.inj (hr.symm.trans hr₀)
  split at heq
  case isTrue hsel =>
    simp only [DmUpdate.selects, Bool.and_eq_true, decide_eq_true_eq] at hsel
    exact absurd ⟨hsel.1.2, hsel.2⟩ (hapart r hholds)
  case isFalse => rwa [heq] at hst

/-- A batch about deletions of other segments. -/
theorem queues_store {node : Node} {ops : List (MinFileStatus DmState)}
    (h : ∀ i ∈ ops, ∀ r, db.dms.find? i.fileId = some r → ¬d.Holds r) :
    Queues d db (DeletionStep.exec (.store node ops) db) := by
  intro f r r' hr hr' hholds hst
  have hnot : ∀ i ∈ ops, i.fileId ≠ f := by
    rintro i hi rfl
    exact h i hi r hr hholds
  rwa [Option.some.inj (hr.symm.trans (store_row_of_not_mem hnot hr'))]

end queues

namespace Single

variable {db db' : Db} {d d' : DeletionDaemon}

theorem foreign (hdb : Foreign d db db') (hqueues : Queues d db db') (hacc : Accounted db d) (h : Single db d) :
    Single db' d where
  nodup := h.nodup
  own := by
    intro id hid r' hr'
    obtain ⟨r, hr, -⟩ := hacc.known id hid
    obtain ⟨r₀, hr₀, hsame⟩ := hdb.kept _ _ hr
    obtain rfl := Option.some.inj (hr'.symm.trans hr₀)
    obtain ⟨hholds, hst⟩ := h.own id hid r hr
    exact ⟨hholds.same hsame, fun hdelete => hst (hqueues _ r r' hr hr' hholds hdelete)⟩
  messages := h.messages
  readMessages := h.readMessages
  down := h.down

theorem moves (h : Single db d) (hnode : d'.node = d.node) (hup : d'.up = d.up) (hselected : d'.selected = d.selected)
    (hperm : d'.inFlight.Perm d.inFlight) (hmessages : d'.messages = []) : Single db d' where
  nodup := by
    unfold DeletionDaemon.selectedIds
    rw [hselected]
    exact (hperm.append_left _).nodup_iff.mpr h.nodup
  own := by
    unfold DeletionDaemon.Holds
    rw [hnode]
    exact fun id hid => h.own id (hperm.subset hid)
  messages := hmessages
  readMessages := hselected ▸ h.readMessages
  down := by
    intro hdown
    obtain ⟨hempty, hnone⟩ := h.down (hup ▸ hdown)
    rw [hempty] at hperm
    exact ⟨hperm.eq_nil, hselected.trans hnone⟩

/-- Two files in the hands of the daemon are different rows. -/
theorem eq_of_fileId (hacc : Accounted db d) {id id' : String × Nat} (hid : id ∈ d.inFlight) (hid' : id' ∈ d.inFlight)
    (hfile : id.2 = id'.2) : id = id' := by
  obtain ⟨r, hr, hjob⟩ := hacc.known id hid
  obtain ⟨r', hr', hjob'⟩ := hacc.known id' hid'
  rw [← hfile, hr] at hr'
  obtain rfl := Option.some.inj hr'
  exact Prod.ext (hjob.symm.trans hjob') hfile

/-! ### The steps of the daemon itself -/

theorem start (hdown : d.up = false) (h : Single db d) :
    Single (DeletionStep.exec (.requeue d.node) db) { d with up := true } := by
  obtain ⟨hempty, hnone⟩ := h.down hdown
  have hinFlight : { d with up := true }.inFlight = [] := hempty
  refine ⟨h.nodup, fun id hid => ?_, h.messages, h.readMessages, fun hup => absurd hup.symm Bool.false_ne_true⟩
  rw [hinFlight] at hid
  cases hid

theorem select (hacc : Accounted db d) (hup : d.up = true) (hnone : d.selected = none) (h : Single db d) :
    Single db { d with
      selected := some ⟨d.messages.map readBack, (selectDeletions d.node).answer Stmt.exec db⟩, messages := [] } := by
  obtain ⟨hrows, hnodup⟩ :
      (∀ op ∈ (selectDeletions d.node).answer Stmt.exec db, ∃ r j, FetchedRow d.node db op r j) ∧
        (((selectDeletions d.node).answer Stmt.exec db).map (·.fileId)).Nodup := answer_selectDeletions hacc.lists
  constructor
  case nodup =>
    have hids : (((selectDeletions d.node).answer Stmt.exec db).map fun op => (op.jobId, op.fileId)).Nodup := by
      apply List.Nodup.of_map Prod.snd
      rw [List.map_map]
      exact hnodup
    have hflight : d.inFlight.Nodup := by simpa [DeletionDaemon.selectedIds, hnone] using h.nodup
    refine List.nodup_append.mpr ⟨hids, hflight, ?_⟩
    rintro id hid id' hid' rfl
    obtain ⟨op, hop, rfl⟩ := List.mem_map.mp hid
    obtain ⟨r, j, hrow⟩ := hrows op hop
    exact (h.own _ hid' r hrow.row).2 hrow.waiting
  case own => exact h.own
  case messages => rfl
  case readMessages =>
    rintro s hs
    cases hs
    rw [h.messages]
    rfl
  case down => exact fun hdown => absurd (hup.symm.trans hdown) (by simp)

theorem store (hvalid : ∀ f r, db.dms.find? f = some r → ValidDm r) {setup : FetchDeletion.Triplet → Gfal2Setup}
    (hsetup : ∀ k, setup k ≠ .noContext) {s : SelectedDeletions} (hs : d.selected = some s) (hacc : Accounted db d)
    (h : Single db d) : Single (DeletionStep.exec (.store d.node (startedStates s.messages s.delOps)) db)
      (d.startTasks setup s.delOps) := by
  have hselected : d.selectedIds = s.delOps.map fun op => (op.jobId, op.fileId) := by
    rw [DeletionDaemon.selectedIds, hs]
    rfl
  have hops : (s.delOps.flatMap fun op => if (FetchDeletion.entry op).isValidOp then [(op.jobId, op.fileId)] else []) =
      d.selectedIds := by
    rw [hselected, List.map_eq_flatMap]
    apply List.flatMap_congr
    intro op hop
    obtain ⟨r, hr, hjob, hsurl, -⟩ := hacc.selected s hs op hop
    exact if_pos (Accounted.valid_entry hvalid hr hjob hsurl)
  have hperm := inFlight_startTasks (d := d) hsetup s.delOps
  rw [hops] at hperm
  have hstates : startedStates s.messages s.delOps = s.delOps.map DeleteOperation.started := by
    rw [startedStates, h.readMessages s hs]
    rfl
  rw [hstates]
  constructor
  case nodup => exact (hperm.trans List.perm_append_comm).nodup_iff.mpr h.nodup
  case own =>
    intro id hid r' hr'
    obtain ⟨r, hr, hsame, -⟩ := store_row hr'
    rcases List.mem_append.mp (hperm.subset hid) with hid | hid
    · -- the rows of the other deletions stay as they are
      have hnot : ∀ i ∈ s.delOps.map DeleteOperation.started, i.fileId ≠ id.2 := by
        rintro i hi hfile
        obtain ⟨op, hop, rfl⟩ := List.mem_map.mp hi
        obtain ⟨r₀, hr₀, hjob₀, -⟩ := hacc.selected s hs op hop
        obtain ⟨r₁, hr₁, hjob₁⟩ := hacc.known id hid
        have hrow : r₀ = r₁ := Option.some.inj (hr₀.symm.trans ((congrArg _ hfile).trans hr₁))
        have heq : id = (op.jobId, op.fileId) := Prod.ext (hjob₁.symm.trans (hrow ▸ hjob₀)) hfile.symm
        have hmem : id ∈ d.selectedIds := by
          rw [hselected, heq]
          exact List.mem_map.mpr ⟨op, hop, rfl⟩
        exact (List.nodup_append.mp h.nodup).2.2 id hmem id hid rfl
      exact h.own id hid r' (store_row_of_not_mem hnot hr')
    · rw [hselected] at hid
      obtain ⟨op, hop, rfl⟩ := List.mem_map.mp hid
      obtain ⟨r₀, hr₀, -, -, hholds⟩ := hacc.selected s hs op hop
      obtain rfl := Option.some.inj (hr.symm.trans hr₀)
      refine ⟨hholds.same hsame, ?_⟩
      have hstarted : r'.fileState = .started := by
        refine store_starts (fun i hi => ?_) ⟨op.started, List.mem_map.mpr ⟨op, hop, rfl⟩, rfl⟩ hr'
        obtain ⟨op', -, rfl⟩ := List.mem_map.mp hi
        rfl
      rw [hstarted]
      exact DmState.noConfusion
  case messages => exact h.messages
  case readMessages => exact fun _ hnone => absurd hnone (by simp [DeletionDaemon.startTasks])
  case down =>
    intro hdown
    have hnone := (h.down hdown).2
    rw [hs] at hnone
    cases hnone

theorem putBack (htmp : d.tmp = []) (h : Single db d) : Single db d.putBack := by
  refine h.moves rfl rfl rfl inFlight_putBack ?_
  rw [DeletionDaemon.putBack, h.messages, htmp]
  rfl

theorem flush (hacc : Accounted db d) (h : Single db d) :
    Single (DeletionStep.exec (.store d.node d.tmp) db) { d with tmp := [] } := by
  have hperm : d.inFlight.Perm ({ d with tmp := [] }.inFlight ++ d.tmp.map fun u => (u.jobId, u.fileId)) := inFlight_flush
  have hnodup := (List.nodup_append.mp h.nodup).2.1
  have hrest : { d with tmp := [] }.inFlight ⊆ d.inFlight := fun id hid => hperm.symm.subset (List.mem_append_left _ hid)
  constructor
  case nodup =>
    have hsplit := (hperm.append_left d.selectedIds).nodup_iff.mp h.nodup
    rw [← List.append_assoc] at hsplit
    exact (List.nodup_append.mp hsplit).1
  case own =>
    intro id hid r' hr'
    have hnot : ∀ i ∈ d.tmp, i.fileId ≠ id.2 := by
      intro i hi hfile
      have hmem : (i.jobId, i.fileId) ∈ d.tmp.map fun u => (u.jobId, u.fileId) := List.mem_map.mpr ⟨i, hi, rfl⟩
      have heq := eq_of_fileId hacc (hperm.symm.subset (List.mem_append_right _ hmem)) (hrest hid) hfile
      rw [heq] at hmem
      exact (List.nodup_append.mp (hperm.nodup_iff.mp hnodup)).2.2 id hid id hmem rfl
    exact h.own id (hrest hid) r' (store_row_of_not_mem hnot hr')
  case messages => exact h.messages
  case readMessages => exact h.readMessages
  case down =>
    intro hdown
    obtain ⟨hempty, hnone⟩ := h.down hdown
    refine ⟨List.eq_nil_iff_forall_not_mem.mpr fun id hid => ?_, hnone⟩
    have hmem := hrest hid
    rw [hempty] at hmem
    cases hmem

end Single

/-! ## The service -/

namespace DeletionService

/-- No update fails to be stored or is written to the disk, and the conditions of the other events are met. -/
def Stores (s : DeletionService) : ServiceEvent → Prop
  | .daemon i .flushFails | .daemon i .flushThrows => ∀ d ∈ s.daemons[i]?, d.tmp = []
  | .daemon i .recover => ∀ d ∈ s.daemons[i]?, d.updates = []
  | e => Regular e

theorem Stores.regular {s : DeletionService} {e : ServiceEvent} (h : s.Stores e) : Regular e := by
  cases e with
  | daemon i e =>
      cases e with
      | flushFails | flushThrows | recover => trivial
      | _ => exact h
  | _ => exact h

end DeletionService

section step

variable {db : Db} {d : DeletionDaemon}

theorem Single.step (hvalid : ∀ f r, db.dms.find? f = some r → ValidDm r) {e : DaemonEvent} (he : e.Regular)
    (hfails : e = .flushFails ∨ e = .flushThrows → d.tmp = []) (hrecover : e = .recover → d.updates = []) (hacc : Accounted db d)
    (h : Single db d) : Single (d.step db e).1 (d.step db e).2 := by
  unfold DeletionDaemon.step
  cases e with
  | start =>
      dsimp only
      split
      case isTrue => exact h
      case isFalse hup => exact h.start (by simpa using hup)
  | select =>
      dsimp only
      split
      case isTrue hsel => exact h.select hacc hsel.1 (Option.isNone_iff_eq_none.mp hsel.2)
      case isFalse => exact h
  | store setup =>
      dsimp only
      split
      · exact h
      · exact h.store hvalid he ‹_› hacc
  | selectFails =>
      dsimp only
      split
      · exact h.moves rfl rfl rfl (List.Perm.refl _) rfl
      · exact h
  | startFails | storeFails setup | storeThrows setup => exact False.elim he
  | run k answer =>
      dsimp only
      split
      · exact h
      case _ ctx hk =>
        exact h.moves rfl rfl rfl (inFlight_run hk (hacc.same ctx (List.mem_of_getElem? hk)) answer) h.messages
  | report k =>
      dsimp only
      split
      · exact h
      · exact h.moves rfl rfl rfl (inFlight_report ‹_›) h.messages
  | wake =>
      dsimp only
      split
      case isTrue htmp => exact h.moves rfl rfl rfl (inFlight_wake (List.isEmpty_iff.mp htmp)) h.messages
      case isFalse => exact h
  | flush => exact h.flush hacc
  | flushFails => exact h.putBack (hfails (.inl rfl))
  | flushThrows =>
      -- nothing is stored
      rw [hfails (.inr rfl)]
      exact h.putBack (hfails (.inr rfl))
  | recover =>
      refine h.moves rfl rfl rfl (List.Perm.refl _) ?_
      rw [h.messages, hrecover rfl]
      rfl
  | exit =>
      exact ⟨List.nodup_nil, fun _ hid => absurd hid List.not_mem_nil, h.messages, fun _ hnone => absurd hnone (by simp),
        fun _ => ⟨rfl, rfl⟩⟩

theorem Single.queues_store_started {d' : DeletionDaemon} (hapart : ∀ r, d.Holds r → ¬d'.Holds r)
    (hacc : Accounted db d) {s : SelectedDeletions} (hs : d.selected = some s) (h : Single db d) :
    Queues d' db (DeletionStep.exec (.store d.node (startedStates s.messages s.delOps)) db) := by
  refine queues_store fun i hi r hr => ?_
  rw [startedStates, h.readMessages s hs, List.nil_append] at hi
  obtain ⟨op, hop, rfl⟩ := List.mem_map.mp hi
  obtain ⟨r₀, hr₀, -, -, hholds⟩ := hacc.selected s hs op hop
  rw [Option.some.inj (hr.symm.trans hr₀)]
  exact hapart r₀ hholds

/-- The step of a daemon queues no deletion of another segment. -/
theorem Single.queues_step {d' : DeletionDaemon} (hapart : ∀ r, d.Holds r → ¬d'.Holds r) {e : DaemonEvent}
    (hacc : Accounted db d) (h : Single db d) : Queues d' db (d.step db e).1 := by
  unfold DeletionDaemon.step
  cases e with
  | start =>
      dsimp only
      split
      · exact Queues.refl d' db
      · exact queues_requeue fun r hr hnode => hapart r hnode hr
  | store setup =>
      dsimp only
      split
      · exact Queues.refl d' db
      · exact h.queues_store_started hapart hacc ‹_›
  | storeThrows setup =>
      dsimp only
      split
      · exact Queues.refl d' db
      · exact h.queues_store_started hapart hacc ‹_›
  | flush | flushThrows =>
      refine queues_store fun i hi r hr => hapart r ?_
      have hmem : (i.jobId, i.fileId) ∈ d.inFlight := by
        refine List.mem_append_right _ (List.mem_map.mpr ⟨i, ?_, rfl⟩)
        simp [DeletionDaemon.pending, hi]
      exact (h.own _ hmem r hr).1
  | _ =>
      dsimp only
      first
        | exact Queues.refl d' db
        | (split <;> exact Queues.refl d' db)

end step

namespace DeletionService

structure Once (s : DeletionService) : Prop extends Sound s where
  single : ∀ (i : Nat) (d : DeletionDaemon), s.daemons[i]? = some d → Single s.db d

theorem Once.change {s : DeletionService} {db' : Db} (h : s.Once) (hdb : ∀ d, Foreign d s.db db')
    (hqueues : ∀ d, Queues d s.db db') : Once { s with db := db' } where
  toSound := h.toSound.change hdb
  single := fun i d hd => (h.single i d hd).foreign (hdb d) (hqueues d) (h.accounted i d hd)

theorem Once.step {s : DeletionService} {e : ServiceEvent} (he : s.Stores e) (h : s.Once) : (s.step e).Once := by
  have hsound := h.toSound.step he.regular
  refine ⟨hsound, ?_⟩
  cases e with
  | daemon i e =>
      unfold DeletionService.step
      dsimp only
      split
      case _ => exact h.single
      case _ d hd =>
        intro j d' hd'
        have hacc := h.accounted i d hd
        have hsingle := h.single i d hd
        rcases getElem?_set_cases hd' with ⟨rfl, rfl⟩ | ⟨hne, hold⟩
        · refine hsingle.step h.valid he.regular ?_ ?_ hacc
          · rintro (rfl | rfl)
            · exact he d hd
            · exact he d hd
          · rintro rfl
            exact he d hd
        · have hapart := h.apart i j d d' hd hold hne.symm
          exact (h.single j d' hold).foreign (hacc.foreign_step hapart) (hsingle.queues_step hapart hacc)
            (h.accounted j d' hold)
  | aggregate jobIds => exact (h.change (fun d => foreign_aggregate jobIds) fun d => queues_aggregate jobIds).single
  | cancel f => exact (h.change (fun d => foreign_cancel f) fun d => queues_cancel f).single
  | fixDeleteInconsistencies j =>
      exact (h.change (fun d => foreign_fixDeleteInconsistencies j) fun d => queues_fixDeleteInconsistencies j).single
  | submit r => exact (h.change (fun d => foreign_insertDm he.regular) fun d => queues_insertDm r).single

theorem Initial.once {s : DeletionService} (h : s.Initial) (hmessages : ∀ d ∈ s.daemons, d.messages = []) : s.Once where
  toSound := h.sound
  single := by
    intro i d hd
    have hmem := List.mem_of_getElem? hd
    have hempty := hmessages d hmem
    rw [h.fresh d hmem] at hempty ⊢
    exact ⟨List.nodup_nil, fun _ hid => absurd hid List.not_mem_nil, hempty, fun _ hnone => absurd hnone (by simp),
      fun _ => ⟨rfl, rfl⟩⟩

/-- In every run in which no update fails to be stored or is left on the disk, with crashes and restarts, no deletion is
twice in the hands of the daemons. -/
theorem deletions_in_flight_once (s : DeletionService) (es : List ServiceEvent) (hs : s.Initial)
    (hmessages : ∀ d ∈ s.daemons, d.messages = []) (hes : Meets step Stores s es) :
    (∀ d ∈ (run step s es).daemons, d.inFlight.Nodup) ∧
      ∀ (i j : Nat) (d d' : DeletionDaemon), (run step s es).daemons[i]? = some d →
        (run step s es).daemons[j]? = some d' → i ≠ j → ∀ id ∈ d.inFlight, id ∉ d'.inFlight := by
  have honce : (run step s es).Once :=
    hes.invariant (I := Once) (fun _ _ he h => h.step he) (hs.once hmessages)
  constructor
  · intro d hd
    obtain ⟨i, hi⟩ := List.getElem?_of_mem hd
    exact (List.nodup_append.mp (honce.single i d hi).nodup).2.1
  · intro i j d d' hd hd' hne id hid hid'
    obtain ⟨r, hr, -⟩ := (honce.accounted i d hd).known id hid
    exact honce.apart i j d d' hd hd' hne r ((honce.single i d hd).own id hid r hr).1
      ((honce.single j d' hd').own id hid' r hr).1

/-- The task has run, and its report is not stored yet. -/
theorem deletions_in_flight_once_reported :
    ∃ d, (run step twoHosts (firstFetch ++ [.daemon 0 (.run 0 ⟨0, fun _ => none⟩)])).daemons[0]? = some d ∧
      d.inFlight.Nodup := by
  have honce := deletions_in_flight_once twoHosts (firstFetch ++ [.daemon 0 (.run 0 ⟨0, fun _ => none⟩)])
    twoHosts_initial (by simp [twoHosts]) (by simp [firstFetch, Meets, Stores, Regular, DaemonEvent.Regular])
  exact ⟨_, rfl, honce.1 _ (List.mem_of_getElem? (i := 0) rfl)⟩

end DeletionService

end Fts3.QosDaemon
