import Fts3.QosDaemon.DeletionService

/-!
# Deletions in flight

A deletion that is started in the database is in the hands of the daemon that its segment belongs to, in every run of the
service in which the states of a fetch are stored and gfal2 gives the tasks their contexts.
-/

namespace Fts3.QosDaemon

open Fts3.Machine Fts3.MySql

/-! ## What a daemon has in its hands -/

section inFlight

variable {d : DeletionDaemon} {setup : FetchDeletion.Triplet → Gfal2Setup}

theorem id_setProxy (h : setup k ≠ .noContext) (ctx : JobContext) :
    ((if (setup k).isReady then [ctx] else []).flatMap fun ctx => ctx.jobs.map (·.id)) ++
      (setProxy (setup k) ctx).map (fun u => (u.jobId, u.fileId)) = ctx.jobs.map (·.id) := by
  cases hsetup : setup k with
  | ready => simp [Gfal2Setup.isReady, setProxy]
  | proxyError error => simp [Gfal2Setup.isReady, setProxy, updateDeletions, deletionUpdate, Entry.id]
  | noContext => exact absurd hsetup h

theorem perm_append_swap {α : Type} (a b c d : List α) : ((a ++ b) ++ (c ++ d)).Perm ((a ++ c) ++ (b ++ d)) := by
  rw [List.append_assoc, List.append_assoc]
  apply List.Perm.append_left
  rw [← List.append_assoc, ← List.append_assoc]
  exact List.perm_append_comm.append_right d

/-- The contexts of a fetch are in the tasks and in the updates. -/
theorem inFlight_contexts (hsetup : ∀ k, setup k ≠ .noContext) (contexts : List (FetchDeletion.Triplet × JobContext)) :
    ((((contexts.filter fun e => (setup e.1).isReady).map (·.2)).flatMap fun ctx => ctx.jobs.map (·.id)) ++
      (contexts.flatMap fun e => setProxy (setup e.1) e.2).map fun u => (u.jobId, u.fileId)).Perm
        (contexts.flatMap fun e => e.2.jobs.map (·.id)) := by
  induction contexts with
  | nil => rfl
  | cons e contexts ih =>
      have hfirst := id_setProxy (hsetup e.1) e.2
      have htasks : ((((e :: contexts).filter fun e => (setup e.1).isReady).map (·.2)).flatMap fun ctx =>
          ctx.jobs.map (·.id)) = ((if (setup e.1).isReady then [e.2] else []).flatMap fun ctx => ctx.jobs.map (·.id)) ++
            (((contexts.filter fun e => (setup e.1).isReady).map (·.2)).flatMap fun ctx => ctx.jobs.map (·.id)) := by
        rw [List.filter_cons]
        split
        · simp
        · simp
      rw [htasks, List.flatMap_cons, List.flatMap_cons, List.map_append, ← hfirst]
      exact (perm_append_swap _ _ _ _).trans (ih.append_left _)

theorem inFlight_startTasks (hsetup : ∀ k, setup k ≠ .noContext) (delOps : List DeleteOperation) :
    (d.startTasks setup delOps).inFlight.Perm (d.inFlight ++
      delOps.flatMap fun op => if (FetchDeletion.entry op).isValidOp then [(op.jobId, op.fileId)] else []) := by
  have hfiles := (FetchDeletion.contexts_perm delOps).map fun p => p.2.id
  rw [List.map_flatMap, List.map_flatMap] at hfiles
  simp only [List.map_map] at hfiles
  have hops : (delOps.flatMap fun op => (if (FetchDeletion.entry op).isValidOp then
      [(FetchDeletion.key op, FetchDeletion.entry op)] else []).map fun p => p.2.id) =
        delOps.flatMap fun op => if (FetchDeletion.entry op).isValidOp then [(op.jobId, op.fileId)] else [] := by
    apply List.flatMap_congr
    intro op _
    split
    · rfl
    · rfl
  rw [hops] at hfiles
  have hnew := (inFlight_contexts hsetup (FetchDeletion.contexts delOps).entries).trans hfiles
  apply List.perm_iff_count.mpr
  intro id
  have hcount := hnew.count_eq id
  simp only [DeletionDaemon.inFlight, DeletionDaemon.pending, DeletionDaemon.startTasks, List.flatMap_append,
    List.map_append, List.count_append] at hcount ⊢
  omega

/-- A task that runs has its files still to report. -/
theorem inFlight_run {k : Nat} {ctx : JobContext} (hk : d.tasks[k]? = some ctx) (hsame : ctx.Same) (answer : Answer) :
    { d with tasks := d.tasks.eraseIdx k, reporting := d.reporting ++ DeletionTask.run answer ctx }.inFlight.Perm
      d.inFlight := by
  obtain ⟨hlt, hget⟩ := List.getElem?_eq_some_iff.mp hk
  have htasks := (List.getElem_cons_eraseIdx_perm hlt).flatMap_right fun ctx => ctx.jobs.map (·.id)
  have hreports := (DeletionTask.run_perm hsame answer).map fun u => (u.jobId, u.fileId)
  rw [List.map_map] at hreports
  apply List.perm_iff_count.mpr
  intro id
  have hcount := htasks.count_eq id
  have hcount' : ((DeletionTask.run answer ctx).map fun u => (u.jobId, u.fileId)).count id =
      (ctx.jobs.map (·.id)).count id := hreports.count_eq id
  simp only [hget, List.flatMap_cons, DeletionDaemon.inFlight, DeletionDaemon.pending, List.map_append,
    List.count_append] at hcount ⊢
  omega

theorem inFlight_report {k : Nat} {u : MinFileStatus DmState} (hk : d.reporting[k]? = some u) :
    { d with reporting := d.reporting.eraseIdx k, updates := d.updates ++ [u] }.inFlight.Perm d.inFlight := by
  obtain ⟨hlt, hget⟩ := List.getElem?_eq_some_iff.mp hk
  have hreporting := (List.getElem_cons_eraseIdx_perm hlt).map fun u => (u.jobId, u.fileId)
  apply List.perm_iff_count.mpr
  intro id
  have hcount := hreporting.count_eq id
  rw [hget, ← List.singleton_append, List.map_append] at hcount
  simp only [DeletionDaemon.inFlight, DeletionDaemon.pending, List.map_append, List.count_append] at hcount ⊢
  omega

theorem inFlight_wake (h : d.tmp = []) : { d with updates := [], tmp := d.updates }.inFlight.Perm d.inFlight := by
  simp [DeletionDaemon.inFlight, DeletionDaemon.pending, h]

theorem inFlight_putBack : d.putBack.inFlight.Perm d.inFlight := by
  apply List.perm_iff_count.mpr
  intro id
  simp only [DeletionDaemon.putBack, DeletionDaemon.inFlight, DeletionDaemon.pending, List.map_append,
    List.count_append, List.map_nil, List.count_nil]
  omega

theorem inFlight_flush : d.inFlight.Perm ({ d with tmp := [] }.inFlight ++ d.tmp.map fun u => (u.jobId, u.fileId)) := by
  apply List.perm_iff_count.mpr
  intro id
  simp only [DeletionDaemon.inFlight, DeletionDaemon.pending, List.map_append, List.count_append, List.map_nil,
    List.count_nil]
  omega

end inFlight

/-! ## What the others do to the rows -/

/-- What a row says is enough for a task. -/
def ValidDm (r : DmRow) : Prop :=
  r.jobId ≠ "" ∧ 0 < r.fileId ∧ r.sourceSurl.getD "" ≠ ""

instance (r : DmRow) : Decidable (ValidDm r) :=
  inferInstanceAs (Decidable (_ ∧ _ ∧ _))

theorem ValidDm.same {r r' : DmRow} (h : ValidDm r) (hsame : SameDm r r') : ValidDm r' := by
  unfold ValidDm
  rw [hsame.jobId, hsame.fileId, hsame.sourceSurl]
  exact h

/-- A change of `t_dm` in which the daemon has no part: the rows stay, and none of its segment is started. -/
structure Foreign (d : DeletionDaemon) (db db' : Db) : Prop where
  origin : ∀ f r', db'.dms.find? f = some r' → (∃ r, db.dms.find? f = some r ∧ SameDm r r') ∨ ValidDm r'
  kept : ∀ f r, db.dms.find? f = some r → ∃ r', db'.dms.find? f = some r' ∧ SameDm r r'
  started : ∀ f r', db'.dms.find? f = some r' → r'.fileState = .started → d.Holds r' →
    ∃ r, db.dms.find? f = some r ∧ SameDm r r' ∧ r.fileState = .started

section foreign

variable {d : DeletionDaemon} {db db' : Db}

theorem Foreign.refl (d : DeletionDaemon) (db : Db) : Foreign d db db where
  origin := fun _ r hr => .inl ⟨r, hr, SameDm.refl r⟩
  kept := fun _ r hr => ⟨r, hr, SameDm.refl r⟩
  started := fun _ r' hr' hstarted _ => ⟨r', hr', SameDm.refl r', hstarted⟩

instance (r : DmRow) : Decidable (d.Holds r) :=
  inferInstanceAs (Decidable (_ ∧ _))

theorem DeletionDaemon.Holds.same {r r' : DmRow} (h : d.Holds r) (hsame : SameDm r r') : d.Holds r' := by
  unfold DeletionDaemon.Holds
  rw [hsame.hashedId]
  exact h

theorem DeletionDaemon.Holds.of_same {r r' : DmRow} (h : d.Holds r') (hsame : SameDm r r') : d.Holds r := by
  unfold DeletionDaemon.Holds
  rw [← hsame.hashedId]
  exact h

theorem foreign_update {p : DmRow → Bool} {g : DmRow → DmRow} (hsame : ∀ r, SameDm r (g r))
    (hdms : db'.dms = db.dms.update p g fun r => (hsame r).fileId)
    (hstate : ∀ r, p r = true → (g r).fileState ≠ .started) : Foreign d db db' where
  origin := by
    intro f r' hr'
    rw [hdms, Sql.Table.find?_update, Option.map_eq_some_iff] at hr'
    obtain ⟨r, hr, rfl⟩ := hr'
    refine .inl ⟨r, hr, ?_⟩
    split
    · exact hsame r
    · exact SameDm.refl r
  kept := by
    intro f r hr
    rw [hdms, Sql.Table.find?_update, hr, Option.map_some]
    refine ⟨_, rfl, ?_⟩
    split
    · exact hsame r
    · exact SameDm.refl r
  started := by
    intro f r' hr' hstarted _
    rw [hdms, Sql.Table.find?_update, Option.map_eq_some_iff] at hr'
    obtain ⟨r, hr, rfl⟩ := hr'
    refine ⟨r, hr, ?_⟩
    split at hstarted
    case isTrue hp => exact absurd hstarted (hstate r hp)
    case isFalse hp =>
      rw [if_neg hp]
      exact ⟨SameDm.refl r, hstarted⟩

theorem foreign_cancel (f : Nat) : Foreign d db (DeletionStep.exec (.cancel f) db) :=
  foreign_update (g := DmRow.cancel) (fun _ => ⟨rfl, rfl, rfl, rfl⟩) rfl fun _ _ => DmState.noConfusion

theorem foreign_requeue (node : Node) : Foreign d db (DeletionStep.exec (.requeue node) db) :=
  foreign_update (DmUpdate.same_sets _ db.now) rfl fun _ _ => DmState.noConfusion

theorem foreign_fixDeleteInconsistencies (j : String) :
    Foreign d db ((Stmt.dm (.fixDeleteInconsistencies j)).exec db).2 :=
  foreign_update (DmUpdate.same_sets _ db.now) rfl fun _ _ => DmState.noConfusion

theorem foreign_aggregate (jobIds : List String) : Foreign d db (DeletionStep.exec (.aggregate jobIds) db) where
  origin := by
    rw [aggregate_dms]
    exact (Foreign.refl d db).origin
  kept := by
    rw [aggregate_dms]
    exact (Foreign.refl d db).kept
  started := by
    rw [aggregate_dms]
    exact (Foreign.refl d db).started

theorem find?_insertDm {r : DmRow} {f : Nat} {r' : DmRow} (hr' : (insertDm db r).dms.find? f = some r') :
    db.dms.find? f = some r' ∨ r' = submittedDm r := by
  unfold insertDm at hr'
  split at hr'
  case isTrue =>
    have hmem := Sql.Table.mem_of_find? hr'
    rcases List.mem_append.mp hmem with hmem | hmem
    · left
      have hkey := Sql.Table.find?_key hmem
      rwa [Sql.Table.find?_some hr'] at hkey
    · exact .inr (List.mem_singleton.mp hmem)
  case isFalse => exact .inl hr'

theorem find?_insertDm_of_some {r : DmRow} {f : Nat} {r' : DmRow} (hr' : db.dms.find? f = some r') :
    (insertDm db r).dms.find? f = some r' := by
  unfold insertDm
  split
  case isTrue =>
    have hmem : r' ∈ db.dms.rows ++ [submittedDm r] := List.mem_append_left _ (Sql.Table.mem_of_find? hr')
    rw [← Sql.Table.find?_some hr']
    exact Sql.Table.find?_key (t := ⟨db.dms.rows ++ [submittedDm r], nodup_submitted ‹_›⟩) hmem
  case isFalse => exact hr'

theorem foreign_insertDm {r : DmRow} (h : ValidDm r) : Foreign d db (insertDm db r) where
  origin := by
    intro f r' hr'
    rcases find?_insertDm hr' with hr | rfl
    · exact .inl ⟨r', hr, SameDm.refl r'⟩
    · exact .inr h
  kept := fun f r₀ hr₀ => ⟨r₀, find?_insertDm_of_some hr₀, SameDm.refl r₀⟩
  started := by
    intro f r' hr' hstarted _
    rcases find?_insertDm hr' with h | rfl
    · exact ⟨r', h, SameDm.refl r', hstarted⟩
    · cases hstarted

theorem kept_store {node : Node} {ops : List (MinFileStatus DmState)} {f : Nat} {r : DmRow} (hr : db.dms.find? f = some r) :
    ∃ r', (DeletionStep.exec (.store node ops) db).dms.find? f = some r' ∧ SameDm r r' := by
  have hsome : ((DeletionStep.exec (.store node ops) db).dms.find? f).isSome = true := by
    rw [store_isSome, hr]
    rfl
  obtain ⟨r', hr'⟩ := Option.isSome_iff_exists.mp hsome
  obtain ⟨r₀, hr₀, hsame, -⟩ := store_row hr'
  obtain rfl := Option.some.inj (hr.symm.trans hr₀)
  exact ⟨r', hr', hsame⟩

/-- A batch that starts no deletion of the segment. -/
theorem foreign_store {node : Node} {ops : List (MinFileStatus DmState)}
    (h : ∀ i ∈ ops, i.state = .started → ∀ r, db.dms.find? i.fileId = some r → ¬d.Holds r) :
    Foreign d db (DeletionStep.exec (.store node ops) db) where
  origin := by
    intro f r' hr'
    obtain ⟨r, hr, hsame, -⟩ := store_row hr'
    exact .inl ⟨r, hr, hsame⟩
  kept := fun _ _ hr => kept_store hr
  started := by
    intro f r' hr' hstarted hholds
    obtain ⟨r, hr, hsame, rfl | ⟨i, hi, rfl, hst | ⟨-, hst⟩⟩⟩ := store_row hr'
    · exact ⟨r', hr, hsame, hstarted⟩
    · exact absurd (hholds.of_same hsame) (h i hi (hst.symm.trans hstarted) r hr)
    · rw [hstarted] at hst
      cases hst

end foreign

/-! ## The invariant -/

/-- What the daemon has in its hands is known to the database, none of its updates starts a deletion, and what is started
in its segment is in its hands. -/
structure Accounted (db : Db) (d : DeletionDaemon) : Prop where
  lists : d.node.ListsOnce
  same : ∀ ctx ∈ d.tasks, ctx.Same
  ends : ∀ u ∈ d.pending ++ d.messages, u.state ≠ .started
  readEnds : ∀ s, d.selected = some s → ∀ u ∈ s.messages, u.state ≠ .started
  known : ∀ id ∈ d.inFlight, ∃ r, db.dms.find? id.2 = some r ∧ r.jobId = id.1
  selected : ∀ s, d.selected = some s → ∀ op ∈ s.delOps, ∃ r, db.dms.find? op.fileId = some r ∧ r.jobId = op.jobId ∧
    r.sourceSurl.getD "" = op.surl ∧ d.Holds r
  started : d.up = true → ∀ f r, db.dms.find? f = some r → r.fileState = .started → d.Holds r →
    (r.jobId, r.fileId) ∈ d.inFlight

namespace Accounted

variable {db db' : Db} {d d' : DeletionDaemon}

theorem foreign (hdb : Foreign d db db') (h : Accounted db d) : Accounted db' d where
  lists := h.lists
  same := h.same
  ends := h.ends
  readEnds := h.readEnds
  known := by
    intro id hid
    obtain ⟨r, hr, hjob⟩ := h.known id hid
    obtain ⟨r', hr', hsame⟩ := hdb.kept _ _ hr
    exact ⟨r', hr', hsame.jobId.trans hjob⟩
  selected := by
    intro s hs op hop
    obtain ⟨r, hr, hjob, hsurl, hholds⟩ := h.selected s hs op hop
    obtain ⟨r', hr', hsame⟩ := hdb.kept _ _ hr
    exact ⟨r', hr', hsame.jobId.trans hjob, hsame.sourceSurl ▸ hsurl, hholds.same hsame⟩
  started := by
    intro hup f r' hr' hstarted hholds
    obtain ⟨r, hr, hsame, hst⟩ := hdb.started f r' hr' hstarted hholds
    rw [hsame.jobId, hsame.fileId]
    exact h.started hup f r hr hst (hholds.of_same hsame)

/-- The daemon moves what it has in its hands. -/
theorem moves (h : Accounted db d) (hnode : d'.node = d.node) (hup : d'.up = d.up) (hselected : d'.selected = d.selected)
    (hperm : d'.inFlight.Perm d.inFlight) (hsame : ∀ ctx ∈ d'.tasks, ctx.Same)
    (hends : ∀ u ∈ d'.pending ++ d'.messages, u.state ≠ .started) : Accounted db d' where
  lists := hnode ▸ h.lists
  same := hsame
  ends := hends
  readEnds := hselected ▸ h.readEnds
  known := fun id hid => h.known id (hperm.subset hid)
  selected := by
    unfold DeletionDaemon.Holds
    rw [hselected, hnode]
    exact h.selected
  started := by
    unfold DeletionDaemon.Holds
    rw [hup, hnode]
    exact fun hup f r hr hstarted hholds => hperm.symm.subset (h.started hup f r hr hstarted hholds)

theorem known_of_mem (h : Accounted db d) {u : MinFileStatus DmState} (hu : u ∈ d.pending) :
    ∃ r, db.dms.find? u.fileId = some r ∧ r.jobId = u.jobId :=
  h.known (u.jobId, u.fileId) (List.mem_append_right _ (List.mem_map.mpr ⟨u, hu, rfl⟩))

/-! ### The steps of the daemon itself -/

theorem start (h : Accounted db d) :
    Accounted (DeletionStep.exec (.requeue d.node) db) { d with up := true } := by
  have hforeign := h.foreign (foreign_requeue d.node)
  refine ⟨hforeign.lists, hforeign.same, hforeign.ends, hforeign.readEnds, hforeign.known, hforeign.selected, ?_⟩
  intro _ f r' hr' hstarted hholds
  obtain ⟨r, -, -, heq⟩ := exec_dm_row (u := .requeueStartedDeletes d.node.hashStart d.node.hashEnd) hr'
  split at heq
  case isTrue =>
    rw [heq] at hstarted
    cases hstarted
  case isFalse hsel =>
    subst heq
    simp [DmUpdate.selects, hstarted, hholds.1, hholds.2] at hsel

theorem select (h : Accounted db d) :
    Accounted db { d with
      selected := some ⟨d.messages.map readBack, (selectDeletions d.node).answer Stmt.exec db⟩, messages := [] } where
  lists := h.lists
  same := h.same
  ends := fun u hu => h.ends u (List.mem_append_left _ ((List.mem_append.mp hu).resolve_right List.not_mem_nil))
  readEnds := by
    rintro s hs u hu
    cases hs
    obtain ⟨m, hm, rfl⟩ := List.mem_map.mp hu
    exact h.ends m (List.mem_append_right _ hm)
  known := h.known
  selected := by
    rintro s hs op hop
    cases hs
    obtain ⟨r, j, hrow⟩ := (answer_selectDeletions h.lists).1 op hop
    exact ⟨r, hrow.row, hrow.jobId, hrow.surl, hrow.hashStart, hrow.hashEnd⟩
  started := h.started

theorem valid_entry (hvalid : ∀ f r, db.dms.find? f = some r → ValidDm r) {op : DeleteOperation} {r : DmRow}
    (hr : db.dms.find? op.fileId = some r) (hjob : r.jobId = op.jobId) (hsurl : r.sourceSurl.getD "" = op.surl) :
    (FetchDeletion.entry op).isValidOp = true := by
  obtain ⟨hjob', hfile, hsurl'⟩ := hvalid _ r hr
  rw [hjob] at hjob'
  rw [hsurl] at hsurl'
  rw [Sql.Table.find?_some hr] at hfile
  simp [Entry.isValidOp, FetchDeletion.entry, hjob', hsurl', hfile]

theorem updateDeletions_state {ctx : JobContext} {state : DmState} {error : Option JobError} {u : MinFileStatus DmState}
    (hu : u ∈ updateDeletions ctx state error) : u.state = state := by
  obtain ⟨e, -, rfl⟩ := List.mem_map.mp hu
  rfl

theorem setProxy_ends {setup : Gfal2Setup} {ctx : JobContext} {u : MinFileStatus DmState} (hu : u ∈ setProxy setup ctx) :
    u.state = .failed := by
  cases setup with
  | ready => cases hu
  | proxyError error => exact updateDeletions_state hu
  | noContext => cases hu

theorem run_ends {ctx : JobContext} (hsame : ctx.Same) {answer : Answer} {u : MinFileStatus DmState}
    (hu : u ∈ DeletionTask.run answer ctx) : u.state ≠ .started := by
  obtain ⟨e, -, rfl⟩ := List.mem_map.mp ((DeletionTask.run_perm hsame answer).subset hu)
  unfold deletionUpdate DeletionTask.verdict
  split
  · split
    · exact DmState.noConfusion
    · exact DmState.noConfusion
  · exact DmState.noConfusion

theorem store (hvalid : ∀ f r, db.dms.find? f = some r → ValidDm r) {setup : FetchDeletion.Triplet → Gfal2Setup}
    (hsetup : ∀ k, setup k ≠ .noContext) {s : SelectedDeletions} (hs : d.selected = some s) (h : Accounted db d) :
    Accounted (DeletionStep.exec (.store d.node (startedStates s.messages s.delOps)) db)
      (d.startTasks setup s.delOps) := by
  have hperm := inFlight_startTasks (d := d) hsetup s.delOps
  have hnew : ∀ op ∈ s.delOps, (op.jobId, op.fileId) ∈ (d.startTasks setup s.delOps).inFlight := by
    intro op hop
    obtain ⟨r, hr, hjob, hsurl, -⟩ := h.selected s hs op hop
    apply hperm.symm.subset
    refine List.mem_append_right _ (List.mem_flatMap.mpr ⟨op, hop, ?_⟩)
    rw [if_pos (valid_entry hvalid hr hjob hsurl)]
    exact List.mem_singleton_self _
  constructor
  case lists => exact h.lists
  case same =>
    intro ctx hctx
    rcases List.mem_append.mp hctx with hctx | hctx
    · exact h.same ctx hctx
    · obtain ⟨e, he, rfl⟩ := List.mem_map.mp hctx
      exact FetchDeletion.contexts_same s.delOps e (List.mem_of_mem_filter he)
  case ends =>
    intro u hu
    have hcases : u ∈ d.pending ++ d.messages ∨
        u ∈ (FetchDeletion.contexts s.delOps).entries.flatMap fun e => setProxy (setup e.1) e.2 := by
      simp only [DeletionDaemon.pending, DeletionDaemon.startTasks, List.mem_append] at hu ⊢
      tauto
    rcases hcases with hu | hu
    · exact h.ends u hu
    · obtain ⟨e, -, hu⟩ := List.mem_flatMap.mp hu
      rw [setProxy_ends hu]
      exact DmState.noConfusion
  case readEnds => exact fun _ hnone => absurd hnone (by simp [DeletionDaemon.startTasks])
  case selected => exact fun _ hnone => absurd hnone (by simp [DeletionDaemon.startTasks])
  case known =>
    intro id hid
    have hbefore : ∃ r, db.dms.find? id.2 = some r ∧ r.jobId = id.1 := by
      rcases List.mem_append.mp (hperm.subset hid) with hid | hid
      · exact h.known id hid
      · obtain ⟨op, hop, hid⟩ := List.mem_flatMap.mp hid
        obtain ⟨r, hr, hjob, -⟩ := h.selected s hs op hop
        split at hid
        · rw [List.mem_singleton.mp hid]
          exact ⟨r, hr, hjob⟩
        · cases hid
    obtain ⟨r, hr, hjob⟩ := hbefore
    obtain ⟨r', hr', hsame⟩ := kept_store hr
    exact ⟨r', hr', hsame.jobId.trans hjob⟩
  case started =>
    intro hup f r' hr' hstarted hholds
    obtain ⟨r, hr, hsame, heq | ⟨i, hi, hfile, hst⟩⟩ := store_row hr'
    · subst heq
      exact hperm.symm.subset (List.mem_append_left _ (h.started hup f r' hr hstarted hholds))
    · rcases List.mem_append.mp hi with hi | hi
      · rcases hst with hst | ⟨-, hst⟩
        · exact absurd (hst.symm.trans hstarted) (h.readEnds s hs i hi)
        · rw [hstarted] at hst
          cases hst
      · obtain ⟨op, hop, rfl⟩ := List.mem_map.mp hi
        obtain ⟨r₀, hr₀, hjob, -⟩ := h.selected s hs op hop
        have hrow : r = r₀ := Option.some.inj (hr.symm.trans (hfile ▸ hr₀))
        have hid : (r'.jobId, r'.fileId) = (op.jobId, op.fileId) := by
          rw [hsame.jobId, hrow, hjob, Sql.Table.find?_some hr', ← hfile]
          rfl
        rw [hid]
        exact hnew op hop

theorem putBack (h : Accounted db d) : Accounted db d.putBack := by
  refine h.moves rfl rfl rfl inFlight_putBack h.same fun u hu => h.ends u ?_
  simp only [DeletionDaemon.putBack, DeletionDaemon.pending, List.mem_append, List.not_mem_nil] at hu ⊢
  tauto

theorem flush (h : Accounted db d) : Accounted (DeletionStep.exec (.store d.node d.tmp) db) { d with tmp := [] } := by
  have hperm : d.inFlight.Perm ({ d with tmp := [] }.inFlight ++ d.tmp.map fun u => (u.jobId, u.fileId)) := inFlight_flush
  have hends : ∀ u ∈ d.tmp, u.state ≠ .started := fun u hu => h.ends u (by simp [DeletionDaemon.pending, hu])
  have hforeign : Accounted (DeletionStep.exec (.store d.node d.tmp) db) d :=
    h.foreign (foreign_store fun i hi hst => absurd hst (hends i hi))
  refine ⟨h.lists, h.same, fun u hu => h.ends u ?_, h.readEnds, fun id hid => ?_, hforeign.selected, ?_⟩
  · simp only [DeletionDaemon.pending, List.mem_append] at hu ⊢
    tauto
  · exact hforeign.known id (hperm.symm.subset (List.mem_append_left _ hid))
  · intro hup f r' hr' hstarted hholds
    obtain ⟨r, hr, hsame, -⟩ := store_row hr'
    have hjob : ∀ i ∈ d.tmp, i.fileId = f → i.jobId = r.jobId := by
      rintro i hi rfl
      obtain ⟨r₀, hr₀, hjob⟩ := h.known_of_mem (u := i) (by simp [DeletionDaemon.pending, hi])
      rw [Option.some.inj (hr.symm.trans hr₀), hjob]
    rcases List.mem_append.mp (hperm.subset (hforeign.started hup f r' hr' hstarted hholds)) with hid | hid
    · exact hid
    · obtain ⟨u, hu, hid⟩ := List.mem_map.mp hid
      have hfile : u.fileId = f := by
        rw [← Sql.Table.find?_some hr']
        exact congrArg Prod.snd hid
      exact absurd hstarted (store_ends hends hr hjob ⟨u, hu, hfile⟩ hr')

end Accounted

/-! ## The service -/

section step

variable {db : Db} {d : DeletionDaemon}

/-- A start requeues, the states of a fetch are stored without an exception, and gfal2 has a context for each task. -/
def DaemonEvent.Regular : DaemonEvent → Prop
  | .startFails => False
  | .store setup => ∀ k, setup k ≠ .noContext
  | .storeFails _ | .storeThrows _ => False
  | _ => True

theorem node_step (d : DeletionDaemon) (db : Db) (e : DaemonEvent) : (d.step db e).2.node = d.node := by
  unfold DeletionDaemon.step
  cases e with
  | flushFails | flushThrows => rfl
  | _ => dsimp only <;> split <;> rfl

theorem Accounted.step (hvalid : ∀ f r, db.dms.find? f = some r → ValidDm r) {e : DaemonEvent} (he : e.Regular)
    (h : Accounted db d) : Accounted (d.step db e).1 (d.step db e).2 := by
  unfold DeletionDaemon.step
  cases e with
  | start =>
      dsimp only
      split
      · exact h
      · exact h.start
  | select =>
      dsimp only
      split
      · exact h.select
      · exact h
  | store setup =>
      dsimp only
      split
      · exact h
      · exact h.store hvalid he ‹_›
  | selectFails =>
      dsimp only
      split
      · refine h.moves rfl rfl rfl (List.Perm.refl _) h.same fun u hu => h.ends u (List.mem_append_left _ ?_)
        exact (List.mem_append.mp hu).resolve_right List.not_mem_nil
      · exact h
  | startFails | storeFails setup | storeThrows setup => exact False.elim he
  | run k answer =>
      dsimp only
      split
      · exact h
      case _ ctx hk =>
        have hsame := h.same ctx (List.mem_of_getElem? hk)
        refine h.moves rfl rfl rfl (inFlight_run hk hsame answer) (fun c hc => h.same c (List.eraseIdx_subset hc)) ?_
        intro u hu
        have hcases : u ∈ d.pending ++ d.messages ∨ u ∈ DeletionTask.run answer ctx := by
          simp only [DeletionDaemon.pending, List.mem_append] at hu ⊢
          tauto
        rcases hcases with hu | hu
        · exact h.ends u hu
        · exact Accounted.run_ends hsame hu
  | report k =>
      dsimp only
      split
      · exact h
      case _ u hk =>
        refine h.moves rfl rfl rfl (inFlight_report hk) h.same fun u' hu' => h.ends u' ?_
        have hu := List.mem_of_getElem? hk
        have hsub : u' ∈ d.reporting.eraseIdx k → u' ∈ d.reporting := fun hu' => List.eraseIdx_subset hu'
        simp only [DeletionDaemon.pending, List.mem_append, List.mem_singleton] at hu' ⊢
        rcases hu' with (hu' | hu' | hu' | rfl) | hu'
        · exact .inl (.inl (hsub hu'))
        · exact .inl (.inr (.inl hu'))
        · exact .inl (.inr (.inr hu'))
        · exact .inl (.inl hu)
        · exact .inr hu'
  | wake =>
      dsimp only
      split
      case isTrue htmp =>
        have htmp : d.tmp = [] := List.isEmpty_iff.mp htmp
        refine h.moves rfl rfl rfl (inFlight_wake htmp) h.same fun u hu => h.ends u ?_
        simpa [DeletionDaemon.pending, htmp] using hu
      case isFalse => exact h
  | flush => exact h.flush
  | flushFails => exact h.putBack
  | flushThrows =>
      have hends : ∀ u ∈ d.tmp, u.state ≠ .started := fun u hu => h.ends u (by simp [DeletionDaemon.pending, hu])
      exact (h.foreign (foreign_store fun i hi hst => absurd hst (hends i hi))).putBack
  | recover =>
      refine h.moves rfl rfl rfl (List.Perm.refl _) h.same fun u hu => h.ends u ?_
      simp only [DeletionDaemon.pending, List.mem_append] at hu ⊢
      tauto
  | exit =>
      refine ⟨h.lists, fun _ hctx => absurd hctx List.not_mem_nil, fun u hu => h.ends u (List.mem_append_right _ hu),
        fun _ hnone => absurd hnone (by simp), fun _ hid => absurd hid List.not_mem_nil,
        fun _ hnone => absurd hnone (by simp), fun hup => absurd hup Bool.false_ne_true⟩

theorem Accounted.foreign_store_started {d' : DeletionDaemon} (hapart : ∀ r, d.Holds r → ¬d'.Holds r)
    {s : SelectedDeletions} (hs : d.selected = some s) (h : Accounted db d) :
    Foreign d' db (DeletionStep.exec (.store d.node (startedStates s.messages s.delOps)) db) := by
  refine foreign_store fun i hi hst r hr => ?_
  rcases List.mem_append.mp hi with hi | hi
  · exact absurd hst (h.readEnds s hs i hi)
  · obtain ⟨op, hop, rfl⟩ := List.mem_map.mp hi
    obtain ⟨r₀, hr₀, -, -, hholds⟩ := h.selected s hs op hop
    rw [Option.some.inj (hr.symm.trans hr₀)]
    exact hapart r₀ hholds

/-- The step of a daemon starts no deletion of another segment. -/
theorem Accounted.foreign_step {d' : DeletionDaemon} (hapart : ∀ r, d.Holds r → ¬d'.Holds r) {e : DaemonEvent}
    (h : Accounted db d) : Foreign d' db (d.step db e).1 := by
  unfold DeletionDaemon.step
  cases e with
  | start =>
      dsimp only
      split
      · exact Foreign.refl d' db
      · exact foreign_requeue d.node
  | store setup =>
      dsimp only
      split
      · exact Foreign.refl d' db
      · exact h.foreign_store_started hapart ‹_›
  | storeThrows setup =>
      dsimp only
      split
      · exact Foreign.refl d' db
      · exact h.foreign_store_started hapart ‹_›
  | flush | flushThrows =>
      refine foreign_store fun i hi hst => absurd hst (h.ends i ?_)
      simp [DeletionDaemon.pending, hi]
  | _ =>
      dsimp only
      first
        | exact Foreign.refl d' db
        | (split <;> exact Foreign.refl d' db)

end step

namespace DeletionService

/-- What the condition asks of an event; a row that is submitted is enough for a task. -/
def Regular : ServiceEvent → Prop
  | .daemon _ e => e.Regular
  | .submit r => ValidDm r
  | _ => True

/-- Each daemon has in its hands what is started in its segment, and no two segments overlap. -/
structure Sound (s : DeletionService) : Prop where
  valid : ∀ f r, s.db.dms.find? f = some r → ValidDm r
  apart : ∀ (i j : Nat) (d d' : DeletionDaemon), s.daemons[i]? = some d → s.daemons[j]? = some d' → i ≠ j →
    ∀ r, d.Holds r → ¬d'.Holds r
  accounted : ∀ (i : Nat) (d : DeletionDaemon), s.daemons[i]? = some d → Accounted s.db d

theorem Sound.change {s : DeletionService} {db' : Db} (h : s.Sound) (hdb : ∀ d, Foreign d s.db db') :
    Sound { s with db := db' } where
  valid := by
    intro f r' hr'
    rcases (hdb { node := { hostname := "" } }).origin f r' hr' with ⟨r, hr, hsame⟩ | hvalid
    · exact (h.valid f r hr).same hsame
    · exact hvalid
  apart := h.apart
  accounted := fun i d hd => (h.accounted i d hd).foreign (hdb d)

theorem getElem?_set_cases {α : Type} {as : List α} {i j : Nat} {a a' : α} (h : (as.set i a)[j]? = some a') :
    j = i ∧ a' = a ∨ j ≠ i ∧ as[j]? = some a' := by
  rw [List.getElem?_set] at h
  split at h
  case isTrue hij =>
    split at h
    · exact .inl ⟨hij.symm, (Option.some.inj h).symm⟩
    · cases h
  case isFalse hij => exact .inr ⟨Ne.symm hij, h⟩

theorem Sound.step {s : DeletionService} {e : ServiceEvent} (he : Regular e) (h : s.Sound) : (s.step e).Sound := by
  cases e with
  | daemon i e =>
      unfold DeletionService.step
      dsimp only
      split
      · exact h
      case _ d hd =>
        have hacc := h.accounted i d hd
        have hholds : ∀ r, (d.step s.db e).2.Holds r ↔ d.Holds r := by
          intro r
          unfold DeletionDaemon.Holds
          rw [node_step]
        constructor
        case valid =>
          intro f r' hr'
          let nobody : DeletionDaemon := { node := { hostname := "", hashStart := 1, hashEnd := 0 } }
          have hnobody : ∀ r, d.Holds r → ¬ nobody.Holds r := by
            intro r _ hr
            simp only [DeletionDaemon.Holds, nobody] at hr
            omega
          have hother := hacc.foreign_step hnobody (e := e)
          rcases hother.origin f r' hr' with ⟨r, hr, hsame⟩ | hvalid
          · exact (h.valid f r hr).same hsame
          · exact hvalid
        case apart =>
          intro i₁ i₂ d₁ d₂ hd₁ hd₂ hne r
          rcases getElem?_set_cases hd₁ with ⟨rfl, rfl⟩ | ⟨-, hold₁⟩
          · rcases getElem?_set_cases hd₂ with ⟨rfl, -⟩ | ⟨-, hold₂⟩
            · exact absurd rfl hne
            · rw [hholds]
              exact h.apart i₁ i₂ d d₂ hd hold₂ hne r
          · rcases getElem?_set_cases hd₂ with ⟨rfl, rfl⟩ | ⟨-, hold₂⟩
            · rw [hholds]
              exact h.apart i₁ i₂ d₁ d hold₁ hd hne r
            · exact h.apart i₁ i₂ d₁ d₂ hold₁ hold₂ hne r
        case accounted =>
          intro j d' hd'
          rcases getElem?_set_cases hd' with ⟨rfl, rfl⟩ | ⟨hne, hold⟩
          · exact hacc.step h.valid he
          · exact (h.accounted j d' hold).foreign (hacc.foreign_step (h.apart i j d d' hd hold hne.symm))
  | aggregate jobIds => exact h.change fun d => foreign_aggregate jobIds
  | cancel f => exact h.change fun d => foreign_cancel f
  | fixDeleteInconsistencies j => exact h.change fun d => foreign_fixDeleteInconsistencies j
  | submit r => exact h.change fun d => foreign_insertDm he

/-- Daemons that do not run yet: each lists its queues once, has no start left in its queue on the disk, and has the
segment of its host in the heartbeats. -/
structure Initial (s : DeletionService) : Prop where
  valid : ∀ r ∈ s.db.dms.rows, ValidDm r
  fresh : ∀ d ∈ s.daemons, d = { node := d.node, messages := d.messages }
  lists : ∀ d ∈ s.daemons, d.node.ListsOnce
  ends : ∀ d ∈ s.daemons, ∀ u ∈ d.messages, u.state ≠ .started
  segments : ∀ (i : Nat) (d : DeletionDaemon), s.daemons[i]? = some d →
    d.node.hashStart = (HashSegment.of i s.daemons.length).start ∧
      d.node.hashEnd = (HashSegment.of i s.daemons.length).last
  few : s.daemons.length ≤ 65535

theorem Initial.sound {s : DeletionService} (h : s.Initial) : s.Sound where
  valid := fun f r hr => h.valid r (Sql.Table.mem_of_find? hr)
  apart := by
    intro i j d d' hd hd' hne r hr hr'
    obtain ⟨hstart, hlast⟩ := h.segments i d hd
    obtain ⟨hstart', hlast'⟩ := h.segments j d' hd'
    obtain ⟨hi, -⟩ := List.getElem?_eq_some_iff.mp hd
    obtain ⟨hj, -⟩ := List.getElem?_eq_some_iff.mp hd'
    unfold DeletionDaemon.Holds at hr hr'
    rw [hstart, hlast] at hr
    rw [hstart', hlast'] at hr'
    have hcount : 1 ≤ s.daemons.length := Nat.lt_of_le_of_lt (Nat.zero_le i) hi
    have hplace := ((HashSegment.holds_iff hcount h.few hi r.hashedId).mp hr).2
    have hplace' := ((HashSegment.holds_iff hcount h.few hj r.hashedId).mp hr').2
    exact hne (hplace.trans hplace'.symm)
  accounted := by
    intro i d hd
    have hmem := List.mem_of_getElem? hd
    have hends := h.ends d hmem
    have hlists := h.lists d hmem
    rw [h.fresh d hmem]
    exact ⟨hlists, fun _ hctx => absurd hctx List.not_mem_nil, hends, fun _ hnone => absurd hnone (by simp),
      fun _ hid => absurd hid List.not_mem_nil, fun _ hnone => absurd hnone (by simp),
      fun hup => absurd hup Bool.false_ne_true⟩

/-- In every run of any number of daemons, with the cancellations, the sanity checks and the new deletions between their
steps, and with failures of the updater, crashes and restarts: a deletion that is started belongs to a task or to an update
of the daemon of its segment, if that runs. -/
theorem started_deletions_in_flight (s : DeletionService) (es : List ServiceEvent) (hs : s.Initial)
    (hes : ∀ e ∈ es, Regular e) {i : Nat} {d : DeletionDaemon} (hd : (run step s es).daemons[i]? = some d)
    (hup : d.up = true) {f : Nat} {r : DmRow} (hr : (run step s es).db.dms.find? f = some r)
    (hstarted : r.fileState = .started) (hholds : d.Holds r) : (r.jobId, r.fileId) ∈ d.inFlight := by
  have hsound : (run step s es).Sound :=
    (meets_of_forall hes).invariant (I := Sound) (fun _ _ he h => h.step he) hs.sound
  exact (hsound.accounted i d hd).started hup f r hr hstarted hholds

/-- Two hosts, and a deletion in the segment of the first one. -/
def twoHosts : DeletionService where
  db :=
    { dms := .ofRows [{ fileId := 1, jobId := "j", fileState := .delete, sourceSurl := some "root://h/f", sourceSe := "h"
                        voName := "v", hashedId := 7 }]
      jobs := .ofRows [{ jobId := "j", jobState := .delete, jobType := some .regular, voName := "v", userDn := "u" }] }
  daemons :=
    [{ node := { hostname := "a", hashStart := 0, hashEnd := 32766 } },
      { node := { hostname := "b", hashStart := 32767, hashEnd := 65535 } }]

def firstFetch : List ServiceEvent :=
  [.daemon 0 .start, .daemon 1 .start, .daemon 0 .select, .daemon 0 (.store fun _ => .ready)]

theorem twoHosts_initial : twoHosts.Initial where
  valid := by decide
  fresh := by simp [twoHosts]
  lists := by
    intro d hd links
    simp only [twoHosts, List.mem_cons, List.not_mem_nil, or_false] at hd
    rcases hd with rfl | rfl
    · rfl
    · rfl
  ends := by simp [twoHosts]
  segments := by
    intro i d hd
    rcases i with _ | _ | i
    · cases hd
      decide
    · cases hd
      decide
    · cases hd
  few := by decide

theorem started_deletions_in_flight_fetched : ∃ d, (run step twoHosts firstFetch).daemons[0]? = some d ∧
    ("j", 1) ∈ d.inFlight := by
  refine ⟨_, rfl, ?_⟩
  exact started_deletions_in_flight twoHosts firstFetch twoHosts_initial
    (by simp [firstFetch, Regular, DaemonEvent.Regular]) (i := 0) rfl rfl (f := 1) rfl rfl (by decide)

end DeletionService

end Fts3.QosDaemon
