import Fts3.Machine.Admission
import Fts3.Server.SchedulingLoop

/-!
# The demand for the slots of a storage

A round hands out what it has fetched, the VOs in turn, and each executor takes a url-copy process and a slot at both
ends of its link. How many it starts at a storage depends on what the other limits leave room for.
-/

namespace Fts3.Server

open Fts3.Sql Fts3.MySql Fts3.Machine

/-! ## What an executor takes -/

inductive Resource where
  | process
  | inbound (se : String)
  | outbound (se : String)
  deriving DecidableEq

def resourcesOf (tf : TransferFile) : List Resource := [.process, .inbound tf.destSe, .outbound tf.sourceSe]

/-- What the VOs have got in turn, without what is never started. -/
def Serving.complete (sv : Serving) : List TransferFile := (sv.served.map (·.file)).filter fun tf => ¬Incomplete tf

namespace ServeState

/-- What is left of each resource. -/
def left (st : ServeState) : Resource → Int
  | .process => st.availableUrlCopySlots
  | .inbound se => (st.slots.destination se).getD 0
  | .outbound se => (st.slots.source se).getD 0

/-- The loop has been offered what the VOs have got, and has admitted what there was room for. -/
structure Admits (room : Resource → Int) (st : ServeState) (sv : Serving) : Prop where
  handler : st.availableUrlCopySlots ≤ 0 ∨ st.handler = sv.handler
  started : st.started = admitted resourcesOf room sv.complete
  left : st.left = leftAfter resourcesOf room sv.complete

variable {room : Resource → Int} {st : ServeState} {sv : Serving} {vo : String}

theorem complete_step (sv : Serving) (vo : String) : (sv.step vo).handler = (sv.handler.get vo).2 ∧
    (sv.step vo).complete = sv.complete ++ (sv.handler.get vo).1.toList.filter fun tf => ¬Incomplete tf := by
  unfold Serving.step Serving.complete
  split
  · rename_i hget
    simp [hget]
  · rename_i hget
    simp [hget]

theorem forall_resources_iff {tf : TransferFile} : (∀ i ∈ resourcesOf tf, 0 < st.left i) ↔
    ¬st.availableUrlCopySlots ≤ 0 ∧ ¬st.slots.Full tf := by
  simp [resourcesOf, left, SlotsLeft.Full]

theorem getD_take {slot : Option Int} (h : 0 < slot.getD 0) :
    (slot.map fun k : Int => k - (1 : Nat)).getD 0 = slot.getD 0 - 1 := by
  cases slot with
  | none => cases h
  | some k => rfl

/-- An executor takes a unit of each of its resources. -/
theorem left_start {tf : TransferFile} (h : ¬st.slots.Full tf) (handler : TransferFileHandler)
    (started : List TransferFile) :
    left { handler, availableUrlCopySlots := st.availableUrlCopySlots - 1, slots := st.slots.take tf.sourceSe tf.destSe 1
           started } = taken resourcesOf st.left tf := by
  obtain ⟨hdest, hsource⟩ := not_or.mp h
  funext i
  cases i with
  | process => simp [left, taken, resourcesOf]
  | inbound se =>
      by_cases hse : se = tf.destSe
      · subst hse
        simpa [left, taken, resourcesOf, SlotsLeft.take] using getD_take (not_le.mp hdest)
      · simp [left, taken, resourcesOf, SlotsLeft.take, hse]
  | outbound se =>
      by_cases hse : se = tf.sourceSe
      · subst hse
        simpa [left, taken, resourcesOf, SlotsLeft.take] using getD_take (not_le.mp hsource)
      · simp [left, taken, resourcesOf, SlotsLeft.take, hse]

/-! ## The loop admits what is offered -/

theorem admits_start (m : FileMap) (available : Int) (slots : SlotsLeft) :
    Admits (start m available slots).left (start m available slots) (.start m) where
  handler := .inr rfl
  started := rfl
  left := rfl

theorem Admits.serve (h : Admits room st sv) (vo : String) : Admits room (st.serve vo) (sv.step vo) := by
  obtain ⟨hhandler, hcomplete⟩ := complete_step sv vo
  by_cases hslots : st.availableUrlCopySlots ≤ 0
  · have hused : leftAfter resourcesOf room sv.complete .process ≤ 0 := by
      rw [← h.left]
      exact hslots
    have hall : ∀ tf ∈ (sv.handler.get vo).1.toList.filter (fun tf => ¬Incomplete tf), Resource.process ∈ resourcesOf tf :=
      fun tf _ => List.mem_cons_self
    obtain ⟨hnone, hsame⟩ := admitted_of_exhausted hused hall
    rw [serve_of_ended hslots]
    refine ⟨.inl hslots, ?_, ?_⟩
    · rw [hcomplete, admitted_append, hnone, List.append_nil]
      exact h.started
    · rw [hcomplete, leftAfter_append, hsame]
      exact h.left
  · have hsame := h.handler.resolve_left hslots
    cases hget : (sv.handler.get vo).1 with
    | none =>
        rw [serve_of_none hslots (by rw [hsame, hget]), hsame]
        rw [hget, Option.toList_none, List.filter_nil, List.append_nil] at hcomplete
        exact ⟨.inr hhandler.symm, hcomplete ▸ h.started, hcomplete ▸ h.left⟩
    | some tf =>
        rw [hget, Option.toList_some] at hcomplete
        rcases serve_of_file hslots (by rw [hsame, hget]) with ⟨hskip, heq⟩ | ⟨hwhole, hroom, heq⟩
        · rw [heq, hsame]
          by_cases hincomplete : Incomplete tf
          · rw [List.filter_cons_of_neg (by simpa using hincomplete), List.filter_nil, List.append_nil] at hcomplete
            exact ⟨.inr hhandler.symm, hcomplete ▸ h.started, hcomplete ▸ h.left⟩
          · have hnot : ¬∀ i ∈ resourcesOf tf, 0 < leftAfter resourcesOf room sv.complete i := by
              rw [← h.left, forall_resources_iff]
              exact fun hall => hall.2 (hskip.resolve_left hincomplete)
            rw [List.filter_cons_of_pos (by simpa using hincomplete), List.filter_nil] at hcomplete
            refine ⟨.inr hhandler.symm, ?_, ?_⟩
            · rw [hcomplete, admitted_append, admitted, if_neg hnot, admitted, List.append_nil]
              exact h.started
            · rw [hcomplete, leftAfter_append, leftAfter, if_neg hnot, leftAfter]
              exact h.left
        · have hall : ∀ i ∈ resourcesOf tf, 0 < leftAfter resourcesOf room sv.complete i := by
            rw [← h.left, forall_resources_iff]
            exact ⟨hslots, hroom⟩
          rw [List.filter_cons_of_pos (by simpa using hwhole), List.filter_nil] at hcomplete
          rw [heq, hsame]
          refine ⟨.inr hhandler.symm, ?_, ?_⟩
          · rw [hcomplete, admitted_append, admitted, if_pos hall, admitted, ← h.started]
          · rw [hcomplete, leftAfter_append, leftAfter, if_pos hall, leftAfter, ← h.left]
            exact left_start hroom _ _

theorem Admits.serve_foldl (h : Admits room st sv) (vos : List String) :
    Admits room (vos.foldl ServeState.serve st) (run Serving.step sv vos) := by
  induction vos generalizing st sv with
  | nil => exact h
  | cons vo vos ih => exact ih (h.serve vo)

theorem serve_vos (st : ServeState) (vo : String) : (st.serve vo).handler.vos = st.handler.vos := by
  have hget : (st.handler.get vo).2.vos = st.handler.vos := by
    unfold TransferFileHandler.get
    split
    · rfl
    · split <;> rfl
  rcases serve_handler st vo with ⟨-, heq⟩ | heq
  · rw [heq]
  · rw [heq, hget]

theorem serve_foldl_vos (st : ServeState) (vos : List String) : (vos.foldl serve st).handler.vos = st.handler.vos := by
  induction vos generalizing st with
  | nil => rfl
  | cons vo vos ih => rw [List.foldl_cons, ih, serve_vos]

/-- Once the loop has ended, a further pass over the VOs changes nothing. -/
theorem serve_foldl_of_ended (h : st.handler.isEmpty = true ∨ st.availableUrlCopySlots ≤ 0) (vos : List String) :
    vos.foldl serve st = st := by
  by_cases hslots : st.availableUrlCopySlots ≤ 0
  · exact slots_ended hslots vos
  · have hqueues : st.handler.queues = [] := List.isEmpty_iff.mp (h.resolve_right hslots)
    induction vos with
    | nil => rfl
    | cons vo vos ih =>
        have hget : st.handler.get vo = (none, st.handler) := by
          rw [TransferFileHandler.get, hqueues, List.lookup_nil]
        rwa [List.foldl_cons, serve_of_none hslots (by rw [hget]), hget]

/-- The passes of the loop offer what that many passes over the VOs get. -/
theorem Admits.serveAll (h : Admits room st sv) {vos : List String} (hvos : st.handler.vos = vos) (n : Nat) :
    Admits room (serveAll n st) (run Serving.step sv (List.replicate n vos).flatten) := by
  induction n generalizing st sv with
  | zero => exact h
  | succ n ih =>
      rw [ServeState.serveAll, List.replicate_succ, List.flatten_cons, run_append]
      split
      · rename_i hend
        have hpass := h.serve_foldl vos
        rw [serve_foldl_of_ended hend] at hpass
        have hrest := ih hpass hvos
        rwa [serveAll_of_ended hend] at hrest
      · rw [hvos]
        exact ih (h.serve_foldl vos) ((serve_foldl_vos st vos).trans hvos)

theorem served_subset (m : FileMap) (vos : List String) :
    ∀ tf ∈ (run Serving.step (.start m) vos).complete, tf ∈ m.entries.flatMap (·.2) := by
  have hget : ∀ (h : TransferFileHandler) vo, (∀ tf ∈ (h.get vo).1, tf ∈ h.files) ∧
      ∀ tf ∈ (h.get vo).2.files, tf ∈ h.files := by
    intro h vo
    unfold TransferFileHandler.get
    split
    · simp
    · split
      · simp
      · exact ⟨fun tf htf => List.mem_of_find?_eq_some htf, fun tf htf => List.mem_of_mem_eraseP htf⟩
  have hrun : ∀ sv : Serving, (∀ tf ∈ sv.handler.files, tf ∈ m.entries.flatMap (·.2)) →
      (∀ tf ∈ sv.complete, tf ∈ m.entries.flatMap (·.2)) →
        ∀ tf ∈ (run Serving.step sv vos).complete, tf ∈ m.entries.flatMap (·.2) := by
    induction vos with
    | nil => exact fun sv _ h => h
    | cons vo vos ih =>
        intro sv hfiles hserved
        obtain ⟨hhandler, hcomplete⟩ := complete_step sv vo
        obtain ⟨hfound, hleft⟩ := hget sv.handler vo
        refine ih (sv.step vo) ?_ ?_
        · rw [hhandler]
          exact fun tf htf => hfiles tf (hleft tf htf)
        · rw [hcomplete]
          intro tf htf
          rcases List.mem_append.mp htf with htf | htf
          · exact hserved tf htf
          · exact hfiles tf (hfound tf (Option.mem_toList.mp (List.mem_filter.mp htf).1))
  exact hrun (.start m) (fun tf htf => htf) fun tf htf => by cases htf

end ServeState

/-! ## What a round could start -/

section round

variable (node : Node) (tTime : Nat) (chance : RoundChance) (processes : Processes) (db : Db)

/-- The fetch for the queues without a share throws. -/
def UnschedulableRejected : Prop :=
  (getReadyTransfers node tTime chance.toChance
    ((applyVoShares chance (chance.shuffleQueues (pendingQueues db))).answer Stmt.exec db).2).answer Stmt.exec db = none

instance : Decidable (UnschedulableRejected node tTime chance db) :=
  inferInstanceAs (Decidable ((getReadyTransfers node tTime chance.toChance
    ((applyVoShares chance (chance.shuffleQueues (pendingQueues db))).answer Stmt.exec db).2).answer Stmt.exec db = none))

/-- What a round fetches for the picked queues: nothing, if it ends before that. -/
def fetchedIn : List TransferFile :=
  if processes.maxUrlCopy - processes.atStart ≤ 0 ∨ UnschedulableRejected node tTime chance db then []
  else ((getReadyTransfers node tTime chance.toChance (survivors chance db)).answer Stmt.exec db).getD []

/-- The complete transfers among them, in the order in which the VOs get them in turn. -/
def offeredIn : List TransferFile :=
  let m := FileMap.byVo (fetchedIn node tTime chance processes db)
  (run Serving.step (.start m) (List.replicate m.total (m.entries.map (·.1))).flatten).complete

/-- What there is of each resource when the round starts to fork: the limit of a storage, less what is counted there. -/
def roomIn : Resource → Int
  | .process => processes.maxUrlCopy - processes.atFork
  | .inbound se => inboundLimit db se - countedAt db chance (·.destSe) se
  | .outbound se => outboundLimit db se - countedAt db chance (·.sourceSe) se

/-- The executors that need the resource among those that the round would start if there were enough of it. -/
def demandIn (resource : Resource) : Nat :=
  let offered := offeredIn node tTime chance processes db
  let room := Function.update (roomIn chance processes db) resource offered.length
  (admitted resourcesOf room offered).countP fun tf => resource ∈ resourcesOf tf

end round

section exact

variable {node : Node} {tTime : Nat} {chance : RoundChance} {processes : Processes} {db : Db}

theorem fetched_of_survivors : ∀ tf ∈ fetchedIn node tTime chance processes db, ∃ q ∈ survivors chance db,
    tf.sourceSe = q.sourceSe ∧ tf.destSe = q.destSe := by
  unfold fetchedIn
  split
  · simp
  · have hread : ∀ q ∈ survivors chance db, ReadsReady (G := Unit) ⟨fun _ => True, fun _ _ _ => (), fun _ _ => True⟩
        (fun tf => ∃ q ∈ survivors chance db, tf.sourceSe = q.sourceSe ∧ tf.destSe = q.destSe) node tTime q := by
      intro q hq db' _ p types inActivity n tf htf
      obtain ⟨r, hr, htf⟩ := List.mem_filterMap.mp (List.mem_of_mem_take htf)
      obtain ⟨j, -, rfl⟩ := Option.map_eq_some_iff.mp htf
      obtain ⟨-, hcond⟩ := List.mem_filter.mp ((List.mem_insertionSort _).mp hr)
      simp only [Bool.and_eq_true, decide_eq_true_eq] at hcond
      exact ⟨q, hq, hcond.1.1.1.1, hcond.1.1.1.2⟩
    obtain ⟨-, h⟩ := (getReadyTransfers_follows (fun _ _ _ _ h => h) hread ()).answer trivial
    exact h

theorem mem_byVo {files : List TransferFile} {tf : TransferFile} (h : tf ∈ (FileMap.byVo files).entries.flatMap (·.2)) :
    tf ∈ files := by
  obtain ⟨e, he, htf⟩ := List.mem_flatMap.mp h
  obtain ⟨vo, -, rfl⟩ := List.mem_map.mp he
  exact (List.mem_filter.mp htf).1

theorem offered_of_survivors {tf : TransferFile} (h : tf ∈ offeredIn node tTime chance processes db) :
    ∃ q ∈ survivors chance db, tf.sourceSe = q.sourceSe ∧ tf.destSe = q.destSe :=
  fetched_of_survivors tf (mem_byVo (ServeState.served_subset _ _ tf h))

theorem offered_nil (h : fetchedIn node tTime chance processes db = []) : offeredIn node tTime chance processes db = [] := by
  rw [List.eq_nil_iff_forall_not_mem]
  intro tf htf
  have hmem := mem_byVo (ServeState.served_subset _ _ tf htf)
  rw [h] at hmem
  cases hmem

/-- The slots of the loop are what the round has room for, at the storages of the transfers that it is offered. -/
theorem left_eq_room (m : FileMap) {tf : TransferFile} (h : tf ∈ offeredIn node tTime chance processes db) :
    ∀ i ∈ resourcesOf tf, (ServeState.start m (processes.maxUrlCopy - processes.atFork)
      ((slotsLeft (survivors chance db) {}).answer Stmt.exec db)).left i = roomIn chance processes db i := by
  obtain ⟨q, hq, hsource, hdest⟩ := offered_of_survivors h
  have hfilled := filled_slotsLeft db (survivors chance db)
  intro i hi
  simp only [resourcesOf, List.mem_cons, List.not_mem_nil, or_false] at hi
  rcases hi with rfl | rfl | rfl
  · rfl
  · rcases hfilled tf.destSe with ⟨-, -, hnone⟩ | ⟨hto, -⟩
    · exact absurd hdest.symm (hnone q hq).1
    · simp only [ServeState.left, ServeState.start, roomIn, hto, Option.getD_some]
      rw [takenAt_survivors fun _ _ _ h => h]
  · rcases hfilled tf.sourceSe with ⟨-, -, hnone⟩ | ⟨-, hfrom⟩
    · exact absurd hsource.symm (hnone q hq).2
    · simp only [ServeState.left, ServeState.start, roomIn, hfrom, Option.getD_some]
      rw [takenAt_survivors fun _ _ h _ => h]

theorem getFiles_answer (h : fetchedIn node tTime chance processes db =
      ((getReadyTransfers node tTime chance.toChance (survivors chance db)).answer Stmt.exec db).getD []) :
    (getFiles node tTime chance processes (survivors chance db)).answer Stmt.exec db =
      admitted resourcesOf (roomIn chance processes db) (offeredIn node tTime chance processes db) := by
  by_cases hempty : (survivors chance db).isEmpty = true
  · have hnone : offeredIn node tTime chance processes db = [] := by
      rw [List.eq_nil_iff_forall_not_mem]
      intro tf htf
      obtain ⟨q, hq, -⟩ := offered_of_survivors htf
      rw [List.isEmpty_iff.mp hempty] at hq
      cases hq
    rw [getFiles, hnone, admitted]
    simp only [Proc.bind_eq, Proc.answer_bind, if_pos hempty]
    rfl
  · simp only [getFiles, Proc.bind_eq, Proc.answer_bind, if_neg hempty, Proc.pure_eq, Proc.answer_ret]
    rw [← h]
    have hloop := (ServeState.admits_start (.byVo (fetchedIn node tTime chance processes db))
      (processes.maxUrlCopy - processes.atFork) ((slotsLeft (survivors chance db) {}).answer Stmt.exec db)).serveAll rfl
      (TransferFileHandler.init (fetchedIn node tTime chance processes db)).size
    refine hloop.started.trans ?_
    rw [TransferFileHandler.init, FileMap.size_start]
    exact admitted_congr fun tf htf => left_eq_room _ htf

/-- A round starts what it has room for of what it is offered. -/
theorem startedIn_eq : startedIn node tTime chance processes db =
    admitted resourcesOf (roomIn chance processes db) (offeredIn node tTime chance processes db) := by
  rw [startedIn, executeUrlcopy_reads.run_eq_answer, executeUrlcopy]
  by_cases hprocesses : processes.maxUrlCopy - processes.atStart ≤ 0
  · rw [if_pos hprocesses, offered_nil (by rw [fetchedIn, if_pos (.inl hprocesses)])]
    rfl
  · rw [if_neg hprocesses]
    simp only [Proc.bind_eq, Proc.answer_bind, getQueuesWithPending_answer]
    cases hfailed : (getReadyTransfers node tTime chance.toChance
        ((applyVoShares chance (chance.shuffleQueues (pendingQueues db))).answer Stmt.exec db).2).answer Stmt.exec db with
    | none =>
        rw [offered_nil (by rw [fetchedIn, if_pos (.inr hfailed)])]
        simp only [failUnschedulable, Proc.bind_eq, Proc.answer_bind, hfailed]
        rfl
    | some files =>
        have hfetched : fetchedIn node tTime chance processes db =
            ((getReadyTransfers node tTime chance.toChance (survivors chance db)).answer Stmt.exec db).getD [] := by
          rw [fetchedIn, if_neg]
          rintro (h | h)
          · exact hprocesses h
          · rw [UnschedulableRejected, hfailed] at h
            cases h
        rw [← getFiles_answer hfetched]
        simp only [failUnschedulable, Proc.bind_eq, Proc.answer_bind, hfailed]
        have hanswer : ∀ messages : List Message, (if (survivors chance db).isEmpty = true then pure ([], messages)
            else (getFiles node tTime chance processes (survivors chance db)).bind fun started =>
              pure (started, messages)).answer Stmt.exec db =
            ((getFiles node tTime chance processes (survivors chance db)).answer Stmt.exec db, messages) := by
          intro messages
          by_cases hempty : (survivors chance db).isEmpty = true
          · have hnone : (getFiles node tTime chance processes (survivors chance db)).answer Stmt.exec db = [] := by
              simp only [getFiles, Proc.bind_eq, Proc.answer_bind, if_pos hempty]
              rfl
            rw [if_pos hempty, hnone]
            rfl
          · rw [if_neg hempty, Proc.answer_bind]
            rfl
        exact congrArg Prod.fst (hanswer _)

/-- At a storage, as many executors are started as it has slots, or as the other limits leave room for. -/
theorem startedIn_countP (resource : Resource) :
    (startedIn node tTime chance processes db).countP (fun tf => resource ∈ resourcesOf tf) =
      min (roomIn chance processes db resource).toNat (demandIn node tTime chance processes db resource) := by
  rw [startedIn_eq]
  refine countP_admitted_eq_min (fun i hi => ?_) ?_
  · rw [Function.update_of_ne hi]
  · rw [Function.update_self]

theorem countedAt_le (key : FileRow → String) (se : String) : countedAt db chance key se ≤ activeAt db key se := by
  refine List.countP_mono_left fun r _ h => ?_
  simp only [Bool.and_eq_true] at h ⊢
  exact h.1

/-- All that is active is counted, if each such transfer is. -/
theorem countedAt_eq_iff {key : FileRow → String} {se : String} : countedAt db chance key se = activeAt db key se ↔
    ∀ r ∈ db.files.rows, r.fileState = .active → key r = se → Counted db chance r := by
  have hsplit := List.countP_eq_countP_filter_add db.files.rows
    (fun r => r.fileState = .active && key r = se) (fun r => Counted db chance r)
  have hcounted : countedAt db chance key se = (db.files.rows.filter fun r => Counted db chance r).countP
      (fun r => r.fileState = .active && key r = se) := by
    rw [countedAt, List.countP_filter]
  rw [hcounted, activeAt, Table.matched, hsplit, eq_comm, Nat.add_eq_left, List.countP_filter, List.countP_eq_zero]
  simp

end exact

/-! ## The limits -/

/-- A round starts no more executors towards a destination than its limit has room for next to all that is active there,
exactly if each of these is on a link for which its VO is picked, or what is counted fills the limit anyway, or no more
than the room are asked for within the other limits; and likewise from a source. -/
theorem storage_limits (node : Node) (tTime : Nat) (chance : RoundChance) (processes : Processes) (db : Db) (se : String) :
    (((startedIn node tTime chance processes db).countP (fun tf => tf.destSe = se) : Int) ≤
        max 0 (inboundLimit db se - activeAt db (·.destSe) se) ↔
      (∀ r ∈ db.files.rows, r.fileState = .active → r.destSe = se → Counted db chance r) ∨
        inboundLimit db se ≤ countedAt db chance (·.destSe) se ∨
        (demandIn node tTime chance processes db (.inbound se) : Int) ≤
          max 0 (inboundLimit db se - activeAt db (·.destSe) se)) ∧
    (((startedIn node tTime chance processes db).countP (fun tf => tf.sourceSe = se) : Int) ≤
        max 0 (outboundLimit db se - activeAt db (·.sourceSe) se) ↔
      (∀ r ∈ db.files.rows, r.fileState = .active → r.sourceSe = se → Counted db chance r) ∨
        outboundLimit db se ≤ countedAt db chance (·.sourceSe) se ∨
        (demandIn node tTime chance processes db (.outbound se) : Int) ≤
          max 0 (outboundLimit db se - activeAt db (·.sourceSe) se)) := by
  have hto : (startedIn node tTime chance processes db).countP (fun tf => tf.destSe = se) =
      min (roomIn chance processes db (.inbound se)).toNat (demandIn node tTime chance processes db (.inbound se)) := by
    rw [← startedIn_countP]
    exact List.countP_congr fun tf _ => by simp [resourcesOf, eq_comm]
  have hfrom : (startedIn node tTime chance processes db).countP (fun tf => tf.sourceSe = se) =
      min (roomIn chance processes db (.outbound se)).toNat (demandIn node tTime chance processes db (.outbound se)) := by
    rw [← startedIn_countP]
    exact List.countP_congr fun tf _ => by simp [resourcesOf, eq_comm]
  have hall : countedAt db chance (·.destSe) se = activeAt db (·.destSe) se ↔ _ := countedAt_eq_iff
  have hall' : countedAt db chance (·.sourceSe) se = activeAt db (·.sourceSe) se ↔ _ := countedAt_eq_iff
  have hle : countedAt db chance (·.destSe) se ≤ activeAt db (·.destSe) se := countedAt_le _ se
  have hle' : countedAt db chance (·.sourceSe) se ≤ activeAt db (·.sourceSe) se := countedAt_le _ se
  rw [hto, hfrom, roomIn, roomIn, ← hall, ← hall']
  constructor
  · omega
  · omega

/-- A transfer runs to a destination with two slots, and two wait on its link. -/
def sharedDb : Db where
  files := .ofRows [
    { fileId := 1, jobId := "j", fileState := .active, fileIndex := some 0, sourceSe := "s", destSe := "d", voName := "v" },
    { fileId := 2, jobId := "j", fileState := .submitted, fileIndex := some 1, sourceSe := "s", destSe := "d",
      voName := "v" },
    { fileId := 3, jobId := "j", fileState := .submitted, fileIndex := some 2, sourceSe := "s", destSe := "d",
      voName := "v" }]
  jobs := .ofRows [
    { jobId := "j", jobState := .active, jobType := some .regular, voName := "v", userDn := "u", credId := "c" }]
  se := [{ storage := "d", inboundMaxActive := some 2 }]

theorem storage_limits_sharedDb :
    ((startedIn { hostname := "a" } 100 {} { maxUrlCopy := 400 } sharedDb).countP (fun tf => tf.destSe = "d") : Int) ≤
      max 0 (inboundLimit sharedDb "d" - activeAt sharedDb (·.destSe) "d") ∧
    (startedIn { hostname := "a" } 100 {} { maxUrlCopy := 400 } sharedDb).map (·.fileId) = [2] :=
  ⟨(storage_limits { hostname := "a" } 100 {} { maxUrlCopy := 400 } sharedDb "d").1.mpr (.inl (by decide +kernel)),
    by decide +kernel⟩

/-- A transfer runs from `s`, and another one waits to be started from `t`, to a destination with one slot. -/
def busyDb : Db where
  files := .ofRows [
    { fileId := 1, jobId := "j", fileState := .active, fileIndex := some 0, sourceSe := "s", destSe := "d", voName := "v" },
    { fileId := 2, jobId := "k", fileState := .submitted, fileIndex := some 0, sourceSe := "t", destSe := "d",
      voName := "v" }]
  jobs := .ofRows [
    { jobId := "j", jobState := .active, jobType := some .regular, voName := "v", userDn := "u", credId := "c" },
    { jobId := "k", jobState := .submitted, jobType := some .regular, voName := "v", userDn := "u", credId := "c" }]
  se := [{ storage := "d", inboundMaxActive := some 1 }]

/-- The transfer from `s` is not counted. -/
theorem storage_limit_exceeded_busyDb :
    inboundLimit busyDb "d" = 1 ∧ activeAt busyDb (·.destSe) "d" = 1 ∧
      ¬((startedIn { hostname := "a" } 100 {} { maxUrlCopy := 400 } busyDb).countP (fun tf => tf.destSe = "d") : Int) ≤
        max 0 (inboundLimit busyDb "d" - activeAt busyDb (·.destSe) "d") := by
  decide +kernel


end Fts3.Server
