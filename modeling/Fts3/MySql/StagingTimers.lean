import Fts3.Machine.Run
import Fts3.MySql.StagingLimits

/-!
# Timers of the staging requests

A VO with too few files for a bulk request leaves some time for more to arrive. The time is kept for the storage, over the
calls of `getFilesForStaging`.
-/

namespace Fts3.MySql

open Fts3.Sql

/-- A call of `getFilesForStaging`: the local time, what it finds in the database, and the order in which the rows come. -/
structure StagingCall where
  now : Nat
  db : Db
  order : List (String × String) → List (String × String) := id

namespace StagingCall

/-- The node, with the rows in the order of the call. -/
def ordered (node : Node) (c : StagingCall) : Node :=
  { node with listLinks := c.order }

def result (node : Node) (queued : QueuedStagingFiles) (c : StagingCall) : List StagingOperation × QueuedStagingFiles :=
  (getFilesForStaging (c.ordered node) c.now queued).answer Stmt.exec c.db

/-- The timers after the call. -/
def step (node : Node) (queued : QueuedStagingFiles) (c : StagingCall) : QueuedStagingFiles :=
  (c.result node queued).2

/-- The call returns a file of the VO on the storage. -/
def Returns (node : Node) (queued : QueuedStagingFiles) (voName sourceSe : String) (c : StagingCall) : Prop :=
  ∃ op ∈ (c.result node queued).1, op.isOf c.db voName sourceSe = true

/-- Fewer files than a bulk request takes wait in the segment of the node, and there are free slots. -/
structure Waits (node : Node) (voName sourceSe : String) (c : StagingCall) : Prop where
  waiting : ∃ r ∈ c.db.files.rows, r.fileState = .staging ∧ r.inSegment node = true ∧ r.voName = voName ∧
    r.sourceSe = sourceSe
  few : (c.db.files.matched fun r => r.fileState = .staging && r.inSegment node && r.voName = voName &&
    r.sourceSe = sourceSe : Int) < node.stagingBulkSize
  jobs : ∀ r ∈ c.db.files.rows, r.voName = voName → (c.db.jobs.find? r.jobId).any (·.voName = voName) = true
  free : c.db.stagingFree node voName sourceSe = true

/-- No other VO uses the timer of the storage: those with files in the queue have no free slot or enough files. -/
def Sole (node : Node) (voName sourceSe : String) (c : StagingCall) : Prop :=
  ∀ vo, (vo, sourceSe) ∈ c.db.stagingQueues node → vo ≠ voName → c.db.stagingFree node vo sourceSe = true →
    node.stagingBulkSize ≤ c.db.stagingQueued vo sourceSe

end StagingCall

section timers

variable {node : Node} {now : Nat} {queued : QueuedStagingFiles} {voName sourceSe : String} {db : Db}

theorem lookup_filter_ne {m : QueuedStagingFiles} {k k' : String} (h : k ≠ k') :
    (m.filter fun e => e.1 ≠ k').lookup k = m.lookup k := by
  induction m with
  | nil => rfl
  | cons e m ih =>
      by_cases he : e.1 = k'
      · rw [List.filter_cons_of_neg (by simpa using he), ih, lookup_cons_eq, if_neg (he ▸ h)]
      · rw [List.filter_cons_of_pos (by simpa using he), lookup_cons_eq, ih, lookup_cons_eq]

/-- The timer of another storage stays. -/
theorem lookup_waitForBulk {se : String} (h : sourceSe ≠ se) :
    (waitForBulk node now se queued).2.lookup sourceSe = queued.lookup sourceSe := by
  rw [waitForBulk]
  split
  · split
    · rfl
    · exact lookup_filter_ne h
  · rw [lookup_cons_eq, if_neg h]

theorem mem_waitForBulk {e : String × Nat} (he : e ∈ (waitForBulk node now sourceSe queued).2) :
    e ∈ queued ∨ e = (sourceSe, now + node.stagingWaitingFactor) := by
  rw [waitForBulk] at he
  split at he
  · split at he
    · exact .inl he
    · exact .inl (List.mem_of_mem_filter he)
  · exact (List.mem_cons.mp he).symm

theorem mem_stagingTurn {e : String × Nat} (he : e ∈ (db.stagingTurn node now queued voName sourceSe).2) :
    e ∈ queued ∨ e = (sourceSe, now + node.stagingWaitingFactor) := by
  rw [Db.stagingTurn] at he
  split at he
  · split at he
    · exact mem_waitForBulk he
    · exact .inl he
  · exact .inl he

theorem getFilesForStagingOf_timers : ((getFilesForStagingOf node now queued voName sourceSe).answer Stmt.exec db).2 =
    (db.stagingTurn node now queued voName sourceSe).2 := by
  rw [getFilesForStagingOf_answer]

/-- No timer goes beyond the waiting time of the last call. -/
theorem filesForStaging_bounded {T : Nat} (hT : now + node.stagingWaitingFactor ≤ T) (queues : List (String × String))
    (hqueued : ∀ e ∈ queued, e.2 ≤ T) : ∀ e ∈ ((filesForStaging node now queues queued).answer Stmt.exec db).2, e.2 ≤ T := by
  induction queues generalizing queued with
  | nil => exact hqueued
  | cons link queues ih =>
      rw [filesForStaging_cons]
      apply ih
      rw [getFilesForStagingOf_timers]
      intro e he
      cases mem_stagingTurn he with
      | inl h => exact hqueued e h
      | inr h =>
          rw [h]
          exact hT

/-- A turn that does not use the timer of the storage leaves it. -/
def Spares (node : Node) (sourceSe : String) (db : Db) (link : String × String) : Prop :=
  link.2 = sourceSe → db.stagingFree node link.1 link.2 = true → node.stagingBulkSize ≤ db.stagingQueued link.1 link.2

theorem Spares.lookup {link : String × String} (h : Spares node sourceSe db link) :
    (db.stagingTurn node now queued link.1 link.2).2.lookup sourceSe = queued.lookup sourceSe := by
  rw [Db.stagingTurn]
  split
  · rename_i hfree
    split
    · rename_i hfew
      apply lookup_waitForBulk
      rintro rfl
      exact absurd (h rfl hfree) (not_le.mpr hfew)
    · rfl
  · rfl

theorem filesForStaging_spares {queues : List (String × String)} (h : ∀ link ∈ queues, Spares node sourceSe db link) :
    ((filesForStaging node now queues queued).answer Stmt.exec db).2.lookup sourceSe = queued.lookup sourceSe := by
  induction queues generalizing queued with
  | nil => rfl
  | cons link queues ih =>
      rw [filesForStaging_cons]
      dsimp only
      rw [ih fun l hl => h l (.tail _ hl), getFilesForStagingOf_timers, (h link (.head _)).lookup]

theorem stagingLimit_pos (hbulk : 0 < node.stagingBulkSize) {limit : Int}
    (h : (stagingLimit node voName sourceSe).answer Stmt.exec db = some limit) : 0 < limit := by
  rw [stagingLimit, Proc.bind_eq, Proc.answer_bind] at h
  by_cases hconfig : 0 < (concurrentOps "staging" voName sourceSe).answer Stmt.exec db
  · rw [if_pos hconfig] at h
    simp only [Proc.bind_eq, select_bind, Proc.answer_select] at h
    generalize (if 0 < _ then _ else _ : Int) = left at h
    by_cases hleft : left ≤ 0
    · rw [if_pos hleft] at h
      cases h
    · rw [if_neg hleft] at h
      cases h
      exact lt_min (not_le.mp hleft) hbulk
  · rw [if_neg hconfig] at h
    cases h
    exact hbulk

end timers

namespace StagingCall

variable {node : Node} {queued : QueuedStagingFiles} {voName sourceSe : String} {c c' : StagingCall}

theorem Waits.mem_queues (h : c.Waits node voName sourceSe) : (voName, sourceSe) ∈ c.db.stagingQueues node := by
  obtain ⟨r, hr, hstate, hsegment, hvo, hse⟩ := h.waiting
  rw [Db.stagingQueues, List.mem_dedup, ← hvo, ← hse]
  apply List.mem_map_of_mem (f := fun r : FileRow => (r.voName, r.sourceSe))
  exact List.mem_filter.mpr ⟨hr, by simp [hstate, hsegment]⟩

theorem Waits.bulk_pos (h : c.Waits node voName sourceSe) : 0 < node.stagingBulkSize := by
  have := h.few
  omega

/-- A request that is made has files. -/
theorem Waits.returns (h : c.Waits node voName sourceSe) (horder : ∀ l, (c.order l).Perm l)
    (hturn : (c.db.stagingTurn (c.ordered node) c.now (c.db.timersAt (c.ordered node) c.now queued voName sourceSe)
      voName sourceSe).1 = true) : c.Returns node queued voName sourceSe := by
  obtain ⟨r, hr, hstate, hsegment, hvo, hse⟩ := h.waiting
  obtain ⟨j, hj, hjvo⟩ := (Option.any_eq_true ..).mp (h.jobs r hr hvo)
  have hsegment' : r.inSegment (c.ordered node) = true := hsegment
  have hcredential : (sourceSe, j.credId) ∈ (c.ordered node).listLinks
      (c.db.stagingCredentials (c.ordered node) voName sourceSe) := by
    apply (horder _).mem_iff.mpr
    refine List.mem_dedup.mpr (List.mem_filterMap.mpr ⟨r, List.mem_filter.mpr ⟨hr, ?_⟩, ?_⟩)
    · simp [hstate, hsegment', hvo, hse]
    · rw [hj, Option.map_some, hse]
  obtain ⟨limit, hlimit⟩ : ∃ limit, (stagingLimit (c.ordered node) voName sourceSe).answer Stmt.exec c.db = some limit := by
    have hfree := h.free
    rw [Db.stagingFree, Bool.and_eq_true] at hfree
    exact Option.isSome_iff_exists.mp hfree.1
  have hpos : 0 < limit.toNat := by
    have hbulk : 0 < (c.ordered node).stagingBulkSize := h.bulk_pos
    have := stagingLimit_pos hbulk hlimit
    omega
  have hrows : c.db.stagingRows (c.ordered node) voName sourceSe j.credId limit.toNat ≠ [] := by
    rw [Db.stagingRows, ne_eq, List.take_eq_nil_iff, not_or]
    refine ⟨hpos.ne', List.ne_nil_of_mem (a := StagingOperation.ofRow (c.ordered node) voName r j) ?_⟩
    refine List.mem_filterMap.mpr ⟨r, List.mem_filter.mpr ⟨hr, by simp [hstate, hsegment', hse]⟩, ?_⟩
    rw [hj, Option.filter_some, if_pos (by simpa using hjvo), Option.map_some]
  obtain ⟨op, hop⟩ := List.exists_mem_of_ne_nil _ hrows
  have hfilter : (c.result node queued).1.filter (·.isOf c.db voName sourceSe) = _ := filter_getFilesForStaging horder
  have hmem : op ∈ (c.result node queued).1.filter (·.isOf c.db voName sourceSe) := by
    have hqueues : (voName, sourceSe) ∈ c.db.stagingQueues (c.ordered node) := h.mem_queues
    rw [hfilter, if_pos hqueues, getFilesForStagingOf_answer, hlimit]
    simp only [hturn, if_true]
    exact List.mem_flatMap.mpr ⟨_, hcredential, hop⟩
  exact ⟨op, (List.mem_filter.mp hmem).1, (List.mem_filter.mp hmem).2⟩

/-- The turns of the call before and after that of the VO leave the timer of the storage. -/
theorem Sole.spares (h : c.Sole node voName sourceSe) {link : String × String}
    (hlink : link ∈ c.db.stagingQueues node) (hne : link ≠ (voName, sourceSe)) :
    Spares (c.ordered node) sourceSe c.db link := by
  rintro rfl hfree
  refine h link.1 hlink (fun heq => hne (Prod.ext heq rfl)) hfree

theorem Sole.lookup_timersAt (h : c.Sole node voName sourceSe) (horder : ∀ l, (c.order l).Perm l)
    (queued : QueuedStagingFiles) :
    (c.db.timersAt (c.ordered node) c.now queued voName sourceSe).lookup sourceSe = queued.lookup sourceSe := by
  rw [Db.timersAt]
  apply filesForStaging_spares
  intro link hlink
  have hmem : link ∈ c.order (c.db.stagingQueues node) := (List.takeWhile_prefix _).subset hlink
  exact h.spares ((horder _).mem_iff.mp hmem) fun heq => not_mem_takeWhile_ne (heq ▸ hlink)

theorem Sole.lookup_step (h : c.Sole node voName sourceSe) (hwaits : c.Waits node voName sourceSe)
    (horder : ∀ l, (c.order l).Perm l) : (c.step node queued).lookup sourceSe =
      (c.db.stagingTurn (c.ordered node) c.now (c.db.timersAt (c.ordered node) c.now queued voName sourceSe) voName
        sourceSe).2.lookup sourceSe := by
  have hqueues : (voName, sourceSe) ∈ c.db.stagingQueues (c.ordered node) := hwaits.mem_queues
  obtain ⟨post, hsplit, hpost⟩ := exists_turn horder hqueues
  have hspares : ∀ link ∈ post, Spares (c.ordered node) sourceSe c.db link := by
    intro link hlink
    have hmem : link ∈ c.order (c.db.stagingQueues node) := by
      change link ∈ (c.ordered node).listLinks (c.db.stagingQueues (c.ordered node))
      rw [hsplit]
      simp [hlink]
    exact h.spares ((horder _).mem_iff.mp hmem) fun heq => hpost (heq ▸ hlink)
  rw [step, result, getFilesForStaging, Proc.bind_eq, select_bind, Proc.answer_select, hsplit, filesForStaging_append,
    filesForStaging_cons]
  dsimp only
  rw [filesForStaging_spares hspares, getFilesForStagingOf_timers]
  rfl

/-- When its timer has run out, the VO is served. -/
theorem Waits.returns_of_timer (h : c.Waits node voName sourceSe) (horder : ∀ l, (c.order l).Perm l)
    (hsole : c.Sole node voName sourceSe) {t : Nat} (ht : queued.lookup sourceSe = some t) (hle : t ≤ c.now) :
    c.Returns node queued voName sourceSe := by
  apply h.returns horder
  have hlookup := hsole.lookup_timersAt horder queued
  have hfree : c.db.stagingFree (c.ordered node) voName sourceSe = true := h.free
  rw [Db.stagingTurn, if_pos hfree]
  split
  · rw [waitForBulk, hlookup, ht]
    simp [hle.not_gt]
  · rfl

/-- Without a timer one is set, unless there are enough files. -/
theorem Waits.returns_or_timer (h : c.Waits node voName sourceSe) (horder : ∀ l, (c.order l).Perm l)
    (hsole : c.Sole node voName sourceSe) (hnone : queued.lookup sourceSe = none) :
    c.Returns node queued voName sourceSe ∨
      (c.step node queued).lookup sourceSe = some (c.now + node.stagingWaitingFactor) := by
  have hlookup := hsole.lookup_timersAt horder queued
  have hfree : c.db.stagingFree (c.ordered node) voName sourceSe = true := h.free
  by_cases hfew : (c.db.stagingQueued voName sourceSe : Int) < (c.ordered node).stagingBulkSize
  · right
    rw [hsole.lookup_step h horder, Db.stagingTurn, if_pos hfree, if_pos hfew, waitForBulk, hlookup, hnone,
      lookup_cons_eq, if_pos rfl]
    rfl
  · left
    apply h.returns horder
    rw [Db.stagingTurn, if_pos hfree, if_neg hfew]

theorem step_bounded {T : Nat} (hT : c.now + node.stagingWaitingFactor ≤ T) (hqueued : ∀ e ∈ queued, e.2 ≤ T) :
    ∀ e ∈ c.step node queued, e.2 ≤ T := by
  rw [step, result, getFilesForStaging, Proc.bind_eq, select_bind, Proc.answer_select]
  have hT' : c.now + (c.ordered node).stagingWaitingFactor ≤ T := hT
  exact filesForStaging_bounded hT' _ hqueued

/-- The calls are more than the waiting time apart. -/
def Apart (node : Node) (c c' : StagingCall) : Prop :=
  c.now + node.stagingWaitingFactor < c'.now

instance : Trans (Apart node) (Apart node) (Apart node) where
  trans h h' := by
    simp only [Apart] at *
    omega

/-- Every timer has run out when the next call comes. -/
theorem timers_run_out (queued : QueuedStagingFiles) {calls : List StagingCall} (hcalls : (calls ++ [c]).Pairwise (Apart node))
    (hqueued : ∀ e ∈ queued, ∀ d ∈ calls ++ [c], e.2 < d.now) :
    ∀ e ∈ Machine.run (step node) queued calls, e.2 < c.now := by
  induction calls generalizing queued with
  | nil => exact fun e he => hqueued e he c (by simp)
  | cons d calls ih =>
      obtain ⟨hhead, hrest⟩ := List.pairwise_cons.mp hcalls
      apply ih (d.step node queued) hrest
      intro e he d' hd'
      have hbounded := step_bounded (T := d.now + node.stagingWaitingFactor) le_rfl (fun e he => by
        have := hqueued e he d (by simp)
        omega) e he
      exact lt_of_le_of_lt hbounded (hhead d' hd')

end StagingCall

/-- Of two calls in a row at least one returns files of a VO that waits on a storage, when no other VO uses the timer
of the storage. -/
theorem staging_starves_nobody (node : Node) (calls : List StagingCall) (voName sourceSe : String)
    (hapart : calls.IsChain (StagingCall.Apart node)) (horder : ∀ c ∈ calls, ∀ l, (c.order l).Perm l)
    (hwaits : ∀ c ∈ calls, c.Waits node voName sourceSe) (hsole : ∀ c ∈ calls, c.Sole node voName sourceSe) :
    ∀ pre c c' post, calls = pre ++ c :: c' :: post →
      c.Returns node (Machine.run (StagingCall.step node) [] pre) voName sourceSe ∨
        c'.Returns node (Machine.run (StagingCall.step node) [] (pre ++ [c])) voName sourceSe := by
  rintro pre c c' post rfl
  have hc : c ∈ pre ++ c :: c' :: post := by simp
  have hc' : c' ∈ pre ++ c :: c' :: post := by simp
  have hpairwise := hapart.pairwise
  have hpre : (pre ++ [c]).Pairwise (StagingCall.Apart node) := by
    refine hpairwise.sublist ?_
    simp
  have hnext : StagingCall.Apart node c c' :=
    (List.pairwise_cons.mp (List.pairwise_append.mp hpairwise).2.1).1 c' (by simp)
  cases hlookup : (Machine.run (StagingCall.step node) [] pre).lookup sourceSe with
  | some t =>
      have hlt := StagingCall.timers_run_out [] hpre (by simp) _ (mem_of_lookup hlookup)
      exact .inl ((hwaits c hc).returns_of_timer (horder c hc) (hsole c hc) hlookup (le_of_lt hlt))
  | none =>
      refine ((hwaits c hc).returns_or_timer (horder c hc) (hsole c hc) hlookup).imp_right fun htimer => ?_
      have htimer' : (Machine.run (StagingCall.step node) [] (pre ++ [c])).lookup sourceSe =
          some (c.now + node.stagingWaitingFactor) := by
        rw [Machine.run_append]
        exact htimer
      exact (hwaits c' hc').returns_of_timer (horder c' hc') (hsole c' hc') htimer' (le_of_lt hnext)

/-- A file of each VO waits on one storage. -/
def bulkDb (vos : List String) : Db where
  files := .ofRows (vos.zipIdx.map fun (vo, i) =>
    { fileId := i, jobId := vo, fileState := .staging, sourceSe := "s", voName := vo })
  jobs := .ofRows (vos.map fun vo => { jobId := vo, jobState := .staging, voName := vo })

def bulkNode : Node := { hostname := "h", stagingBulkSize := 2, stagingWaitingFactor := 10 }

/-- Calls at the times 0, 20 and 40. -/
def bulkCalls (vos : List String) : List StagingCall :=
  [⟨0, bulkDb vos, id⟩, ⟨20, bulkDb vos, id⟩, ⟨40, bulkDb vos, id⟩]

theorem bulkCalls_apart (vos : List String) : (bulkCalls vos).IsChain (StagingCall.Apart bulkNode) := by
  simp [bulkCalls, StagingCall.Apart, bulkNode]

theorem db_of_mem_bulkCalls {c : StagingCall} {vos : List String} (hc : c ∈ bulkCalls vos) :
    c.db = bulkDb vos ∧ c.order = id := by
  simp only [bulkCalls, List.mem_cons, List.not_mem_nil, or_false] at hc
  rcases hc with rfl | rfl | rfl <;> exact ⟨rfl, rfl⟩

theorem StagingCall.Waits.of_db {node : Node} {vo se : String} {c c' : StagingCall} (h : c.Waits node vo se)
    (hdb : c'.db = c.db) : c'.Waits node vo se := by
  obtain ⟨hwaiting, hfew, hjobs, hfree⟩ := h
  rw [← hdb] at hwaiting hfew hjobs hfree
  exact ⟨hwaiting, hfew, hjobs, hfree⟩

/-- One VO waits. -/
theorem staging_starves_nobody_oneVo :
    StagingCall.Returns bulkNode (Machine.run (StagingCall.step bulkNode) [] [⟨0, bulkDb ["a"], id⟩]) "a" "s"
        ⟨20, bulkDb ["a"], id⟩ ∨
      StagingCall.Returns bulkNode
        (Machine.run (StagingCall.step bulkNode) [] [⟨0, bulkDb ["a"], id⟩, ⟨20, bulkDb ["a"], id⟩]) "a" "s"
        ⟨40, bulkDb ["a"], id⟩ := by
  refine staging_starves_nobody bulkNode (bulkCalls ["a"]) "a" "s" (bulkCalls_apart _) ?_ ?_ ?_
    [⟨0, bulkDb ["a"], id⟩] _ _ [] rfl
  · intro c hc l
    rw [(db_of_mem_bulkCalls hc).2]
    exact .refl l
  · have hwaits : StagingCall.Waits bulkNode "a" "s" ⟨0, bulkDb ["a"], id⟩ :=
      ⟨by decide, by decide, by decide, by decide⟩
    exact fun c hc => hwaits.of_db (db_of_mem_bulkCalls hc).1
  · rintro ⟨now, db, order⟩ hc vo hvo hne
    obtain ⟨rfl, -⟩ := db_of_mem_bulkCalls hc
    have hmem : (vo, "s") ∈ [("a", "s")] := hvo
    simp only [List.mem_singleton, Prod.mk.injEq, and_true] at hmem
    exact absurd hmem hne

/-- Of two VOs the second is never served. -/
theorem staging_starves_second_vo :
    (bulkCalls ["a", "b"]).IsChain (StagingCall.Apart bulkNode) ∧
      (∀ c ∈ bulkCalls ["a", "b"], c.Waits bulkNode "a" "s" ∧ c.Waits bulkNode "b" "s") ∧
      ¬(StagingCall.Returns bulkNode (Machine.run (StagingCall.step bulkNode) [] [⟨0, bulkDb ["a", "b"], id⟩]) "b" "s"
          ⟨20, bulkDb ["a", "b"], id⟩ ∨
        StagingCall.Returns bulkNode
          (Machine.run (StagingCall.step bulkNode) [] [⟨0, bulkDb ["a", "b"], id⟩, ⟨20, bulkDb ["a", "b"], id⟩]) "b" "s"
          ⟨40, bulkDb ["a", "b"], id⟩) := by
  refine ⟨bulkCalls_apart _, ?_, ?_⟩
  · have ha : StagingCall.Waits bulkNode "a" "s" ⟨0, bulkDb ["a", "b"], id⟩ :=
      ⟨by decide, by decide, by decide, by decide⟩
    have hb : StagingCall.Waits bulkNode "b" "s" ⟨0, bulkDb ["a", "b"], id⟩ :=
      ⟨by decide, by decide, by decide, by decide⟩
    exact fun c hc => ⟨ha.of_db (db_of_mem_bulkCalls hc).1, hb.of_db (db_of_mem_bulkCalls hc).1⟩
  · simp only [StagingCall.Returns]
    decide +kernel

end Fts3.MySql
