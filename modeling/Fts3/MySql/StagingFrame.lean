import Fts3.MySql.Lemmas.Staging
import Mathlib.Data.List.Induction

/-!
# Staging events and the other files

The `UPDATE`s of `updateStagingState` ask for `STAGING` or `STARTED`, with two exceptions: the one that sends a file
back to staging excludes some states only, and the next hop is brought into use before, and whether or not, the file
of the event is updated. A batch of events leaves the other files alone exactly if neither happens to them.
-/

namespace Fts3.MySql

open Fts3.Sql

def FileState.inStaging (st : FileState) : Bool := st = .staging || st = .started

/-- The row of a hop that comes into use. -/
def FileRow.nextHop (r : FileRow) : FileRow := { r with fileState := .submitted, finishTime := none }

/-- The database after the first transaction of `updateStagingState`. -/
def afterStaging (node : Node) (ops : List (MinFileStatus FileState × Nat)) (db : Db) : Db :=
  Op.alone (ops.forM (storeStagingState node)) db

/-- The event ends the staging of a stage-in only hop, one of a multihop job. -/
def FinishesHop (i : MinFileStatus FileState) (db : Db) : Prop :=
  i.state = .finished ∧ (∃ job, db.jobs.find? i.jobId = some job ∧ job.type = .multiHop) ∧
    ∃ r, db.files.find? i.fileId = some r ∧ r.jobId = i.jobId ∧ r.fileState.inStaging = true ∧
      r.sourceSurl.isSome = true ∧ r.sourceSurl = r.destSurl

/-- The first `NOT_USED` hop of the job. -/
def FirstHop (j : String) (f : Nat) (db : Db) : Prop :=
  f = minNotUsed j db ∧ ∃ r, db.files.find? f = some r ∧ r.jobId = j ∧ r.fileState = .notUsed

/-- An event of the batch has moved a stage-in only hop to `FINISHED`, and `f` was the next hop of its job. -/
def HopTriggered (node : Node) (ops : List (MinFileStatus FileState × Nat)) (db : Db) (f : Nat) : Prop :=
  ∃ pre op post, ops = pre ++ op :: post ∧ FinishesHop op.1 (afterStaging node pre db) ∧
    (afterStaging node (pre ++ [op]) db).fileState? op.1.fileId = some .finished ∧
    FirstHop op.1.jobId f (afterStaging node pre db)

/-- The files that are not being staged keep their rows; a hop may come into use after the one before it. -/
def StagingFrame (node : Node) (ops : List (MinFileStatus FileState × Nat)) (db : Db) : Prop :=
  ∀ f r, db.files.find? f = some r → r.fileState.inStaging = false →
    (afterStaging node ops db).files.find? f = some r ∨
      (afterStaging node ops db).files.find? f = some r.nextHop ∧ HopTriggered node ops db f

/-- The event sends the file of this row back to staging. -/
def Resets (i : MinFileStatus FileState) (db : Db) (r : FileRow) : Bool :=
  i.state = .failed && retriesStaging i db && (retryStagingUpdate i db).selects r

/-- What the event finds: a file that it sends back to staging was being staged before the batch (`db₀`), and a hop that
it brings into use follows one whose staging it ends. -/
def InTime (node : Node) (db₀ : Db) (i : MinFileStatus FileState) (db : Db) : Prop :=
  (∀ r, db.files.find? i.fileId = some r → Resets i db r = true →
    ∃ r₀, db₀.files.find? i.fileId = some r₀ ∧ r₀.fileState.inStaging = true) ∧
  (stagingHop node i db ≠ none → FinishesHop i db)

/-- Every event of the batch is in time, in the database that the events before it leave. -/
def EventsInTime (node : Node) (ops : List (MinFileStatus FileState × Nat)) (db : Db) : Prop :=
  ∀ pre op post, ops = pre ++ op :: post → InTime node db op.1 (afterStaging node pre db)

/-- The states that a staging event reports. -/
def stagingEvents : List FileState := [.started, .failed, .finished, .canceled]

section

variable {node : Node} {db db₀ : Db} {f : Nat} {r : FileRow} {op : MinFileStatus FileState × Nat}
  {ops : List (MinFileStatus FileState × Nat)}

theorem updateStagingStateInternal_eq (node : Node) (ops : List (MinFileStatus FileState × Nat)) :
    updateStagingStateInternal node ops = .tx .begin ((ops.forM (storeStagingState node)).bind fun _ => .tx .commit
      (ops.forM fun i => (updateJobTransferStatusInternal node i.1.jobId
        (if i.1.state = .submitted then .active else i.1.state)).bind fun _ => (.ret () : Op Unit))) := rfl

theorem afterStaging_cons : afterStaging node (op :: ops) db = afterStaging node ops ((storeStagingState node op).alone db) := by
  rw [afterStaging, Op.alone, Proc.run_forM_cons]
  rfl

theorem afterStaging_append (pre ops : List (MinFileStatus FileState × Nat)) :
    afterStaging node (pre ++ ops) db = afterStaging node ops (afterStaging node pre db) := by
  induction pre generalizing db with
  | nil => rfl
  | cons x pre ih => rw [List.cons_append, afterStaging_cons, afterStaging_cons, ih]

theorem afterStaging_append_one (pre : List (MinFileStatus FileState × Nat)) :
    afterStaging node (pre ++ [op]) db = (storeStagingState node op).alone (afterStaging node pre db) := by
  rw [afterStaging_append, afterStaging_cons]
  rfl

/-! ## One event -/

theorem inStaging_iff {st : FileState} : st.inStaging = true ↔ st = .staging ∨ st = .started := by
  simp [FileState.inStaging]

/-- The hop that comes into use is `NOT_USED` until then. -/
theorem stagingHop_row (h : stagingHop node op.1 db = some f) (hr : db.files.find? f = some r) :
    op.1.state = .finished ∧ r.fileState = .notUsed ∧ r.jobId = op.1.jobId ∧ f = minNotUsed op.1.jobId db := by
  rw [stagingHop] at h
  split at h
  · rename_i hc
    obtain rfl := Option.some.inj h
    obtain ⟨r', hr', hst', hid'⟩ := minNotUsed_mem hc.2.2.2
    obtain ⟨hfind, hj'⟩ := mem_filesOf.mp hr'
    rw [hid', hr] at hfind
    rw [Option.some.inj hfind]
    exact ⟨hc.1, hst', hj', rfl⟩
  · cases h

/-- What an event does to a file that is not being staged. -/
theorem storeStagingState_row (hr : db.files.find? f = some r) (hst : r.fileState.inStaging = false) :
    ((storeStagingState node op).alone db).files.find? f =
      some (if Resets op.1 db r = true then (retryStagingUpdate op.1 db).sets db.now r
        else if stagingHop node op.1 db = some f then r.nextHop else r) := by
  have hid : r.fileId = f := Table.find?_some hr
  have hne : r.fileState ≠ .staging ∧ r.fileState ≠ .started := by
    rw [← Bool.not_eq_true, inStaging_iff, not_or] at hst
    exact hst
  rw [(storeStagingState_stores node op db).1, hr, Option.map_some]
  congr 1
  simp only [stagingUpdates]
  split
  · rename_i hstate
    simp [FileUpdate.run, FileUpdate.selects, Resets, stagingHop, hstate, hne]
  · rename_i hstate
    cases hretry : retriesStaging op.1 db with
    | false => simp [FileUpdate.run, FileUpdate.selects, Resets, stagingHop, hstate, hne, hretry]
    | true => simp [FileUpdate.run, Resets, stagingHop, hstate, hretry]
  · rename_i hstarted hfailed
    have hend : ∀ r : FileRow, r.fileState ≠ .staging ∧ r.fileState ≠ .started →
        (stagingEndUpdate op.1 op.2 db).selects r = false := by
      intro r hr
      unfold stagingEndUpdate
      split <;> simp [FileUpdate.selects, hr]
    have hreset : Resets op.1 db r = false := by simp [Resets, show op.1.state ≠ .failed from hfailed]
    rw [hreset]
    cases hhop : stagingHop node op.1 db with
    | none => simp [FileUpdate.run, hend r hne]
    | some h =>
        by_cases heq : h = f
        · subst heq
          have hsel : (FileUpdate.useNextHop h).selects r = true := by
            simp [FileUpdate.selects, hid, (stagingHop_row hhop hr).2.1]
          have hsets : (FileUpdate.useNextHop h).sets db.now r = r.nextHop := rfl
          have hrest : (stagingEndUpdate op.1 op.2 db).selects r.nextHop = false := hend _ (by simp [FileRow.nextHop])
          simp [FileUpdate.run_cons, hsel, hsets, hrest]
        · have hsel : (FileUpdate.useNextHop h).selects r = false := by
            simp [FileUpdate.selects, hid, Ne.symm heq]
          simp [FileUpdate.run_cons, hsel, heq, hend r hne]

theorem hop_in_use (hhop : stagingHop node op.1 db = some f) (hr : db.files.find? f = some r) :
    ((storeStagingState node op).alone db).files.find? f = some r.nextHop := by
  obtain ⟨hstate, hused, -, -⟩ := stagingHop_row hhop hr
  rw [storeStagingState_row hr (by simp [hused, FileState.inStaging]), if_neg (by simp [Resets, hstate]), if_pos hhop]

theorem Resets.row (hr : db.files.find? f = some r) (h : Resets op.1 db r = true) :
    f = op.1.fileId ∧ ((retryStagingUpdate op.1 db).sets db.now r).retry.getD 0 = r.retry.getD 0 + 1 ∧
      ((retryStagingUpdate op.1 db).sets db.now r).fileState = .staging := by
  have hid : r.fileId = f := Table.find?_some hr
  simp only [Resets, retryStagingUpdate, FileUpdate.selects, Bool.and_eq_true, decide_eq_true_eq] at h
  obtain ⟨-, ⟨hfile, hjob⟩, -⟩ := h
  have htimes : stagingTimes op.1 db = r.retry := by
    rw [stagingTimes, ← hfile, hid, hr]
    simp [Option.filter, hjob]
  refine ⟨hid.symm.trans hfile, ?_, rfl⟩
  simp [retryStagingUpdate, FileUpdate.sets, htimes]

theorem Resets.stores (hr : db.files.find? f = some r) (h : Resets op.1 db r = true) :
    ((storeStagingState node op).alone db).files.find? f = some ((retryStagingUpdate op.1 db).sets db.now r) := by
  simp only [Resets, Bool.and_eq_true, decide_eq_true_eq] at h
  obtain ⟨⟨hstate, hretry⟩, hsel⟩ := h
  rw [(storeStagingState_stores node op db).1, hr, Option.map_some]
  simp [stagingUpdates, hstate, hretry, FileUpdate.run_cons, hsel]

/-- `UPDATE`s that leave the retries alone and do not store `NOT_USED`. -/
theorem run_keeps_retry {now : Nat} {us : List FileUpdate}
    (h : ∀ u ∈ us, ∀ r, (u.sets now r).fileState ≠ .notUsed ∧ (u.sets now r).retry = r.retry) (r : FileRow) :
    (FileUpdate.run now us r).retry = r.retry ∧
      ((FileUpdate.run now us r).fileState = .notUsed → FileUpdate.run now us r = r) := by
  induction us generalizing r with
  | nil => exact ⟨rfl, fun _ => rfl⟩
  | cons u us ih =>
      have hu := h u (by simp) r
      have hrest := ih fun v hv => h v (by simp [hv])
      rw [FileUpdate.run_cons]
      split
      · refine ⟨(hrest _).1.trans hu.2, fun hst => absurd ?_ hu.1⟩
        rw [← (hrest _).2 hst]
        exact hst
      · exact hrest r

/-- What an event does to any file: its retries do not become fewer, and it does not become `NOT_USED`. -/
theorem storeStagingState_any (hop : op.1.state ∈ stagingEvents) (hr : db.files.find? f = some r) :
    ∃ r', ((storeStagingState node op).alone db).files.find? f = some r' ∧ r.retry.getD 0 ≤ r'.retry.getD 0 ∧
      (r'.fileState = .notUsed → r' = r) := by
  have hkeeps : ∀ us, (∀ u ∈ us, ∀ r : FileRow, (FileUpdate.sets db.now u r).fileState ≠ .notUsed ∧
      (FileUpdate.sets db.now u r).retry = r.retry) → r.retry.getD 0 ≤ (FileUpdate.run db.now us r).retry.getD 0 ∧
      ((FileUpdate.run db.now us r).fileState = .notUsed → FileUpdate.run db.now us r = r) := by
    intro us hus
    obtain ⟨hretry, hst⟩ := run_keeps_retry hus r
    exact ⟨Int.le_of_eq (by rw [hretry]), hst⟩
  have hevent : op.1.state ≠ .notUsed := by
    intro h
    rw [h] at hop
    simp [stagingEvents] at hop
  refine ⟨FileUpdate.run db.now (stagingUpdates node op db) r, ?_, ?_⟩
  · rw [(storeStagingState_stores node op db).1, hr, Option.map_some]
  · simp only [stagingUpdates]
    split
    · exact hkeeps _ (by simp [FileUpdate.sets])
    · rename_i hstate
      cases hretry : retriesStaging op.1 db with
      | false => exact hkeeps _ (by simp [FileUpdate.sets, hevent])
      | true =>
          rw [if_pos rfl, FileUpdate.run_cons, FileUpdate.run_nil]
          split
          · rename_i hsel
            have hres : Resets op.1 db r = true := by simp [Resets, hstate, hretry, hsel]
            have hreset := Resets.row hr hres
            rw [hreset.2.1, hreset.2.2]
            exact ⟨by omega, by simp⟩
          · exact ⟨Int.le_refl _, fun _ => rfl⟩
    · refine hkeeps _ fun u hu r => ?_
      rcases List.mem_append.mp hu with hu | hu
      · obtain ⟨h, -, rfl⟩ := List.mem_map.mp hu
        simp [FileUpdate.sets]
      · rw [List.mem_singleton.mp hu, stagingEndUpdate]
        split <;> simp [FileUpdate.sets, hevent]

/-! ## A batch -/

theorem afterStaging_any (hops : ∀ op ∈ ops, op.1.state ∈ stagingEvents) (hr : db.files.find? f = some r) :
    ∃ r', (afterStaging node ops db).files.find? f = some r' ∧ r.retry.getD 0 ≤ r'.retry.getD 0 ∧
      (r'.fileState = .notUsed → r' = r) := by
  induction ops generalizing db r with
  | nil => exact ⟨r, hr, Int.le_refl _, fun _ => rfl⟩
  | cons op ops ih =>
      rw [afterStaging_cons]
      obtain ⟨r₁, hr₁, hle₁, hst₁⟩ := storeStagingState_any (hops op (by simp)) hr
      obtain ⟨r₂, hr₂, hle₂, hst₂⟩ := ih (fun op hop => hops op (by simp [hop])) hr₁
      refine ⟨r₂, hr₂, Int.le_trans hle₁ hle₂, fun hst => ?_⟩
      obtain rfl := hst₂ hst
      exact hst₁ hst

theorem afterStaging_row {r' : FileRow} (hr' : (afterStaging node ops db).files.find? f = some r') :
    ∃ r, db.files.find? f = some r := by
  induction ops generalizing db with
  | nil => exact ⟨r', hr'⟩
  | cons op ops ih =>
      rw [afterStaging_cons] at hr'
      obtain ⟨r₁, hr₁⟩ := ih hr'
      rw [(storeStagingState_stores node op db).1, Option.map_eq_some_iff] at hr₁
      exact ⟨hr₁.choose, hr₁.choose_spec.1⟩

/-- A hop that has been `NOT_USED` until now has been so from the beginning. -/
theorem afterStaging_notUsed (hops : ∀ op ∈ ops, op.1.state ∈ stagingEvents)
    (hr : (afterStaging node ops db).files.find? f = some r) (hst : r.fileState = .notUsed) :
    db.files.find? f = some r := by
  obtain ⟨r₀, hr₀⟩ := afterStaging_row hr
  obtain ⟨r', hr', -, hsame⟩ := afterStaging_any hops hr₀
  rw [hr] at hr'
  obtain rfl := Option.some.inj hr'
  rw [hsame hst]
  exact hr₀

theorem FinishesHop.stageInOnly (h : FinishesHop op.1 db) : MySql.stageInOnly op.1.fileId db = true := by
  obtain ⟨-, -, r, hr, -, -, hsurl⟩ := h
  have hid : r.fileId = op.1.fileId := Table.find?_some hr
  rw [MySql.stageInOnly, decide_eq_true_eq, ← Nat.pos_iff_ne_zero, Table.matched_pos]
  exact ⟨r, Table.mem_of_find? hr, by simp [hid, hsurl.1, ← hsurl.2]⟩

theorem FinishesHop.hop (h : FinishesHop op.1 db) (hfirst : FirstHop op.1.jobId f db) (hf : f ≠ 0) :
    stagingHop node op.1 db = some f := by
  obtain ⟨job, hjob, hty⟩ := h.2.1
  rw [stagingHop, if_pos, hfirst.1]
  refine ⟨h.1, h.stageInOnly, ?_, hfirst.1 ▸ hf⟩
  simp [stagingJobType, hjob, hty]

/-- An event that ends the staging of a hop moves it to `FINISHED`. -/
theorem FinishesHop.moved (h : FinishesHop op.1 db) :
    ((storeStagingState node op).alone db).fileState? op.1.fileId = some .finished := by
  have honly := h.stageInOnly
  obtain ⟨hstate, -, r, hr, -, hstaging, -⟩ := h
  have hid : r.fileId = op.1.fileId := Table.find?_some hr
  have hend : (stagingEndUpdate op.1 op.2 db).selects r = true ∧
      ((stagingEndUpdate op.1 op.2 db).sets db.now r).fileState = .finished := by
    simp [stagingEndUpdate, hstate, honly, FileUpdate.selects, FileUpdate.sets, hid, inStaging_iff.mp hstaging]
  have hskip : ∀ h, (FileUpdate.useNextHop h).selects r = false := by
    intro h
    rcases inStaging_iff.mp hstaging with hst | hst <;> simp [FileUpdate.selects, hst]
  rw [Db.fileState?, (storeStagingState_stores node op db).1, hr, Option.map_some, Option.map_some]
  simp only [stagingUpdates, hstate]
  cases stagingHop node op.1 db with
  | none => simp [FileUpdate.run_cons, hend]
  | some h => simp [FileUpdate.run_cons, hskip, hend]

theorem EventsInTime.of_append {pre : List (MinFileStatus FileState × Nat)} (h : EventsInTime node (pre ++ ops) db) :
    EventsInTime node pre db := by
  rintro pre₁ op post rfl
  exact h pre₁ op (post ++ ops) (by simp)

theorem HopTriggered.append {pre : List (MinFileStatus FileState × Nat)} (h : HopTriggered node pre db f) :
    HopTriggered node (pre ++ ops) db f := by
  obtain ⟨pre₁, op, post, rfl, h⟩ := h
  exact ⟨pre₁, op, post ++ ops, by simp, h⟩

/-- Events that are in time leave the other files alone. -/
theorem stagingFrame_of_inTime (h : EventsInTime node ops db) : StagingFrame node ops db := by
  induction ops using List.reverseRecOn with
  | nil => exact fun f r hr _ => .inl hr
  | append_singleton pre op ih =>
      intro f r hr hst
      obtain ⟨hreset, hhop⟩ := h pre op [] rfl
      have hnow : ∃ r₁, (afterStaging node pre db).files.find? f = some r₁ ∧ r₁.fileState.inStaging = false ∧
          (r₁ = r ∨ r₁ = r.nextHop ∧ HopTriggered node pre db f) := by
        rcases ih h.of_append f r hr hst with hkept | ⟨hkept, htrig⟩
        · exact ⟨r, hkept, hst, .inl rfl⟩
        · exact ⟨r.nextHop, hkept, rfl, .inr ⟨rfl, htrig⟩⟩
      obtain ⟨r₁, hr₁, hst₁, hcases⟩ := hnow
      rw [afterStaging_append_one, storeStagingState_row hr₁ hst₁, if_neg]
      · split
        · rename_i hnext
          -- the hop was `NOT_USED` until now, so that no event before this one has brought it into use
          obtain ⟨-, hused, hjob, hmin⟩ := stagingHop_row hnext hr₁
          have hfin := hhop (by rw [hnext]; exact Option.some_ne_none f)
          rcases hcases with rfl | ⟨rfl, -⟩
          · refine .inr ⟨rfl, pre, op, [], rfl, hfin, ?_, hmin, r₁, hr₁, hjob, hused⟩
            rw [afterStaging_append_one]
            exact hfin.moved
          · cases hused
        · rcases hcases with rfl | ⟨rfl, htrig⟩
          · exact .inl rfl
          · exact .inr ⟨rfl, htrig.append⟩
      · intro hres
        obtain ⟨rfl, -, -⟩ := Resets.row hr₁ hres
        obtain ⟨r₀, hr₀, hst₀⟩ := hreset r₁ hr₁ hres
        rw [hr] at hr₀
        rw [← Option.some.inj hr₀, hst] at hst₀
        cases hst₀

section split

variable {pre post : List (MinFileStatus FileState × Nat)}
  (hops : ∀ x ∈ pre ++ op :: post, x.1.state ∈ stagingEvents)

include hops

/-- A row at the time of an event, and at the end of the batch. -/
theorem afterStaging_split (hr : ((storeStagingState node op).alone (afterStaging node pre db)).files.find? f = some r) :
    ∃ r', (afterStaging node (pre ++ op :: post) db).files.find? f = some r' ∧ r.retry.getD 0 ≤ r'.retry.getD 0 ∧
      (r'.fileState = .notUsed → r' = r) := by
  rw [afterStaging_append, afterStaging_cons]
  exact afterStaging_any (fun x hx => hops x (by simp [hx])) hr

variable (h : StagingFrame node (pre ++ op :: post) db)

include h

/-- A file that an event has sent back to staging has one more retry for good. -/
theorem inTime_reset (hr : (afterStaging node pre db).files.find? op.1.fileId = some r)
    (hres : Resets op.1 (afterStaging node pre db) r = true) :
    ∃ r₀, db.files.find? op.1.fileId = some r₀ ∧ r₀.fileState.inStaging = true := by
  obtain ⟨r₀, hr₀⟩ := afterStaging_row hr
  refine ⟨r₀, hr₀, ?_⟩
  by_contra hst
  rw [Bool.not_eq_true] at hst
  have hpre : r₀.retry.getD 0 ≤ r.retry.getD 0 := by
    have hevents : ∀ x ∈ pre, x.1.state ∈ stagingEvents := fun x hx => hops x (by simp [hx])
    obtain ⟨r', hr', hle, -⟩ := afterStaging_any hevents hr₀
    rw [hr] at hr'
    rw [Option.some.inj hr']
    exact hle
  obtain ⟨r₂, hr₂, hle, -⟩ := afterStaging_split hops (Resets.stores hr hres)
  rw [(Resets.row hr hres).2.1] at hle
  rcases h _ r₀ hr₀ hst with hkept | ⟨hkept, -⟩
  · rw [hr₂] at hkept
    rw [Option.some.inj hkept] at hle
    omega
  · rw [hr₂] at hkept
    rw [Option.some.inj hkept] at hle
    simp only [FileRow.nextHop] at hle
    omega

/-- A hop that an event has brought into use is not `NOT_USED` again, so that no other event is the one that has. -/
theorem inTime_hop (hhop : stagingHop node op.1 (afterStaging node pre db) = some f) :
    FinishesHop op.1 (afterStaging node pre db) := by
  obtain ⟨hf, r, hr⟩ : f ≠ 0 ∧ ∃ r, (afterStaging node pre db).files.find? f = some r := by
    rw [stagingHop] at hhop
    split at hhop
    · rename_i hc
      obtain rfl := Option.some.inj hhop
      obtain ⟨r, hr, -, hid⟩ := minNotUsed_mem hc.2.2.2
      exact ⟨hc.2.2.2, r, hid ▸ (mem_filesOf.mp hr).1⟩
    · cases hhop
  obtain ⟨-, hused, -, -⟩ := stagingHop_row hhop hr
  have hr₀ : db.files.find? f = some r := afterStaging_notUsed (fun x hx => hops x (by simp [hx])) hr hused
  have hafter := hop_in_use hhop hr
  obtain ⟨r₂, hr₂, -, hsame⟩ := afterStaging_split hops hafter
  have hnot : r₂.fileState ≠ .notUsed := by
    intro hst
    rw [hsame hst] at hst
    cases hst
  rcases h f r hr₀ (by simp [hused, FileState.inStaging]) with hkept | ⟨-, pre', op', post', heq, hfin, -, hfirst⟩
  · rw [hr₂] at hkept
    rw [Option.some.inj hkept] at hnot
    exact absurd hused hnot
  · obtain ⟨r', hr', -, hused'⟩ := hfirst.2
    rcases List.append_eq_append_iff.mp heq with ⟨mid, rfl, hmid⟩ | ⟨mid, rfl, hmid⟩
    · cases mid with
      | nil =>
          cases hmid
          simpa using hfin
      | cons x mid =>
          cases hmid
          rw [afterStaging_append, afterStaging_cons] at hr'
          have hkept := afterStaging_notUsed (fun x hx => hops x (by simp [hx])) hr' hused'
          rw [hafter] at hkept
          rw [← Option.some.inj hkept] at hused'
          cases hused'
    · cases mid with
      | nil =>
          cases hmid
          simpa using hfin
      | cons x mid =>
          cases hmid
          rw [afterStaging_append, afterStaging_cons] at hr
          have hkept := afterStaging_notUsed (fun x hx => hops x (by simp [hx])) hr hused
          rw [hop_in_use (hfin.hop hfirst hf) hr'] at hkept
          rw [← Option.some.inj hkept] at hused
          cases hused

end split

/-- A batch of staging events leaves the files alone that are not being staged, but for a hop that follows one whose
staging it ends, if and only if its events are in time. -/
theorem staging_frame_iff (node : Node) (ops : List (MinFileStatus FileState × Nat)) (db : Db)
    (hops : ∀ op ∈ ops, op.1.state ∈ stagingEvents) : StagingFrame node ops db ↔ EventsInTime node ops db := by
  refine ⟨fun h => ?_, stagingFrame_of_inTime⟩
  rintro pre op post rfl
  refine ⟨fun r hr hres => inTime_reset hops h hr hres, fun hhop => ?_⟩
  obtain ⟨f, hf⟩ := Option.ne_none_iff_exists'.mp hhop
  exact inTime_hop hops h hf

end

/-- A multihop job whose first hop is stage-in only, and is in the given state. -/
def stagedHopDb (st : FileState) : Db where
  files := .ofRows [
    { fileId := 1, jobId := "j", fileState := st, sourceSurl := some "root://a/f", destSurl := some "root://a/f" },
    { fileId := 2, jobId := "j", fileState := .notUsed, sourceSurl := some "root://a/f", destSurl := some "root://b/f" }]
  jobs := .ofRows [{ jobId := "j", jobState := .active, jobType := some .multiHop, retry := some 3 }]

def hopStaged : MinFileStatus FileState := { jobId := "j", fileId := 1, state := .finished }

def stagingLost : MinFileStatus FileState := { jobId := "j", fileId := 1, state := .failed, retry := true }

theorem staging_frame_hopStaged :
    (afterStaging { hostname := "a" } [(hopStaged, 7)] (stagedHopDb .started)).fileState? 2 = some .submitted ∧
      StagingFrame { hostname := "a" } [(hopStaged, 7)] (stagedHopDb .started) := by
  refine ⟨by decide, (staging_frame_iff _ _ _ (by decide)).mpr ?_⟩
  intro pre op post hsplit
  cases pre with
  | nil =>
      cases hsplit
      refine ⟨fun r _ hres => ?_, fun _ => ⟨rfl, ⟨_, rfl, rfl⟩, _, rfl, rfl, rfl, rfl, rfl⟩⟩
      simp [Resets, hopStaged] at hres
  | cons x pre => simp at hsplit

/-- A late failure takes the running transfer back to staging, and a late end of the staging of the first hop brings the
second one into use. -/
theorem staging_frame_broken_late :
    ¬StagingFrame { hostname := "a" } [(stagingLost, 7)] (stagedHopDb .active) ∧
      ¬StagingFrame { hostname := "a" } [(hopStaged, 7)] (stagedHopDb .active) := by
  constructor
  · intro h
    have hst : (afterStaging { hostname := "a" } [(stagingLost, 7)] (stagedHopDb .active)).fileState? 1 = some .staging := by
      decide
    rcases h 1 _ rfl rfl with hkept | ⟨hkept, -⟩ <;> rw [Db.fileState?, hkept] at hst <;> cases hst
  · intro h
    have hst : (afterStaging { hostname := "a" } [(hopStaged, 7)] (stagedHopDb .active)).fileState? 2 = some .submitted := by
      decide
    rcases h 2 _ rfl rfl with hkept | ⟨-, pre, op, post, hsplit, hfin, -⟩
    · rw [Db.fileState?, hkept] at hst
      cases hst
    · cases pre with
      | nil =>
          cases hsplit
          obtain ⟨-, -, r, hr, -, hstaging, -⟩ := hfin
          cases hr
          cases hstaging
      | cons x pre => simp at hsplit

end Fts3.MySql
