import Fts3.MySql.Fetching
import Fts3.MySql.Lemmas.Ready
import Fts3.MySql.Lemmas.Writes

/-!
# The delay before a retry

An operation that is to be tried again has the time in `retry_timestamp` before which it must not be started. Three
operations write it, and four select what is started next.
-/

namespace Fts3.MySql

open Fts3.Sql

/-- The file is not to be started before `T`. -/
def Waits (f T : Nat) (db : Db) : Prop :=
  ∀ r, db.files.find? f = some r → ∃ t, r.retryTimestamp = some t ∧ T ≤ t

/-- The statement does not move the retry of the file to a time before `T`. -/
def Stmt.Postpones (f T : Nat) : Stmt → Prop
  | .file (.setRetryTransfer f' _ _ t) => f' = f → T ≤ t
  | .file (.resetForRetryStaging f' _ _ t) => f' = f → T ≤ t
  | _ => True

variable {f T : Nat} {db : Db}

/-! ## The writers -/

theorem FileUpdate.sets_retryTimestamp {u : FileUpdate} {r : FileRow} (h : (Stmt.file u).Postpones f T)
    (hf : r.fileId = f) (hsel : u.selects r = true) (hr : ∃ t, r.retryTimestamp = some t ∧ T ≤ t) (now : Nat) :
    ∃ t, (u.sets now r).retryTimestamp = some t ∧ T ≤ t := by
  cases u with
  | setRetryTransfer f' j n t =>
      simp only [FileUpdate.selects, Bool.and_eq_true, decide_eq_true_eq] at hsel
      exact ⟨t, rfl, h (hsel.1.1.symm.trans hf)⟩
  | resetForRetryStaging f' j n t =>
      simp only [FileUpdate.selects, Bool.and_eq_true, decide_eq_true_eq] at hsel
      exact ⟨t, rfl, h (hsel.1.1.symm.trans hf)⟩
  | _ => exact hr

theorem exec_waits {s : Stmt} (hs : s.Postpones f T) (h : Waits f T db) : Waits f T (s.exec db).2 := by
  cases s with
  | file u =>
      intro r' hr'
      rw [exec_file_find?, Option.map_eq_some_iff] at hr'
      obtain ⟨r, hr, rfl⟩ := hr'
      split
      · rename_i hsel
        exact FileUpdate.sets_retryTimestamp hs (Table.find?_some hr) hsel (h r hr) db.now
      · exact h r hr
  | deleteFiles ids =>
      intro r hr
      have hfound : db.files.find? f = some r := by
        rw [show ((Stmt.deleteFiles ids).exec db).2.files = db.files.delete fun r => r.jobId ∈ ids from rfl,
          Table.find?_delete] at hr
        exact (Option.filter_eq_some_iff.mp hr).1
      exact h r hfound
  | _ => exact h

/-- The timestamp does not move to an earlier time in a run whose steps do not move it. -/
theorem after_waits {calls : List Call} {schedule : List Nat} (h : Waits f T db)
    (hsteps : ∀ e ∈ System.steps db calls schedule, ∀ s, e.act = .update s → s.Postpones f T) (k : Nat) :
    Waits f T (System.after db calls (schedule.take k)).store := by
  have htake : ∀ e ∈ System.steps db calls (schedule.take k), e ∈ System.steps db calls schedule := by
    intro e he
    rw [← List.take_append_drop k schedule, System.steps, Pool.trace_append]
    exact List.mem_append_left _ he
  refine Pool.run_rel (P := System.init db calls) (R := fun db₁ db₂ => Waits f T db₁ → Waits f T db₂) (fun _ => id)
    (fun h₁ h₂ h => h₂ (h₁ h)) (schedule.take k) ?_ h
  · intro e he hpre
    have hexec : e.Executes Stmt.exec := Pool.trace_executes _ _ e he
    cases hact : e.act with
    | update s =>
        rw [Event.Executes, hact] at hexec
        rw [hexec.2]
        exact exec_waits (hsteps e (htake e he) s hact) hpre
    | select q =>
        rw [Event.Executes, hact] at hexec
        rw [hexec]
        exact hpre
    | tx t =>
        rw [Event.Executes, hact] at hexec
        rw [hexec]
        exact hpre

/-! ## The readers -/

section readers

variable {α : Type} {I : Db → Prop}

/-- The client finds only stores with `I`, and may write what it likes. -/
def sight (I : Db → Prop) : Rule Db Sel Stmt Unit where
  inv := I
  see _ _ _ := ()
  allow _ _ := True

/-- As long as `I` holds, the client returns something with `Φ`. -/
def Op.Returns (I : Db → Prop) (Φ : α → Prop) (p : Op α) : Prop :=
  p.Follows (sight I) (fun a _ => Φ a) ()

theorem Op.Returns.bind {β : Type} {Φ : α → Prop} {Ψ : β → Prop} {p : Op α} {k : α → Op β} (hp : Op.Returns I Φ p)
    (hk : ∀ a, Φ a → Op.Returns I Ψ (k a)) : Op.Returns I Ψ (p.bind k) :=
  Proc.Follows.bind hp fun a _ ha => hk a ha

/-- A client about whose result nothing is said. -/
theorem Op.returns_true (p : Op α) : Op.Returns I (fun _ => True) p := by
  induction p with
  | ret a => trivial
  | select q k ih => exact fun db _ => ih db
  | update u k ih => exact ⟨trivial, ih⟩
  | tx t k ih => exact ih

theorem Op.returns_nil {β : Type} {R : β → Prop} : Op.Returns I (fun ys => ∀ y ∈ ys, R y) (pure []) :=
  fun _ h => absurd h List.not_mem_nil

theorem Op.returns_ite {c : Prop} [Decidable c] {Φ : α → Prop} {p q : Op α} (hp : Op.Returns I Φ p)
    (hq : Op.Returns I Φ q) : Op.Returns I Φ (if c then p else q) :=
  Proc.follows_ite (fun _ => hp) fun _ => hq

theorem Op.returns_collect {β γ : Type} {R : β → Prop} {k : γ → Op (List β)} {xs : List γ}
    (hk : ∀ x ∈ xs, Op.Returns I (fun ys => ∀ y ∈ ys, R y) (k x)) :
    Op.Returns I (fun ys => ∀ y ∈ ys, R y) (Proc.collect k xs) :=
  Proc.follows_collect fun x hx _ => hk x hx

theorem Op.Returns.amid {Φ : α → Prop} {p : Op α} (hp : Op.Returns I Φ p) {seen : Nat → Db} (hseen : ∀ n, I (seen n)) :
    Φ (p.amid Stmt.exec seen) := by
  obtain ⟨-, h⟩ := Proc.Follows.amid hp hseen
  exact h

end readers

/-- What a transfer is fetched with: it is not due before its retry. -/
theorem fetchable_not_before {node : Node} {tTime : Nat} {r : FileRow} (h : Waits f T db) (hT : tTime ≤ T)
    (hr : r ∈ db.files.rows) (hfetch : r.fetchable node tTime = true) : r.fileId ≠ f := by
  rintro rfl
  obtain ⟨t, ht, hle⟩ := h r (Table.find?_key hr)
  simp only [FileRow.fetchable, ht, Option.all_some, Bool.and_eq_true, decide_eq_true_eq] at hfetch
  omega

theorem readyRows_waits {node : Node} {tTime : Nat} {q : QueueId} {p : Int} {types : List JobType}
    {ofActivity : FileRow → Bool} {n : Nat} (h : Waits f T db) (hT : tTime ≤ T) :
    ∀ tf ∈ readyRows node tTime q p types ofActivity n db, tf.fileId ≠ f := by
  intro tf htf
  have hmem := List.mem_of_mem_take htf
  simp only [List.mem_filterMap, List.mem_insertionSort, Option.map_eq_some_iff] at hmem
  obtain ⟨r, hr, j, -, rfl⟩ := hmem
  simp only [Table.select, List.mem_filter, Bool.and_eq_true] at hr
  exact fetchable_not_before h hT hr.1 hr.2.1.2

theorem getReadyTransfers_returns {node : Node} {tTime : Nat} {chance : Chance} {queues : List QueueId} (hT : tTime ≤ T) :
    Op.Returns (Waits f T) (fun tfs => ∀ tf ∈ tfs.getD [], tf.fileId ≠ f)
      (getReadyTransfers node tTime chance queues) :=
  getReadyTransfers_follows (fun _ _ _ _ h => h) (fun _ _ _ hdb _ _ _ _ => readyRows_waits hdb hT) ()

theorem getSessionReuseTransfers_returns {node : Node} {tTime : Nat} {j : String} (hT : tTime ≤ T) :
    Op.Returns (Waits f T) (fun rows => ∀ r ∈ rows, r.fileId ≠ f) (getSessionReuseTransfers node tTime j) := by
  intro db hdb
  by_cases hjob : (db.jobs.find? j).isSome = true
  · simp only [hjob, if_true]
    intro r hr
    simp only [Table.select, List.mem_filter, Bool.and_eq_true] at hr
    exact fetchable_not_before hdb hT hr.1 hr.2.2
  · simp only [hjob]
    exact Op.returns_nil

theorem getReadySessionReuseTransfers_returns {node : Node} {tTime : Nat} {unwritten : Int} {queues : List QueueId}
    (hT : tTime ≤ T) : Op.Returns (Waits f T) (fun jobs => ∀ e ∈ jobs, ∀ r ∈ e.2, r.fileId ≠ f)
      (getReadySessionReuseTransfers node tTime unwritten queues) := by
  refine Op.returns_collect fun q _ => ?_
  refine (Op.returns_true _).bind fun activeCount _ => (Op.returns_true _).bind fun maxActive _ => ?_
  refine Op.returns_ite Op.returns_nil ((Op.returns_true _).bind fun jobs _ => Op.returns_collect fun jobId _ => ?_)
  refine (getSessionReuseTransfers_returns hT).bind fun rows hrows => ?_
  intro e he
  split at he
  · cases he
  · obtain rfl := List.mem_singleton.mp he
    exact hrows

/-- The row is not one that the staging query selects. -/
def NotStaging (node : Node) (f : Nat) (db : Db) : Prop :=
  ∀ r, db.files.find? f = some r → ¬(r.fileState = .staging ∧ r.inSegment node = true)

theorem stagingRows_notStaging {node : Node} {vo se cred : String} {n : Nat} (h : NotStaging node f db) :
    ∀ i ∈ db.stagingRows node vo se cred n, i.fileId ≠ f := by
  intro i hi
  have hmem := List.mem_of_mem_take hi
  simp only [List.mem_filterMap, Table.select, List.mem_filter, Bool.and_eq_true, decide_eq_true_eq,
    Option.map_eq_some_iff] at hmem
  obtain ⟨r, ⟨hr, ⟨hst, hseg⟩, -⟩, j, -, rfl⟩ := hmem
  rintro rfl
  exact h r (Table.find?_key hr) ⟨hst, hseg⟩

theorem getFilesForStagingOf_returns {node : Node} {now : Nat} {queued : QueuedStagingFiles} {vo se : String} :
    Op.Returns (NotStaging node f) (fun ops => ∀ i ∈ ops.1, i.fileId ≠ f)
      (getFilesForStagingOf node now queued vo se) := by
  have hnone : ∀ queued : QueuedStagingFiles, Op.Returns (NotStaging node f)
      (fun ops : List StagingOperation × QueuedStagingFiles => ∀ i ∈ ops.1, i.fileId ≠ f) (pure ([], queued)) :=
    fun _ _ h => absurd h List.not_mem_nil
  refine (Op.returns_true _).bind fun limit _ => ?_
  cases limit with
  | none => exact hnone queued
  | some limit =>
      refine (Op.returns_true _).bind fun active _ => Op.returns_ite (hnone queued) ?_
      refine (Op.returns_true _).bind fun waiting _ => ?_
      refine Op.returns_ite (hnone _) ((Op.returns_true _).bind fun credentials _ => ?_)
      refine (Op.returns_collect fun cred _ => ?_).bind fun files hfiles => hfiles
      exact fun db hdb => stagingRows_notStaging hdb

theorem getFilesForStaging_returns {node : Node} {now : Nat} {queued : QueuedStagingFiles} :
    Op.Returns (NotStaging node f) (fun ops => ∀ i ∈ ops.1, i.fileId ≠ f) (getFilesForStaging node now queued) := by
  refine (Op.returns_true _).bind fun queues _ => ?_
  induction queues generalizing queued with
  | nil => exact fun i h => absurd h List.not_mem_nil
  | cons q queues ih =>
      refine getFilesForStagingOf_returns.bind fun first hfirst => ih.bind fun rest hrest => ?_
      intro i hi
      rcases List.mem_append.mp hi with h | h
      · exact hfirst i h
      · exact hrest i h

/-- The row is not one that the deletion query selects. -/
def NotDeletable (node : Node) (f : Nat) (db : Db) : Prop :=
  ∀ r, db.dms.find? f = some r → r.deletable node r.sourceSe = false

theorem deletionRows_notDeletable {node : Node} {vo se dn : String} {n : Nat} (h : NotDeletable node f db) :
    ∀ d ∈ db.deletionRows node vo se dn n, d.fileId ≠ f := by
  intro d hd
  have hmem := List.mem_of_mem_take hd
  simp only [List.mem_map, List.mem_insertionSort, List.mem_filterMap, Table.select, List.mem_filter,
    Option.map_eq_some_iff] at hmem
  obtain ⟨e, ⟨r, ⟨hr, hdel⟩, j, -, rfl⟩, rfl⟩ := hmem
  rintro rfl
  have hse : r.sourceSe = se := by
    simp only [DmRow.deletable, Bool.and_eq_true, decide_eq_true_eq] at hdel
    exact hdel.2
  rw [← hse, h r (Table.find?_key hr)] at hdel
  cases hdel

theorem getFilesForDeletion_returns {node : Node} {messages : List (MinFileStatus DmState)} :
    Op.Returns (NotDeletable node f) (fun ops => ∀ d ∈ ops, d.fileId ≠ f) (getFilesForDeletion node messages) := by
  refine (Op.returns_true _).bind fun queues _ => ?_
  have hof : ∀ vo se, Op.Returns (NotDeletable node f) (fun ops => ∀ d ∈ ops, d.fileId ≠ f)
      (getFilesForDeletionOf node vo se) := by
    intro vo se
    refine (Op.returns_true _).bind fun configured _ => (Op.returns_true _).bind fun active _ => ?_
    refine Op.returns_ite Op.returns_nil ((Op.returns_true _).bind fun users _ => ?_)
    exact Op.returns_collect fun user _ => fun db hdb => deletionRows_notDeletable hdb
  refine (Op.returns_collect fun q _ => hof q.1 q.2).bind fun delOps hdel => ?_
  exact Op.returns_ite hdel ((Op.returns_true _).bind fun _ _ => hdel)

/-! ## The law -/

/-- A file whose retry is due at `T` is not fetched for a transfer before. The queries for staging requests and for
deletions do not look at the time: a row is not returned before `T` when they do not find it in their queue. -/
theorem retry_delay_respected (db : Db) (f T : Nat) (r : FileRow) (hr : db.files.find? f = some r)
    (hT : r.retryTimestamp = some T) (calls : List Call) (schedule : List Nat)
    (hsteps : ∀ e ∈ System.steps db calls schedule, ∀ s, e.act = .update s → s.Postpones f T) (seen : Nat → Db)
    (hseen : ∀ n, ∃ k, seen n = (System.after db calls (schedule.take k)).store) (tTime : Nat) (ht : tTime ≤ T) :
    (∀ node chance queues, ∀ tf ∈ ((getReadyTransfers node tTime chance queues).amid Stmt.exec seen).getD [],
      tf.fileId ≠ f) ∧
    (∀ node unwritten queues, ∀ job ∈ (getReadySessionReuseTransfers node tTime unwritten queues).amid Stmt.exec seen,
      ∀ r ∈ job.2, r.fileId ≠ f) ∧
    (∀ node queued, (∀ n, NotStaging node f (seen n)) →
      ∀ i ∈ ((getFilesForStaging node tTime queued).amid Stmt.exec seen).1, i.fileId ≠ f) ∧
    (∀ node messages d, (∀ n, NotDeletable node d (seen n)) →
      ∀ i ∈ (getFilesForDeletion node messages).amid Stmt.exec seen, i.fileId ≠ d) := by
  have hwaits : ∀ n, Waits f T (seen n) := by
    intro n
    obtain ⟨k, hk⟩ := hseen n
    rw [hk]
    refine after_waits (fun r' hr' => ?_) hsteps k
    obtain rfl := Option.some.inj (hr.symm.trans hr')
    exact ⟨T, hT, Nat.le_refl T⟩
  refine ⟨fun node chance queues => ?_, fun node unwritten queues => ?_, fun node queued hnot => ?_,
    fun node messages d hnot => ?_⟩
  · exact (getReadyTransfers_returns ht).amid hwaits
  · exact (getReadySessionReuseTransfers_returns ht).amid hwaits
  · exact getFilesForStaging_returns.amid hnot
  · exact getFilesForDeletion_returns.amid hnot

/-- A transfer, a staging request and a deletion that fail at the time 100 and are to be tried again after ten minutes. -/
def delayedDb : Db where
  files := .ofRows [
    { fileId := 1, jobId := "j", fileState := .submitted, sourceSe := "se", voName := "vo", retryTimestamp := some 700 },
    { fileId := 2, jobId := "j", fileState := .started, sourceSe := "se", voName := "vo" }]
  dms := .ofRows [{ fileId := 1, jobId := "j", fileState := .started, sourceSe := "se", voName := "vo" }]
  jobs := .ofRows [{ jobId := "j", jobState := .active, jobType := some .regular, voName := "vo", retry := some 3
                     retryDelay := 600 }]
  now := 100

theorem retry_delay_respected_delayed :
    (System.after delayedDb [.tick 50] [0]).store.now = 150 ∧
    ∀ tf ∈ ((getReadyTransfers { hostname := "a" } 150 {} [⟨"se", "", "vo", 0⟩]).amid Stmt.exec
      (fun _ => (System.after delayedDb [.tick 50] [0]).store)).getD [], tf.fileId ≠ 1 := by
  refine ⟨rfl, (retry_delay_respected delayedDb 1 700 _ rfl rfl [.tick 50] [0] ?_ _ (fun _ => ⟨1, rfl⟩) 150
    (by decide)).1 _ _ _⟩
  intro e he s hs
  obtain rfl := List.mem_singleton.mp he
  cases hs
  trivial

/-- Both are returned at the time at which they have failed. -/
theorem retried_at_once :
    let node : Node := { hostname := "a" }
    let db := (updateStagingStateInternal node
      [({ jobId := "j", fileId := 2, state := .failed, retry := true }, 0)]).alone delayedDb
    let db' := (updateDeletionsStateInternal node
      [{ jobId := "j", fileId := 1, state := .failed, retry := true }]).alone delayedDb
    (db.files.find? 2).bind (·.retryTimestamp) = some 700 ∧
    ((getFilesForStaging node 100 [("se", 0)]).run Stmt.exec db).1.1.map (·.fileId) = [2] ∧
    (db'.dms.find? 1).bind (·.retryTimestamp) = some 700 ∧
    ((getFilesForDeletion node []).run Stmt.exec db').1.map (·.fileId) = [1] := by
  decide

end Fts3.MySql
