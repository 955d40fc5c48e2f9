import Fts3.Machine.Run
import Fts3.QosDaemon.Polling

/-!
# The sets of active URLs

Each class of staging tasks has one set of the pairs of job and URL that are not canceled. Its tasks put their pairs into
it, take from it what is canceled, and erase their pairs at their end; the pairs are not counted.
-/

namespace Fts3.QosDaemon

open Fts3.Machine

inductive TaskClass
  | bringOnline
  | httpBringOnline
  deriving Repr, DecidableEq

/-- A `BringOnlineTask` or, when it polls, a `PollTask`; or one of their counterparts for HTTP. -/
structure Task where
  cls : TaskClass
  ctx : StagingContext
  polls : Bool
  /-- the object has not been moved from -/
  gfal2Ctx : Bool := true
  /-- the object has not been run -/
  queued : Bool := true
  /-- the object has not been destroyed -/
  alive : Bool := true
  /-- the cancellations requested since its pairs were put into the set -/
  requests : List (String × String) := []

structure Daemon where
  tasks : List Task := []
  activeUrls : TaskClass → List (String × String) := fun _ => []

inductive TaskEvent
  /-- a group of files is fetched, or found to be polled when the daemon starts -/
  | create (now : Int) (op : StagingOperation) (ops : List StagingOperation) (polls : Bool)
  | bringOnline (k : Nat) (answer : Answer)
  | poll (k : Nat) (i : PollInput)
  | destroy (k : Nat)
  /-- a round of `FetchCancelStaging`, with the pairs that the database has returned -/
  | cancel (urls : List (String × String))

/-! ## The steps -/

namespace Task

/-- The task may be run. -/
def ready (t : Task) (polls : Bool) : Bool :=
  t.alive && t.gfal2Ctx && t.queued && t.polls = polls

/-- The task has pairs in the set. -/
def registered (t : Task) : Bool :=
  t.alive && t.gfal2Ctx

/-- The object after its successor has taken its context. -/
def moved (t : Task) : Task :=
  { t with ctx := { t.ctx with jobs := [], urlToIDs := [] }, gfal2Ctx := false, queued := false }

/-- The objects after a run. -/
def after (t : Task) (turn : Turn StagingContext) : Task × List Task :=
  if turn.successor then (t.moved, [{ t with ctx := turn.ctx, polls := true }])
  else ({ t with ctx := turn.ctx, queued := false }, [])

/-- A run of `BringOnlineTask` or `HttpBringOnlineTask`. -/
def bringOnline (t : Task) (answer : Answer) : Turn StagingContext :=
  match t.cls with
  | .bringOnline => BringOnlineTask.run answer t.ctx
  | .httpBringOnline => HttpBringOnlineTask.run answer t.ctx

/-- A run of `PollTask` or `HttpPollTask`. -/
def poll (t : Task) (i : PollInput) : Turn StagingContext :=
  match t.cls with
  | .bringOnline => PollTask.run i t.ctx
  | .httpBringOnline => HttpPollTask.run i t.ctx

end Task

namespace Daemon

def runTask (d : Daemon) (k : Nat) (polls : Bool) (turn : Task → Turn StagingContext) : Daemon :=
  match d.tasks[k]? with
  | some t =>
      if t.ready polls then { d with tasks := d.tasks.set k (t.after (turn t)).1 ++ (t.after (turn t)).2 } else d
  | none => d

/-- Erases the pairs from the set of the class. -/
def cancelUrls (d : Daemon) (cls : TaskClass) (urls : List (String × String)) : Daemon :=
  { d with activeUrls := Function.update d.activeUrls cls ((d.activeUrls cls).filter (· ∉ urls)) }

def step (d : Daemon) : TaskEvent → Daemon
  | .create now op ops polls =>
      let cls := if isHttp op.surl then .httpBringOnline else .bringOnline
      let ctx := StagingContext.create now op ops
      { tasks := d.tasks ++ [{ cls, ctx, polls }]
        activeUrls := Function.update d.activeUrls cls (d.activeUrls cls ++ ctx.getSurls) }
  | .bringOnline k answer => d.runTask k false fun t => t.bringOnline answer
  | .poll k i => d.runTask k true fun t => t.poll { i with activeUrls := d.activeUrls t.cls }
  | .destroy k =>
      match d.tasks[k]? with
      | some t =>
          if t.registered then
            { d.cancelUrls t.cls t.ctx.getSurls with tasks := d.tasks.set k { t with alive := false } }
          else { d with tasks := d.tasks.set k { t with alive := false } }
      | none => d
  -- only the one class is told
  | .cancel urls =>
      { d.cancelUrls .bringOnline urls with
        tasks := d.tasks.map fun t => { t with requests := t.requests ++ urls } }

end Daemon

/-! ## A run only takes files away -/

theorem pollUrls_jobs (outcome : Nat → Option GError → Outcome) (errors : String → Option GError) (ctx : JobContext) :
    (pollUrls outcome errors ctx).ctx.jobs ⊆ ctx.jobs := by
  have hfold : ∀ (urls : List String) (p : Polling), (urls.foldl (pollUrl outcome errors) p).ctx.jobs ⊆ p.ctx.jobs := by
    intro urls
    induction urls with
    | nil => exact fun p => List.Subset.refl _
    | cons url urls ih =>
        intro p
        refine List.Subset.trans (ih _) ?_
        cases hp : p.crashed with
        | true =>
            rw [pollUrl, hp]
            exact List.Subset.refl _
        | false =>
            rw [pollUrl_eq outcome errors hp, jobs_afterPoll]
            exact List.filter_subset_self _
  exact hfold _ _

theorem runStaging_jobs (abortFails : Int → Bool) (outcome : Int → Int → Nat → Option GError → Outcome) (i : PollInput)
    (ctx : StagingContext) : (runStaging abortFails outcome i ctx).ctx.jobs ⊆ ctx.jobs := by
  unfold runStaging
  split
  · exact List.Subset.refl _
  · dsimp only
    split
    · exact List.filter_subset_self _
    · exact List.Subset.trans (pollUrls_jobs _ _ _) (List.filter_subset_self _)

theorem runBringOnline_jobs (outcome : Int → Option GError → Outcome) (answer : Answer) (ctx : StagingContext) :
    (runBringOnline outcome answer ctx).ctx.jobs ⊆ ctx.jobs := by
  have hfold : ∀ (urls : List String) (ctx : JobContext), (urls.foldl .removeUrl ctx).jobs ⊆ ctx.jobs := by
    intro urls
    induction urls with
    | nil => exact fun ctx => List.Subset.refl _
    | cons url urls ih => exact fun ctx => List.Subset.trans (ih _) (List.filter_subset_self _)
  unfold runBringOnline
  split
  · exact List.Subset.refl _
  · split
    · exact List.Subset.refl _
    · exact hfold _ _

namespace Task

theorem poll_jobs (t : Task) (i : PollInput) : (t.poll i).ctx.jobs ⊆ t.ctx.jobs := by
  unfold poll
  split
  · exact runStaging_jobs _ _ _ _
  · exact runStaging_jobs _ _ _ _

theorem bringOnline_jobs (t : Task) (answer : Answer) : (t.bringOnline answer).ctx.jobs ⊆ t.ctx.jobs := by
  unfold bringOnline
  split
  · exact runBringOnline_jobs _ _ _
  · exact runBringOnline_jobs _ _ _

/-- What the objects after a run have of the pairs of the task. -/
theorem mem_after {t t' : Task} {turn : Turn StagingContext} (hturn : turn.ctx.jobs ⊆ t.ctx.jobs)
    (h : t' = (t.after turn).1 ∨ t' ∈ (t.after turn).2) :
    t'.cls = t.cls ∧ t'.requests = t.requests ∧ t'.alive = t.alive ∧
      (t'.registered = true → t.registered = true ∧ t'.ctx.getSurls ⊆ t.ctx.getSurls) := by
  have hsurls : turn.ctx.getSurls ⊆ t.ctx.getSurls := by
    intro p hp
    obtain ⟨e, he, rfl⟩ := JobContext.mem_getSurls.mp hp
    exact JobContext.mem_getSurls.mpr ⟨e, hturn he, rfl⟩
  unfold after at h
  split at h
  · rcases h with rfl | h
    · exact ⟨rfl, rfl, rfl, fun hregistered => absurd hregistered (by simp [moved, registered])⟩
    · obtain rfl := List.mem_singleton.mp h
      exact ⟨rfl, rfl, rfl, fun hregistered => ⟨hregistered, hsurls⟩⟩
  · rcases h with rfl | h
    · exact ⟨rfl, rfl, rfl, fun hregistered => ⟨hregistered, hsurls⟩⟩
    · exact absurd h List.not_mem_nil

end Task

namespace Daemon

variable {d : Daemon}

/-- The objects after a run are those before it, but for the ones that the run has left of its own. -/
theorem mem_runTask {k : Nat} {polls : Bool} {turn : Task → Turn StagingContext} {t : Task}
    (h : t ∈ (d.runTask k polls turn).tasks) :
    t ∈ d.tasks ∨ ∃ t₀ ∈ d.tasks, t = (t₀.after (turn t₀)).1 ∨ t ∈ (t₀.after (turn t₀)).2 := by
  unfold runTask at h
  split at h
  case h_1 t₀ ht₀ =>
    have hmem : t₀ ∈ d.tasks := List.mem_of_getElem? ht₀
    split at h
    case isTrue =>
      rcases List.mem_append.mp h with h | h
      · rcases List.mem_or_eq_of_mem_set h with h | h
        · exact .inl h
        · exact .inr ⟨t₀, hmem, .inl h⟩
      · exact .inr ⟨t₀, hmem, .inr h⟩
    case isFalse => exact .inl h
  case h_2 => exact .inl h

@[simp] theorem activeUrls_runTask (d : Daemon) (k : Nat) (polls : Bool) (turn : Task → Turn StagingContext) :
    (d.runTask k polls turn).activeUrls = d.activeUrls := by
  unfold runTask
  split
  · split <;> rfl
  · rfl

theorem mem_cancelUrls {cls cls' : TaskClass} {urls : List (String × String)} {p : String × String} :
    p ∈ (d.cancelUrls cls urls).activeUrls cls' ↔ p ∈ d.activeUrls cls' ∧ (cls' = cls → p ∉ urls) := by
  unfold cancelUrls
  by_cases h : cls' = cls
  · subst h
    simp
  · simp [h]

/-! ## No spurious abort -/

/-- No other object of the class has a pair of this one. -/
def alone (d : Daemon) (k : Nat) : Bool :=
  (d.tasks[k]?).all fun t => !t.registered || (d.tasks.eraseIdx k).all fun t' =>
    !(t'.registered && t'.cls = t.cls) || t.ctx.getSurls.all (· ∉ t'.ctx.getSurls)

/-- An object is destroyed while no other one of its class has a pair of it. -/
def Alone (d : Daemon) : TaskEvent → Prop
  | .destroy k => d.alone k = true
  | _ => True

instance : ∀ d e, Decidable (Alone d e)
  | d, .destroy k => inferInstanceAs (Decidable (d.alone k = true))
  | _, .create .. | _, .bringOnline .. | _, .poll .. | _, .cancel _ => inferInstanceAs (Decidable True)

/-- Each pair of a task is in the set, or its cancellation has been requested. -/
def Accounted (d : Daemon) : Prop :=
  ∀ t ∈ d.tasks, t.registered = true → ∀ p ∈ t.ctx.getSurls, p ∈ d.activeUrls t.cls ∨ p ∈ t.requests

theorem Accounted.runTask {k : Nat} {polls : Bool} {turn : Task → Turn StagingContext}
    (hturn : ∀ t, (turn t).ctx.jobs ⊆ t.ctx.jobs) (h : d.Accounted) : (d.runTask k polls turn).Accounted := by
  intro t ht hregistered p hp
  rw [activeUrls_runTask]
  rcases mem_runTask ht with ht | ⟨t₀, ht₀, hafter⟩
  · exact h t ht hregistered p hp
  · obtain ⟨hcls, hrequests, -, hsurls⟩ := Task.mem_after (hturn t₀) hafter
    rw [hcls, hrequests]
    exact h t₀ ht₀ (hsurls hregistered).1 p ((hsurls hregistered).2 hp)

theorem Accounted.create (now : Int) (op : StagingOperation) (ops : List StagingOperation) (polls : Bool)
    (h : d.Accounted) : (d.step (.create now op ops polls)).Accounted := by
  intro t ht hregistered p hp
  simp only [step] at ht ⊢
  generalize (if isHttp op.surl then TaskClass.httpBringOnline else .bringOnline) = cls at ht ⊢
  rcases List.mem_append.mp ht with ht | ht
  · refine (h t ht hregistered p hp).imp (fun hactive => ?_) id
    rw [Function.update_apply]
    split
    case isTrue hcls => exact List.mem_append_left _ (hcls ▸ hactive)
    case isFalse => exact hactive
  · obtain rfl := List.mem_singleton.mp ht
    left
    rw [Function.update_self]
    exact List.mem_append_right _ hp

theorem Accounted.destroy {k : Nat} (halone : d.alone k = true) (h : d.Accounted) : (d.step (.destroy k)).Accounted := by
  simp only [step]
  split
  case h_2 => exact h
  case h_1 t ht =>
    -- an object that is left is another one, or has been destroyed
    have hother : ∀ {t'}, t' ∈ d.tasks.set k { t with alive := false } → t'.registered = true → t' ∈ d.tasks.eraseIdx k := by
      intro t' ht' hregistered
      obtain ⟨j, hj⟩ := List.mem_iff_getElem?.mp ht'
      rw [List.getElem?_set] at hj
      by_cases hkj : k = j
      · subst hkj
        have hlt : k < d.tasks.length := (List.getElem?_eq_some_iff.mp ht).1
        rw [if_pos rfl, if_pos hlt] at hj
        cases hj
        simp [Task.registered] at hregistered
      · rw [if_neg hkj] at hj
        exact List.mem_eraseIdx_iff_getElem?.mpr ⟨j, Ne.symm hkj, hj⟩
    split
    case isTrue hregistered =>
      rw [alone, ht] at halone
      simp only [Option.all_some, hregistered, Bool.not_true, Bool.false_or, List.all_eq_true] at halone
      intro t' ht' hregistered' p hp
      have hmem := hother ht' hregistered'
      refine (h t' (List.mem_of_mem_eraseIdx hmem) hregistered' p hp).imp (fun hactive => ?_) id
      refine mem_cancelUrls.mpr ⟨hactive, fun hcls hpair => ?_⟩
      have hnot := halone t' hmem
      simp only [hregistered', hcls, decide_true, Bool.and_true, Bool.not_true, Bool.false_or, List.all_eq_true,
        decide_eq_true_eq] at hnot
      exact hnot p hpair hp
    case isFalse =>
      intro t' ht' hregistered' p hp
      exact h t' (List.mem_of_mem_eraseIdx (hother ht' hregistered')) hregistered' p hp

theorem Accounted.cancel (urls : List (String × String)) (h : d.Accounted) : (d.step (.cancel urls)).Accounted := by
  intro t ht hregistered p hp
  simp only [step, List.mem_map] at ht
  obtain ⟨t₀, ht₀, rfl⟩ := ht
  by_cases hurls : p ∈ urls
  · exact .inr (List.mem_append_right _ hurls)
  · refine (h t₀ ht₀ hregistered p hp).imp (fun hactive => ?_) (List.mem_append_left _)
    exact mem_cancelUrls.mpr ⟨hactive, fun _ => hurls⟩

theorem Accounted.step {e : TaskEvent} (he : Alone d e) (h : d.Accounted) : (d.step e).Accounted := by
  cases e with
  | create now op ops polls => exact h.create now op ops polls
  | bringOnline k answer => exact h.runTask fun t => t.bringOnline_jobs answer
  | poll k i => exact h.runTask fun t => t.poll_jobs _
  | destroy k => exact h.destroy he
  | cancel urls => exact h.cancel urls

/-- Whatever tasks are created, moved, polled and destroyed: what a task would take for canceled has been requested since
it put its pairs into the set, where each task is destroyed without another one having its pairs. -/
theorem no_spurious_abort (es : List TaskEvent) (h : Meets step Alone {} es) :
    ∀ t ∈ (run step {} es).tasks, t.registered = true →
      ∀ i : PollInput, i.activeUrls = (run step {} es).activeUrls t.cls →
        (∀ p ∈ i.canceled t.ctx, p ∈ t.requests) ∧
          ∀ url ∈ (t.ctx.getSurlsToAbort (i.canceled t.ctx)).2, ∃ p ∈ t.requests, p.2 = url := by
  have haccounted : (run step {} es).Accounted :=
    h.invariant (fun _ _ he hd => hd.step he) fun t ht => absurd ht List.not_mem_nil
  intro t ht hregistered i hi
  have hcanceled : ∀ p ∈ i.canceled t.ctx, p ∈ t.requests := by
    intro p hp
    unfold PollInput.canceled at hp
    split at hp
    · exact absurd hp List.not_mem_nil
    · rw [hi, List.mem_filter, decide_eq_true_eq] at hp
      exact (haccounted t ht hregistered p hp.1).resolve_left hp.2
  refine ⟨hcanceled, fun url hurl => ?_⟩
  obtain ⟨⟨p, hp, rfl⟩, -⟩ := JobContext.mem_getSurlsToAbort.mp hurl
  exact ⟨p, hcanceled p hp, rfl⟩

section fixed

def stagingOperation (jobId surl : String) (fileId : Nat) : StagingOperation :=
  { jobId, surl, fileId, timeout := 3600, startTime := 0 }

/-- A poll with one error for each of two URLs. -/
def stagingPoll (status : Int) (a b : Option GError) : PollInput :=
  { now := 60
    maxPollRetries := 3
    activeUrls := []
    abort := ⟨0, fun _ => none⟩
    poll := ⟨status, fun url => if url = "srm://se/a" then a else b⟩ }

/-- The two files of a request that is polled. -/
def stagedRun : List TaskEvent :=
  [.create 0 (stagingOperation "job" "srm://se/a" 1) [stagingOperation "job" "srm://se/b" 2] false,
    .bringOnline 0 ⟨0, fun _ => none⟩, .destroy 0]

/-- One of the files is canceled. -/
def canceledRun : List TaskEvent :=
  stagedRun ++ [.cancel [("job", "srm://se/a")]]

theorem no_spurious_abort_canceled : Meets step Alone {} canceledRun ∧
    ∀ t ∈ (run step {} canceledRun).tasks, t.registered = true →
      ∀ i : PollInput, i.activeUrls = (run step {} canceledRun).activeUrls t.cls →
        (∀ p ∈ i.canceled t.ctx, p ∈ t.requests) ∧
          ∀ url ∈ (t.ctx.getSurlsToAbort (i.canceled t.ctx)).2, ∃ p ∈ t.requests, p.2 = url :=
  ⟨by decide, no_spurious_abort canceledRun (by decide)⟩

/-- The first file fails while the second one is polled again, and is staged a second time by another task. -/
def retriedRun : List TaskEvent :=
  stagedRun ++ [.poll 1 (stagingPoll (-1) (some ⟨ETIMEDOUT, "late"⟩) (some ⟨ECOMM, "again"⟩)), .destroy 1,
    .create 60 (stagingOperation "job" "srm://se/a" 1) [] false,
    .bringOnline 3 ⟨0, fun _ => none⟩, .destroy 3,
    .poll 2 (stagingPoll (-1) (some ⟨ETIMEDOUT, "late"⟩) (some ⟨ETIMEDOUT, "late"⟩)), .destroy 2]

/-- The end of the first task takes the pair from the second one, which nobody has canceled. -/
theorem spurious_abort : ¬ ∀ t ∈ (run step {} retriedRun).tasks, t.registered = true →
    ∀ i : PollInput, i.activeUrls = (run step {} retriedRun).activeUrls t.cls →
      (∀ p ∈ i.canceled t.ctx, p ∈ t.requests) ∧
        ∀ url ∈ (t.ctx.getSurlsToAbort (i.canceled t.ctx)).2, ∃ p ∈ t.requests, p.2 = url := by
  intro h
  have htask : ∃ t ∈ (run step {} retriedRun).tasks, t.registered = true ∧ t.requests = [] ∧
      ({ stagingPoll 0 none none with activeUrls := (run step {} retriedRun).activeUrls t.cls }).canceled t.ctx
        = [("job", "srm://se/a")] := by
    decide
  obtain ⟨t, ht, hregistered, hrequests, hcanceled⟩ := htask
  have hp := (h t ht hregistered _ rfl).1 ("job", "srm://se/a") (by rw [hcanceled]; exact List.mem_singleton_self _)
  rw [hrequests] at hp
  exact absurd hp List.not_mem_nil

end fixed

/-! ## Cancellations -/

/-- The event does not put the pair into a set. -/
def Leaves (p : String × String) : TaskEvent → Prop
  | .create _ op ops _ => ∀ o ∈ op :: ops, o.pair ≠ p
  | _ => True

instance (p : String × String) : ∀ e, Decidable (Leaves p e)
  | .create _ op ops _ => inferInstanceAs (Decidable (∀ o ∈ op :: ops, o.pair ≠ p))
  | .bringOnline .. | .poll .. | .destroy _ | .cancel _ => inferInstanceAs (Decidable True)

theorem not_mem_create {p : String × String} {now : Int} {op : StagingOperation} {ops : List StagingOperation}
    (h : ∀ o ∈ op :: ops, o.pair ≠ p) : p ∉ (StagingContext.create now op ops).getSurls := by
  intro hp
  obtain ⟨e, he, rfl⟩ := JobContext.mem_getSurls.mp hp
  obtain ⟨o, ho, rfl⟩ := List.mem_map.mp (StagingContext.jobs_create_subset now op ops he)
  exact h o ho rfl

/-- A pair that is not in a set comes into it by a creation only. -/
theorem Leaves.not_mem_step {p : String × String} {cls : TaskClass} {e : TaskEvent} (he : Leaves p e)
    (h : p ∉ d.activeUrls cls) : p ∉ (d.step e).activeUrls cls := by
  cases e with
  | create now op ops polls =>
      simp only [step]
      generalize (if isHttp op.surl then TaskClass.httpBringOnline else .bringOnline) = cls'
      rw [Function.update_apply]
      split
      case isTrue hcls =>
        rw [List.mem_append, ← hcls]
        exact not_or.mpr ⟨h, not_mem_create he⟩
      case isFalse => exact h
  | bringOnline k answer => simpa [step] using h
  | poll k i => simpa [step] using h
  | destroy k =>
      simp only [step]
      split
      case h_1 t ht =>
        split
        case isTrue => exact fun hp => h (mem_cancelUrls.mp hp).1
        case isFalse => exact h
      case h_2 => exact h
  | cancel urls => exact fun hp => h (mem_cancelUrls.mp hp).1

end Daemon

/-- The poll lets go of the pair, or ends with all the pairs, and aborts the URL that no other pair needs. -/
def Task.Cancels (t : Task) (i : PollInput) (p : String × String) : Prop :=
  (t.ctx.hasTimeoutExpired i.now = true ∧ (t.poll i).successor = false ∨ p ∉ (t.poll i).ctx.getSurls) ∧
    ((∀ e ∈ t.ctx.jobs, e.surl = p.2 → e.pair ∉ i.activeUrls) → p.2 ∈ (t.poll i).aborted)

/-- A poll takes away what is not in the set. -/
theorem runStaging_cancels {abortFails : Int → Bool} {outcome : Int → Int → Nat → Option GError → Outcome} {i : PollInput}
    {ctx : StagingContext} {p : String × String} (hp : p ∈ ctx.getSurls) (hactive : p ∉ i.activeUrls) :
    (ctx.hasTimeoutExpired i.now = true ∧ (runStaging abortFails outcome i ctx).successor = false ∨
        p ∉ (runStaging abortFails outcome i ctx).ctx.getSurls) ∧
      ((∀ e ∈ ctx.jobs, e.surl = p.2 → e.pair ∉ i.activeUrls) → p.2 ∈ (runStaging abortFails outcome i ctx).aborted) := by
  have hurl : p.2 ∈ ctx.getUrls := by
    obtain ⟨e, he, rfl⟩ := JobContext.mem_getSurls.mp hp
    exact JobContext.mem_getUrls.mpr ⟨e, he, rfl⟩
  have hremove : p ∈ ctx.getSurls.filter (· ∉ i.activeUrls) := by simpa using ⟨by simpa using hp, hactive⟩
  have hkept : ∀ e ∈ (ctx.getSurlsToAbort (ctx.getSurls.filter (· ∉ i.activeUrls))).1.jobs, e.pair ≠ p := by
    intro e he hpair
    rw [JobContext.jobs_getSurlsToAbort, List.mem_filter, decide_eq_true_eq, hpair] at he
    exact he.2 hremove
  have haborted : (∀ e ∈ ctx.jobs, e.surl = p.2 → e.pair ∉ i.activeUrls) →
      p.2 ∈ (ctx.getSurlsToAbort (ctx.getSurls.filter (· ∉ i.activeUrls))).2 := by
    intro hothers
    refine JobContext.mem_getSurlsToAbort.mpr ⟨⟨p, hremove, rfl⟩, fun hmem => ?_⟩
    obtain ⟨e, he, hsurl⟩ := JobContext.mem_getUrls.mp hmem
    rw [JobContext.jobs_getSurlsToAbort, List.mem_filter, decide_eq_true_eq] at he
    refine he.2 (List.mem_filter.mpr ⟨JobContext.mem_getSurls.mpr ⟨e, he.1, rfl⟩, ?_⟩)
    exact decide_eq_true (hothers e he.1 hsurl)
  unfold runStaging
  split
  case isTrue htimeout => exact ⟨.inl ⟨htimeout, rfl⟩, fun _ => hurl⟩
  case isFalse =>
    dsimp only
    split
    · refine ⟨.inr fun hmem => ?_, haborted⟩
      obtain ⟨e, he, hpair⟩ := JobContext.mem_getSurls.mp hmem
      exact hkept e he hpair
    · refine ⟨.inr fun hmem => ?_, fun hothers => List.mem_append_left _ (haborted hothers)⟩
      obtain ⟨e, he, hpair⟩ := JobContext.mem_getSurls.mp hmem
      exact hkept e (pollUrls_jobs _ _ _ he) hpair

theorem Task.cancels_of_not_mem {t : Task} {i : PollInput} {p : String × String} (hp : p ∈ t.ctx.getSurls)
    (hactive : p ∉ i.activeUrls) : t.Cancels i p := by
  unfold Cancels poll
  split
  · exact runStaging_cancels hp hactive
  · exact runStaging_cancels hp hactive

namespace Daemon

/-- After a round has returned a pair, every poll of a task for other storages than HTTP that has the pair cancels it, as
long as no task of the pair is created. -/
theorem cancel_reaches (es es' : List TaskEvent) (urls : List (String × String)) (p : String × String) (hp : p ∈ urls)
    (hes' : ∀ e ∈ es', Leaves p e) :
    ∀ t ∈ (run step {} (es ++ .cancel urls :: es')).tasks, t.ready true = true → p ∈ t.ctx.getSurls →
      t.cls = .bringOnline →
        ∀ i : PollInput, i.activeUrls = (run step {} (es ++ .cancel urls :: es')).activeUrls t.cls → t.Cancels i p := by
  intro t _ _ hsurls hcls i hi
  refine Task.cancels_of_not_mem hsurls ?_
  rw [hi, hcls, run_append, run_cons]
  have hround : p ∉ ((run step {} es).step (.cancel urls)).activeUrls .bringOnline := by
    intro hmem
    have hmem' : p ∈ ((run step {} es).cancelUrls .bringOnline urls).activeUrls .bringOnline := hmem
    exact (mem_cancelUrls.mp hmem').2 rfl hp
  have hstep : ∀ d e, Leaves p e → p ∉ activeUrls d .bringOnline → p ∉ (d.step e).activeUrls .bringOnline :=
    fun _ _ he hd => he.not_mem_step hd
  exact (meets_of_forall hes').invariant hstep hround

section fixed

/-- The first file is canceled while its request is polled. -/
theorem cancel_reaches_polled :
    (∃ t ∈ (run step {} canceledRun).tasks, t.ready true = true ∧ ("job", "srm://se/a") ∈ t.ctx.getSurls ∧
      t.cls = .bringOnline) ∧
    ∀ t ∈ (run step {} canceledRun).tasks, t.ready true = true → ("job", "srm://se/a") ∈ t.ctx.getSurls →
      t.cls = .bringOnline →
        ∀ i : PollInput, i.activeUrls = (run step {} canceledRun).activeUrls t.cls →
          t.Cancels i ("job", "srm://se/a") :=
  ⟨by decide, cancel_reaches stagedRun [] [("job", "srm://se/a")] ("job", "srm://se/a") (List.mem_singleton_self _) (by simp)⟩

/-- The same with a storage that is asked over HTTP. -/
def httpRun : List TaskEvent :=
  [.create 0 (stagingOperation "job" "https://se/a" 1) [] false, .bringOnline 0 ⟨0, fun _ => none⟩, .destroy 0,
    .cancel [("job", "https://se/a")]]

/-- The task of a file that has been fetched before its cancellation is created after it. -/
def lateRun : List TaskEvent :=
  [.cancel [("job", "srm://se/a")], .create 0 (stagingOperation "job" "srm://se/a" 1) [] false,
    .bringOnline 0 ⟨0, fun _ => none⟩, .destroy 0]

/-- The cancellation reaches neither the task for HTTP nor the one that is created after it. -/
theorem cancel_is_lost :
    (¬ ∀ t ∈ (run step {} httpRun).tasks, t.ready true = true → ("job", "https://se/a") ∈ t.ctx.getSurls →
      ∀ i : PollInput, i.activeUrls = (run step {} httpRun).activeUrls t.cls → t.Cancels i ("job", "https://se/a")) ∧
    ¬ ∀ t ∈ (run step {} lateRun).tasks, t.ready true = true → ("job", "srm://se/a") ∈ t.ctx.getSurls →
      ∀ i : PollInput, i.activeUrls = (run step {} lateRun).activeUrls t.cls → t.Cancels i ("job", "srm://se/a") := by
  -- the poll keeps the pair, in time
  have hlost : ∀ {es : List TaskEvent} {p : String × String},
      (∃ t ∈ (run step {} es).tasks, t.ready true = true ∧ p ∈ t.ctx.getSurls ∧ p ∈ (t.poll
        { stagingPoll 0 (some ⟨EAGAIN, "ongoing"⟩) (some ⟨EAGAIN, "ongoing"⟩) with
          activeUrls := (run step {} es).activeUrls t.cls }).ctx.getSurls ∧ t.ctx.hasTimeoutExpired 60 = false) →
      ¬ ∀ t ∈ (run step {} es).tasks, t.ready true = true → p ∈ t.ctx.getSurls →
        ∀ i : PollInput, i.activeUrls = (run step {} es).activeUrls t.cls → t.Cancels i p := by
    rintro es p ⟨t, ht, hready, hp, hleft, htimeout⟩ h
    have hpoll := h t ht hready hp
      { stagingPoll 0 (some ⟨EAGAIN, "ongoing"⟩) (some ⟨EAGAIN, "ongoing"⟩) with
        activeUrls := (run step {} es).activeUrls t.cls } rfl
    rcases hpoll.1 with ⟨hexpired, -⟩ | hgone
    · exact absurd (htimeout.symm.trans hexpired) Bool.false_ne_true
    · exact hgone hleft
  exact ⟨hlost (by decide), hlost (by decide)⟩

end fixed

end Daemon

end Fts3.QosDaemon
