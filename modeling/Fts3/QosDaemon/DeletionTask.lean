import Mathlib.Data.Prod.Lex
import Fts3.Common.Grouping
import Fts3.MySql.Fetching
import Fts3.QosDaemon.PollTask

/-!
# Deletion tasks

What `FetchDeletion` does with the deletions that the database gives it: those of one user on one storage go into one
context, and a task for each context reports a state for each of its files.
-/

namespace Fts3.QosDaemon

open Fts3.MySql (DeleteOperation DmState MinFileStatus)

/-! ## Errors -/

def ECONNABORTED : Int := 103

def ECONNRESET : Int := 104

def ECONNREFUSED : Int := 111

def EBUSY : Int := 16

namespace JobError

def string : Option JobError → String
  | none => ""
  | some e => e.operation ++ " [" ++ toString e.code ++ "] " ++ e.message

def isRecoverable : Option JobError → Bool
  | none => false
  | some e => e.code ∈ [ETIMEDOUT, ECONNABORTED, ECONNREFUSED, ECONNRESET, EAGAIN, EBUSY]

end JobError

/-- The update that `DeletionStateUpdater` puts into its vector for a file. -/
def deletionUpdate (id : String × Nat) (state : DmState) (error : Option JobError) : MinFileStatus DmState where
  jobId := id.1
  fileId := id.2
  state
  reason := JobError.string error
  retry := JobError.isRecoverable error

/-! ## Contexts -/

/-- `DeletionContext::updateState(state, error)`: the state is given to all the files of the context. -/
def updateDeletions (ctx : JobContext) (state : DmState) (error : Option JobError) : List (MinFileStatus DmState) :=
  ctx.jobs.map fun e => deletionUpdate e.id state error

namespace FetchDeletion

/-- VO, user DN and storage. -/
abbrev Triplet := String ×ₗ String ×ₗ String

def entry (d : DeleteOperation) : Entry :=
  ⟨d.jobId, d.surl, d.fileId⟩

def key (d : DeleteOperation) : Triplet :=
  toLex (d.voName, toLex (d.userDn, String.ofList (Uri.parse d.surl.toList).host))

/-- The contexts of a turn of `fetch`. -/
def contexts (deletions : List DeleteOperation) : StdMap Triplet JobContext :=
  .group key (fun d => ({} : JobContext).add (entry d)) (fun ctx d => ctx.add (entry d)) deletions

end FetchDeletion

/-! ## Tasks -/

/-- What becomes of a new task: without a context of gfal2 nothing is reported. -/
inductive Gfal2Setup where
  | ready
  | proxyError (error : JobError)
  | noContext

def Gfal2Setup.isReady : Gfal2Setup → Bool
  | ready => true
  | _ => false

/-- `Gfal2Task::setProxy`, when the task is created. -/
def setProxy (setup : Gfal2Setup) (ctx : JobContext) : List (MinFileStatus DmState) :=
  match setup with
  | .proxyError error => updateDeletions ctx .failed (some error)
  | _ => []

namespace DeletionTask

/-- What is reported for a URL. -/
def verdict (answer : Answer) (url : String) : DmState × Option JobError :=
  if answer.status < 0 then
    match answer.errors url with
    | some error => (.failed, some (.ofGError "DELETION" error))
    | none => (.finished, none)
  else (.finished, none)

/-- `run_impl`, with the answer of `gfal2_unlink_list`. -/
def run (answer : Answer) (ctx : JobContext) : List (MinFileStatus DmState) :=
  if ctx.getUrls = [] then []
  else if answer.status < 0 then
    ctx.getUrls.flatMap fun url => (ctx.getIDs url).map fun id =>
      match answer.errors url with
      | some error => deletionUpdate id .failed (some (.ofGError "DELETION" error))
      | none => deletionUpdate id .finished none
  else updateDeletions ctx .finished none

end DeletionTask

/-! ## Reports -/

/-- Both parts of a context hold the same files. -/
structure JobContext.Same (ctx : JobContext) : Prop where
  ids : ctx.urlToIDs = ctx.jobs

theorem JobContext.Same.add {ctx : JobContext} (h : ctx.Same) (e : Entry) : (ctx.add e).Same := by
  unfold JobContext.add
  split
  case isTrue => exact ⟨by rw [h.ids]⟩
  case isFalse => exact h

theorem JobContext.jobs_add (ctx : JobContext) (e : Entry) :
    (ctx.add e).jobs = ctx.jobs ++ if e.isValidOp then [e] else [] := by
  unfold JobContext.add
  split
  case isTrue => rfl
  case isFalse => exact (List.append_nil _).symm

namespace DeletionTask

variable {ctx : JobContext}

/-- A task reports each file of its context once, by what the storage has answered for the URL of the file. -/
theorem run_perm (h : ctx.Same) (answer : Answer) : (run answer ctx).Perm
    (ctx.jobs.map fun e => deletionUpdate e.id (verdict answer e.surl).1 (verdict answer e.surl).2) := by
  unfold run
  split
  case isTrue hempty =>
    have hjobs : ctx.jobs = [] := by
      apply List.eq_nil_iff_forall_not_mem.mpr
      intro e he
      have hurl := JobContext.mem_getUrls.mpr ⟨e, he, rfl⟩
      rw [hempty] at hurl
      exact List.not_mem_nil hurl
    rw [hjobs]
    rfl
  case isFalse =>
    split
    case isTrue hneg =>
      have hurls : ∀ e ∈ ctx.jobs, e.surl ∈ ctx.getUrls := fun e he => JobContext.mem_getUrls.mpr ⟨e, he, rfl⟩
      have hgroups := (flatMap_filter_perm Entry.surl ctx.nodup_getUrls hurls).map fun e =>
        deletionUpdate e.id (verdict answer e.surl).1 (verdict answer e.surl).2
      rw [List.map_flatMap] at hgroups
      refine List.Perm.trans (List.Perm.of_eq (List.flatMap_congr fun url _ => ?_)) hgroups
      rw [JobContext.getIDs, h.ids, List.map_map]
      apply List.map_congr_left
      intro e he
      have hsurl : e.surl = url := by simpa using (List.mem_filter.mp he).2
      rw [verdict, if_pos hneg, hsurl]
      cases answer.errors url with
      | none => rfl
      | some error => rfl
    case isFalse hpos =>
      apply List.Perm.of_eq
      apply List.map_congr_left
      intro e _
      rw [verdict, if_neg hpos]

end DeletionTask

namespace FetchDeletion

theorem contexts_same (deletions : List DeleteOperation) : ∀ e ∈ (contexts deletions).entries, e.2.Same :=
  StdMap.group_forall (P := fun _ (ctx : JobContext) => ctx.Same) (fun d _ => JobContext.Same.add ⟨rfl⟩ (entry d))
    fun d _ _ h => h.add (entry d)

/-- The files of the contexts, each with the key of its context, are those that are fetched. -/
theorem contexts_perm (deletions : List DeleteOperation) :
    ((contexts deletions).entries.flatMap fun e => e.2.jobs.map fun file => (e.1, file)).Perm
      (deletions.flatMap fun d => if (entry d).isValidOp then [(key d, entry d)] else []) := by
  apply StdMap.contents_group fun (k : Triplet) (ctx : JobContext) => ctx.jobs.map fun file => (k, file)
  all_goals intro d
  · rw [JobContext.jobs_add]
    split
    · rfl
    · rfl
  · intro ctx
    rw [JobContext.jobs_add]
    split
    · rw [List.map_append]
      rfl
    · rw [List.append_nil, List.append_nil]

/-- All that is reported for the contexts of a turn. -/
def reports (setup : Triplet → Gfal2Setup) (answer : Triplet → Answer) (deletions : List DeleteOperation) :
    List (MinFileStatus DmState) :=
  (contexts deletions).entries.flatMap fun (k, ctx) =>
    setProxy (setup k) ctx ++ if (setup k).isReady then DeletionTask.run (answer k) ctx else []

/-- What is to be reported for a file. -/
def verdict (setup : Gfal2Setup) (answer : Answer) (e : Entry) : Option (MinFileStatus DmState) :=
  match setup with
  | .ready => some (deletionUpdate e.id (DeletionTask.verdict answer e.surl).1 (DeletionTask.verdict answer e.surl).2)
  | .proxyError error => some (deletionUpdate e.id .failed (some error))
  | .noContext => none

theorem reports_context {ctx : JobContext} (h : ctx.Same) (setup : Gfal2Setup) (answer : Answer) :
    (setProxy setup ctx ++ if setup.isReady then DeletionTask.run answer ctx else []).Perm
      (ctx.jobs.filterMap (verdict setup answer)) := by
  cases setup with
  | ready =>
      refine (DeletionTask.run_perm h answer).trans (List.Perm.of_eq ?_)
      rw [← List.filterMap_eq_map]
      rfl
  | proxyError error =>
      apply List.Perm.of_eq
      rw [setProxy, updateDeletions, ← List.filterMap_eq_map]
      exact List.append_nil _
  | noContext =>
      apply List.Perm.of_eq
      exact (List.filterMap_eq_nil_iff.mpr fun _ _ => rfl).symm

/-- Whatever deletions are fetched, however their contexts start and whatever the storages answer: each valid one is
reported exactly once, with the state and the error of its own context and URL, unless its task has no context of gfal2. -/
theorem each_deletion_reported_once (setup : Triplet → Gfal2Setup) (answer : Triplet → Answer)
    (deletions : List DeleteOperation) : (reports setup answer deletions).Perm (deletions.filterMap fun d =>
      if (entry d).isValidOp then verdict (setup (key d)) (answer (key d)) (entry d) else none) := by
  have hcontexts : (reports setup answer deletions).Perm ((contexts deletions).entries.flatMap fun e =>
      e.2.jobs.filterMap (verdict (setup e.1) (answer e.1))) :=
    List.Perm.flatMap_left _ fun e he => reports_context (contexts_same deletions e he) _ _
  have hfiles := (contexts_perm deletions).filterMap fun p => verdict (setup p.1) (answer p.1) p.2
  rw [List.filterMap_flatMap, List.filterMap_flatMap] at hfiles
  simp only [List.filterMap_map] at hfiles
  refine (hcontexts.trans hfiles).trans (List.Perm.of_eq ?_)
  rw [List.filterMap_eq_flatMap_toList]
  apply List.flatMap_congr
  intro d _
  split
  · simp [List.filterMap_cons]
    cases verdict (setup (key d)) (answer (key d)) (entry d) <;> rfl
  · rfl

end FetchDeletion

end Fts3.QosDaemon
