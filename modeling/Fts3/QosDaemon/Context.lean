import Mathlib.Data.List.Dedup
import Mathlib.Logic.Function.Basic
import Fts3.Common.Uri

/-!
# Contexts of the tasks

The files of one request to a storage. A context keeps them twice: under their job and URL, and under their URL alone.
-/

namespace Fts3.QosDaemon

scoped instance lawfulBEqPair : LawfulBEq (String × String) := inferInstance

/-- A file of a request. -/
structure Entry where
  jobId : String
  surl : String
  fileId : Nat
  deriving Repr, DecidableEq

namespace Entry

/-- The pair that is canceled. -/
def pair (e : Entry) : String × String :=
  (e.jobId, e.surl)

/-- The file as the states name it. -/
def id (e : Entry) : String × Nat :=
  (e.jobId, e.fileId)

def isValidOp (e : Entry) : Bool :=
  e.surl ≠ "" && e.jobId ≠ "" && 0 < e.fileId

end Entry

/-- `jobs` is the map from a job to its URLs to their files, and `urlToIDs` the one from a URL to its jobs and files. -/
structure JobContext where
  jobs : List Entry := []
  urlToIDs : List Entry := []
  errorCount : String → Nat := fun _ => 0

namespace JobContext

def add (ctx : JobContext) (e : Entry) : JobContext :=
  if e.isValidOp then { ctx with jobs := ctx.jobs ++ [e], urlToIDs := ctx.urlToIDs ++ [e] } else ctx

def getUrls (ctx : JobContext) : List String :=
  (ctx.jobs.map (·.surl)).dedup

def getSurls (ctx : JobContext) : List (String × String) :=
  (ctx.jobs.map (·.pair)).dedup

def getIDs (ctx : JobContext) (surl : String) : List (String × Nat) :=
  (ctx.urlToIDs.filter (·.surl = surl)).map (·.id)

def removeUrl (ctx : JobContext) (url : String) : JobContext :=
  { ctx with jobs := ctx.jobs.filter (·.surl ≠ url), urlToIDs := ctx.urlToIDs.filter (·.surl ≠ url) }

def incrementErrorCountForSurl (ctx : JobContext) (surl : String) : JobContext :=
  { ctx with errorCount := Function.update ctx.errorCount surl (ctx.errorCount surl + 1) }

/-- The URLs of the pairs that no other pair of the context needs; the pairs leave `jobs`, but not `urlToIDs`. -/
def getSurlsToAbort (ctx : JobContext) (remove : List (String × String)) : JobContext × List String :=
  let jobs := ctx.jobs.filter (·.pair ∉ remove)
  ({ ctx with jobs }, (remove.map (·.2)).dedup.filter (· ∉ jobs.map (·.surl)))

@[simp] theorem mem_getUrls {ctx : JobContext} {url : String} : url ∈ ctx.getUrls ↔ ∃ e ∈ ctx.jobs, e.surl = url := by
  simp [getUrls]

@[simp] theorem mem_getSurls {ctx : JobContext} {p : String × String} :
    p ∈ ctx.getSurls ↔ ∃ e ∈ ctx.jobs, e.pair = p := by
  simp [getSurls]

theorem nodup_getUrls (ctx : JobContext) : ctx.getUrls.Nodup :=
  List.nodup_dedup _

section abort

variable (ctx : JobContext) (remove : List (String × String))

@[simp] theorem jobs_getSurlsToAbort : (ctx.getSurlsToAbort remove).1.jobs = ctx.jobs.filter (·.pair ∉ remove) := rfl

@[simp] theorem urlToIDs_getSurlsToAbort : (ctx.getSurlsToAbort remove).1.urlToIDs = ctx.urlToIDs := rfl

theorem nodup_getSurlsToAbort : (ctx.getSurlsToAbort remove).2.Nodup :=
  (List.nodup_dedup _).filter _

variable {ctx remove}

theorem mem_getSurlsToAbort {url : String} : url ∈ (ctx.getSurlsToAbort remove).2 ↔
    (∃ p ∈ remove, p.2 = url) ∧ url ∉ (ctx.getSurlsToAbort remove).1.getUrls := by
  simp [getSurlsToAbort]

end abort

end JobContext

structure StagingContext extends JobContext where
  maxBringonlineTimeout : Int
  minStagingStartTime : Int

/-- A file to stage, as the database returns it. -/
structure StagingOperation extends Entry where
  timeout : Int
  startTime : Int

/-- Storages with a REST API for tapes. -/
def isHttp (surl : String) : Bool :=
  (Uri.parse surl.toList).protocol ∈ ["http".toList, "https".toList, "dav".toList, "davs".toList]

namespace StagingContext

def add (ctx : StagingContext) (op : StagingOperation) : StagingContext :=
  { ctx with
    toJobContext := ctx.toJobContext.add op.toEntry
    maxBringonlineTimeout := max ctx.maxBringonlineTimeout op.timeout
    minStagingStartTime := if 0 < op.startTime ∧ op.startTime < ctx.minStagingStartTime then op.startTime
      else ctx.minStagingStartTime }

/-- `HttpStagingContext` takes a URL only once. -/
def addHttp (ctx : StagingContext) (op : StagingOperation) : StagingContext :=
  if op.isValidOp && !ctx.urlToIDs.any (·.surl = op.surl) then ctx.add op else ctx

/-- The context of a group of files, of which there is at least one. -/
def create (now : Int) (op : StagingOperation) (ops : List StagingOperation) : StagingContext :=
  ops.foldl (if isHttp op.surl then addHttp else add)
    (add { maxBringonlineTimeout := op.timeout, minStagingStartTime := now } op)

theorem jobs_add_subset (ctx : StagingContext) (op : StagingOperation) :
    (ctx.add op).jobs ⊆ ctx.jobs ++ [op.toEntry] := by
  simp only [add, JobContext.add]
  split
  · exact List.Subset.refl _
  · exact List.subset_append_left _ _

theorem jobs_addHttp_subset (ctx : StagingContext) (op : StagingOperation) :
    (ctx.addHttp op).jobs ⊆ ctx.jobs ++ [op.toEntry] := by
  unfold addHttp
  split
  · exact ctx.jobs_add_subset op
  · exact List.subset_append_left _ _

/-- The files of the context are among those of the group. -/
theorem jobs_create_subset (now : Int) (op : StagingOperation) (ops : List StagingOperation) :
    (create now op ops).jobs ⊆ (op :: ops).map (·.toEntry) := by
  have hfold : ∀ (ops : List StagingOperation) (ctx : StagingContext),
      (ops.foldl (if isHttp op.surl then addHttp else add) ctx).jobs ⊆ ctx.jobs ++ ops.map (·.toEntry) := by
    intro ops
    induction ops with
    | nil => exact fun ctx => by simp
    | cons op' ops ih =>
        intro ctx
        have hadd : ((if isHttp op.surl then addHttp else add) ctx op').jobs ⊆ ctx.jobs ++ [op'.toEntry] := by
          split
          · exact ctx.jobs_addHttp_subset op'
          · exact ctx.jobs_add_subset op'
        refine List.Subset.trans (ih _) ?_
        rw [List.map_cons, List.append_cons]
        exact List.append_subset.mpr ⟨List.subset_append_of_subset_left _ hadd, List.subset_append_right _ _⟩
  have hfirst : (add { maxBringonlineTimeout := op.timeout, minStagingStartTime := now } op).jobs ⊆ [op.toEntry] :=
    jobs_add_subset _ op
  exact List.Subset.trans (hfold ops _)
    (List.append_subset.mpr ⟨List.subset_append_of_subset_left _ hfirst, List.subset_append_right [op.toEntry] _⟩)

end StagingContext

def StagingContext.hasTimeoutExpired (ctx : StagingContext) (now : Int) : Bool :=
  now - ctx.minStagingStartTime > ctx.maxBringonlineTimeout

structure ArchivingContext extends JobContext where
  /-- when each file times out -/
  expiryMap : Nat → Option Int

def ArchivingContext.hasTransferTimedOut (ctx : ArchivingContext) (now : Int) (fileId : Nat) : Bool :=
  (ctx.expiryMap fileId).any (· ≤ now)

def ArchivingContext.removeTransfer (ctx : ArchivingContext) (e : Entry) : ArchivingContext :=
  { ctx with
    jobs := ctx.jobs.erase e
    urlToIDs := ctx.urlToIDs.erase e
    expiryMap := Function.update ctx.expiryMap e.fileId none }

end Fts3.QosDaemon
