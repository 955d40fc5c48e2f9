import Fts3.Common.OrderedMap
import Fts3.Machine.Run
import Fts3.QosDaemon.Context

/-!
# The maps of a context

`JobContext` with its two indexes as the maps that they are, the operations of the staging and of the archiving
contexts on them, and which calls leave the indexes in agreement.
-/

namespace Fts3.QosDaemon

open Fts3.Machine

/-- Job ID -> URL -> list of file IDs -/
abbrev JobMap := StdMap String (StdMap String (List Nat))

namespace JobMap

/-- The files under a job and a URL, if there is an entry for them. -/
def stored (jobs : JobMap) (jobId surl : String) : Option (List Nat) :=
  (jobs.find? jobId).bind (·.find? surl)

/-- How often the triple is in the map. -/
def count (jobs : JobMap) (e : Entry) : Nat :=
  ((jobs.stored e.jobId e.surl).getD []).count e.fileId

/-- No entry is without files. -/
def NoEmpty (jobs : JobMap) : Prop :=
  ∀ j s, jobs.stored j s ≠ some []

/-- `jobs[jobId][surl].push_back(fileId)` -/
def pushBack (jobs : JobMap) (e : Entry) : JobMap :=
  let urls := (jobs.find? e.jobId).getD .empty
  jobs.insert e.jobId (urls.insert e.surl ((urls.find? e.surl).getD [] ++ [e.fileId]))

/-- `it_j->second.erase(url)` for every job. -/
def eraseUrl (jobs : JobMap) (url : String) : JobMap :=
  jobs.mapVal (·.erase url)

/-- `jobs[jobId].erase(surl)` -/
def erasePair (jobs : JobMap) (p : String × String) : JobMap :=
  jobs.insert p.1 (((jobs.find? p.1).getD .empty).erase p.2)

/-- An entry without files is erased. -/
def putFiles (urls : StdMap String (List Nat)) (surl : String) (fileIds : List Nat) : StdMap String (List Nat) :=
  if fileIds = [] then urls.erase surl else urls.insert surl fileIds

/-- A job without entries is erased. -/
def putUrls (jobs : JobMap) (jobId : String) (urls : StdMap String (List Nat)) : JobMap :=
  if urls.entries = [] then jobs.erase jobId else jobs.insert jobId urls

/-- The part of `removeTransfers` on this map. -/
def eraseTransfer (jobs : JobMap) (e : Entry) : JobMap :=
  match jobs.find? e.jobId with
  | none => jobs
  | some urls =>
      match urls.find? e.surl with
      | none => jobs
      | some fileIds => jobs.putUrls e.jobId (putFiles urls e.surl (fileIds.erase e.fileId))

def urls (jobs : JobMap) : List String :=
  jobs.entries.flatMap fun job => job.2.entries.map (·.1)

section stored

variable (jobs : JobMap) (e : Entry) (j s : String)

@[simp] theorem stored_pushBack : (jobs.pushBack e).stored j s =
    if j = e.jobId ∧ s = e.surl then some ((jobs.stored j s).getD [] ++ [e.fileId]) else jobs.stored j s := by
  unfold pushBack stored
  rw [StdMap.find?_insert]
  by_cases hj : j = e.jobId
  · subst hj
    by_cases hs : s = e.surl
    · cases jobs.find? e.jobId <;> simp [hs]
    · cases jobs.find? e.jobId <;> simp [hs]
  · simp [hj]

@[simp] theorem stored_eraseUrl (url : String) :
    (jobs.eraseUrl url).stored j s = if s = url then none else jobs.stored j s := by
  unfold eraseUrl stored
  rw [StdMap.find?_mapVal]
  cases jobs.find? j <;> simp

@[simp] theorem stored_erasePair (p : String × String) :
    (jobs.erasePair p).stored j s = if (j, s) = p then none else jobs.stored j s := by
  obtain ⟨j', s'⟩ := p
  unfold erasePair stored
  rw [StdMap.find?_insert]
  by_cases hj : j = j'
  · subst hj
    cases jobs.find? j <;> simp
  · simp [hj]

theorem find?_putFiles (urls : StdMap String (List Nat)) (surl : String) (fileIds : List Nat) :
    (putFiles urls surl fileIds).find? s =
      if s = surl then (some fileIds).filter (· ≠ []) else urls.find? s := by
  unfold putFiles
  by_cases hempty : fileIds = []
  · simp [hempty, Option.filter]
  · simp [hempty, Option.filter]

theorem stored_putUrls (jobId : String) (urls : StdMap String (List Nat)) :
    (jobs.putUrls jobId urls).stored j s = if j = jobId then urls.find? s else jobs.stored j s := by
  unfold putUrls stored
  by_cases hentries : urls.entries = []
  · simp only [hentries, if_true, StdMap.find?_erase, StdMap.find?_eq_none_of_entries hentries]
    split <;> rfl
  · simp only [hentries, if_false, StdMap.find?_insert]
    split <;> rfl

@[simp] theorem stored_eraseTransfer : (jobs.eraseTransfer e).stored j s =
    if j = e.jobId ∧ s = e.surl then ((jobs.stored j s).map (·.erase e.fileId)).filter (· ≠ [])
    else jobs.stored j s := by
  cases hurls : jobs.find? e.jobId with
  | none =>
      have hsame : jobs.eraseTransfer e = jobs := by simp [eraseTransfer, hurls]
      rw [hsame]
      split
      · rename_i hkey
        simp [stored, hkey, hurls]
      · rfl
  | some urls =>
      cases hfileIds : urls.find? e.surl with
      | none =>
          have hsame : jobs.eraseTransfer e = jobs := by simp [eraseTransfer, hurls, hfileIds]
          rw [hsame]
          split
          · rename_i hkey
            simp [stored, hkey, hurls, hfileIds]
          · rfl
      | some fileIds =>
          have hput : jobs.eraseTransfer e =
              jobs.putUrls e.jobId (putFiles urls e.surl (fileIds.erase e.fileId)) := by
            simp [eraseTransfer, hurls, hfileIds]
          rw [hput, stored_putUrls, find?_putFiles]
          by_cases hj : j = e.jobId
          · subst hj
            by_cases hs : s = e.surl
            · simp [hs, stored, hurls, hfileIds]
            · simp [hs, stored, hurls]
          · simp [hj]

theorem mem_urls {jobs : JobMap} {url : String} : url ∈ jobs.urls ↔ ∃ j, (jobs.stored j url).isSome = true := by
  simp only [urls, List.mem_flatMap, List.mem_map, Prod.exists, exists_and_right, exists_eq_right, StdMap.mem_entries,
    stored]
  constructor
  · rintro ⟨j, urls, hurls, fileIds, hfileIds⟩
    exact ⟨j, by simp [hurls, hfileIds]⟩
  · rintro ⟨j, hsome⟩
    obtain ⟨fileIds, hfileIds⟩ := Option.isSome_iff_exists.mp hsome
    obtain ⟨urls, hurls, hfileIds⟩ := Option.bind_eq_some_iff.mp hfileIds
    exact ⟨j, urls, hurls, fileIds, hfileIds⟩

end stored

end JobMap

/-! ## The contexts -/

/-- A file that `isValidOp` accepts. -/
abbrev ValidEntry := { e : Entry // e.isValidOp = true }

structure ContextMaps where
  jobs : JobMap := .empty
  urlToIDs : List Entry := []

namespace ContextMaps

def add (c : ContextMaps) (e : ValidEntry) : ContextMaps where
  jobs := c.jobs.pushBack e
  urlToIDs := c.urlToIDs ++ [e.1]

def removeUrl (c : ContextMaps) (url : String) : ContextMaps where
  jobs := c.jobs.eraseUrl url
  urlToIDs := c.urlToIDs.filter (·.surl ≠ url)

/-- The `urls` of the source are `remove`; its set `unique` stays empty. -/
def getSurlsToAbort (c : ContextMaps) (remove : List (String × String)) : ContextMaps × List String :=
  let jobs := remove.foldl .erasePair c.jobs
  ({ c with jobs }, (remove.map (·.2)).dedup.filter (· ∉ jobs.urls))

def removeTransfer (c : ContextMaps) (e : Entry) : ContextMaps where
  jobs := c.jobs.eraseTransfer e
  urlToIDs := c.urlToIDs.erase e

/-- The two indexes have the same triples with the same multiplicities, and no entry of `jobs` is empty. -/
structure Consistent (c : ContextMaps) : Prop where
  same : ∀ e, c.jobs.count e = c.urlToIDs.count e
  nonempty : c.jobs.NoEmpty

end ContextMaps

namespace JobMap

variable {jobs : JobMap}

theorem eq_iff_of_pair {e e' : Entry} (h : e'.jobId = e.jobId ∧ e'.surl = e.surl) : e = e' ↔ e.fileId = e'.fileId := by
  obtain ⟨j, s, f⟩ := e
  obtain ⟨j', s', f'⟩ := e'
  simp_all

theorem count_pushBack (e e' : Entry) : (jobs.pushBack e).count e' = jobs.count e' + [e].count e' := by
  unfold count
  rw [stored_pushBack]
  by_cases hkey : e'.jobId = e.jobId ∧ e'.surl = e.surl
  · rw [if_pos hkey, Option.getD_some, List.count_append]
    congr 1
    simp only [List.count_singleton, beq_iff_eq, eq_iff_of_pair hkey]
  · have hne : e ≠ e' := fun heq => hkey (heq ▸ ⟨rfl, rfl⟩)
    rw [if_neg hkey, List.count_singleton, if_neg (by simpa using hne)]
    rfl

theorem count_eraseUrl (url : String) (e : Entry) :
    (jobs.eraseUrl url).count e = if e.surl = url then 0 else jobs.count e := by
  unfold count
  rw [stored_eraseUrl]
  split
  · rfl
  · rfl

theorem count_eraseTransfer (e e' : Entry) : (jobs.eraseTransfer e).count e' = jobs.count e' - [e].count e' := by
  unfold count
  rw [stored_eraseTransfer]
  by_cases hkey : e'.jobId = e.jobId ∧ e'.surl = e.surl
  · have herased : (((jobs.stored e'.jobId e'.surl).map (·.erase e.fileId)).filter (· ≠ [])).getD [] =
        ((jobs.stored e'.jobId e'.surl).getD []).erase e.fileId := by
      cases jobs.stored e'.jobId e'.surl with
      | none => rfl
      | some fileIds => by_cases hempty : fileIds.erase e.fileId = [] <;> simp [Option.filter, hempty]
    rw [if_pos hkey, herased, List.count_erase, List.count_singleton]
    simp only [beq_iff_eq, eq_iff_of_pair hkey]
  · have hne : e ≠ e' := fun heq => hkey (heq ▸ ⟨rfl, rfl⟩)
    rw [if_neg hkey, List.count_singleton, if_neg (by simpa using hne)]
    rfl

theorem stored_erasePairs (remove : List (String × String)) (j s : String) :
    (remove.foldl erasePair jobs).stored j s = if (j, s) ∈ remove then none else jobs.stored j s := by
  induction remove generalizing jobs with
  | nil => simp
  | cons p remove ih =>
      rw [List.foldl_cons, ih, stored_erasePair]
      by_cases hp : (j, s) = p
      · simp [hp]
      · simp [hp]

theorem count_erasePairs (remove : List (String × String)) (e : Entry) :
    (remove.foldl erasePair jobs).count e = if e.pair ∈ remove then 0 else jobs.count e := by
  unfold count
  rw [stored_erasePairs]
  by_cases hremoved : (e.jobId, e.surl) ∈ remove
  · rw [if_pos hremoved, if_pos (show e.pair ∈ remove from hremoved)]
    rfl
  · rw [if_neg hremoved, if_neg (show e.pair ∉ remove from hremoved)]

theorem NoEmpty.pushBack (h : jobs.NoEmpty) (e : Entry) : (jobs.pushBack e).NoEmpty := by
  intro j s
  rw [stored_pushBack]
  split
  · simp
  · exact h j s

theorem NoEmpty.eraseUrl (h : jobs.NoEmpty) (url : String) : (jobs.eraseUrl url).NoEmpty := by
  intro j s
  rw [stored_eraseUrl]
  split
  · simp
  · exact h j s

theorem NoEmpty.eraseTransfer (h : jobs.NoEmpty) (e : Entry) : (jobs.eraseTransfer e).NoEmpty := by
  intro j s
  rw [stored_eraseTransfer]
  split
  · intro hempty
    simpa using (Option.filter_eq_some_iff.mp hempty).2
  · exact h j s

theorem NoEmpty.erasePairs (h : jobs.NoEmpty) (remove : List (String × String)) :
    (remove.foldl erasePair jobs).NoEmpty := by
  intro j s
  rw [stored_erasePairs]
  split
  · simp
  · exact h j s

/-- A URL with an entry has a file. -/
theorem NoEmpty.mem_urls (h : jobs.NoEmpty) {url : String} :
    url ∈ jobs.urls ↔ ∃ e : Entry, e.surl = url ∧ jobs.count e ≠ 0 := by
  rw [JobMap.mem_urls]
  constructor
  · rintro ⟨j, hsome⟩
    obtain ⟨fileIds, hfileIds⟩ := Option.isSome_iff_exists.mp hsome
    cases fileIds with
    | nil => exact absurd hfileIds (h j url)
    | cons f fileIds => exact ⟨⟨j, url, f⟩, rfl, by simp [count, hfileIds]⟩
  · rintro ⟨e, rfl, hcount⟩
    refine ⟨e.jobId, Option.isSome_iff_ne_none.mpr fun hnone => hcount ?_⟩
    simp [count, hnone]

end JobMap

namespace ContextMaps

variable {c : ContextMaps}

theorem Consistent.add (h : c.Consistent) (e : ValidEntry) : (c.add e).Consistent := by
  refine ⟨fun e' => ?_, h.nonempty.pushBack e⟩
  simp only [ContextMaps.add, JobMap.count_pushBack, List.count_append, h.same]

theorem Consistent.removeUrl (h : c.Consistent) (url : String) : (c.removeUrl url).Consistent := by
  refine ⟨fun e => ?_, h.nonempty.eraseUrl url⟩
  simp only [ContextMaps.removeUrl, JobMap.count_eraseUrl]
  by_cases hurl : e.surl = url
  · have hnot : e ∉ c.urlToIDs.filter (·.surl ≠ url) := by simp [hurl]
    rw [if_pos hurl, List.count_eq_zero.mpr hnot]
  · rw [if_neg hurl, List.count_filter (by simpa using hurl), h.same]

theorem Consistent.removeTransfer (h : c.Consistent) (e : Entry) : (c.removeTransfer e).Consistent := by
  refine ⟨fun e' => ?_, h.nonempty.eraseTransfer e⟩
  simp only [ContextMaps.removeTransfer, JobMap.count_eraseTransfer, h.same, List.count_erase, List.count_singleton]

/-- `getSurlsToAbort` leaves what it takes from `jobs` in `urlToIDs`. -/
theorem Consistent.getSurlsToAbort_iff (h : c.Consistent) (remove : List (String × String)) :
    (c.getSurlsToAbort remove).1.Consistent ↔ ∀ e ∈ c.urlToIDs, e.pair ∉ remove := by
  have hcount (e : Entry) : (c.getSurlsToAbort remove).1.jobs.count e =
      if e.pair ∈ remove then 0 else c.urlToIDs.count e := by
    rw [← h.same]
    exact JobMap.count_erasePairs remove e
  constructor
  · intro hafter e he hremoved
    have hzero : 0 = c.urlToIDs.count e := by
      have hsame := hafter.same e
      rwa [hcount, if_pos hremoved] at hsame
    exact absurd (List.count_pos_iff.mpr he) (by simp [← hzero])
  · intro hspared
    refine ⟨fun e => ?_, h.nonempty.erasePairs remove⟩
    rw [hcount]
    split
    · rename_i hremoved
      exact (List.count_eq_zero.mpr fun he => hspared e he hremoved).symm
    · rfl

/-- The URLs of the pairs that no triple which stays in `jobs` uses. -/
theorem mem_getSurlsToAbort (h : c.jobs.NoEmpty) (remove : List (String × String)) (url : String) :
    url ∈ (c.getSurlsToAbort remove).2 ↔ (∃ p ∈ remove, p.2 = url) ∧
      ∀ e : Entry, e.surl = url → (c.getSurlsToAbort remove).1.jobs.count e = 0 := by
  simp only [getSurlsToAbort, List.mem_filter, List.mem_dedup, List.mem_map, decide_eq_true_eq,
    (h.erasePairs remove).mem_urls, not_exists, not_and, not_not]

/-! ## The flat contexts -/

/-- `JobContext` with its triples in lists. -/
structure Flattens (c : ContextMaps) (ctx : JobContext) : Prop where
  jobs : ∀ e, c.jobs.count e = ctx.jobs.count e
  nonempty : c.jobs.NoEmpty
  urlToIDs : c.urlToIDs = ctx.urlToIDs

variable {ctx : JobContext}

theorem Flattens.add (h : Flattens c ctx) (e : ValidEntry) : Flattens (c.add e) (ctx.add e) := by
  rw [JobContext.add, if_pos e.2]
  exact ⟨fun e' => by simp only [ContextMaps.add, JobMap.count_pushBack, h.jobs, List.count_append],
    h.nonempty.pushBack e, by rw [ContextMaps.add, h.urlToIDs]⟩

theorem Flattens.removeUrl (h : Flattens c ctx) (url : String) : Flattens (c.removeUrl url) (ctx.removeUrl url) := by
  refine ⟨fun e => ?_, h.nonempty.eraseUrl url, by rw [ContextMaps.removeUrl, h.urlToIDs, JobContext.removeUrl]⟩
  simp only [ContextMaps.removeUrl, JobContext.removeUrl, JobMap.count_eraseUrl, h.jobs]
  by_cases hurl : e.surl = url
  · have hnot : e ∉ ctx.jobs.filter (·.surl ≠ url) := by simp [hurl]
    rw [if_pos hurl, List.count_eq_zero.mpr hnot]
  · rw [if_neg hurl, List.count_filter (by simpa using hurl)]

theorem Flattens.removeTransfer {a : ArchivingContext} (h : Flattens c a.toJobContext) (e : Entry) :
    Flattens (c.removeTransfer e) (a.removeTransfer e).toJobContext := by
  refine ⟨fun e' => ?_, h.nonempty.eraseTransfer e, by
    rw [ContextMaps.removeTransfer, h.urlToIDs, ArchivingContext.removeTransfer]⟩
  simp only [ContextMaps.removeTransfer, ArchivingContext.removeTransfer, JobMap.count_eraseTransfer, h.jobs,
    List.count_erase, List.count_singleton]

theorem Flattens.mem_urls (h : Flattens c ctx) (url : String) : url ∈ c.jobs.urls ↔ url ∈ ctx.getUrls := by
  rw [h.nonempty.mem_urls, JobContext.mem_getUrls]
  constructor
  · rintro ⟨e, hurl, hcount⟩
    rw [h.jobs] at hcount
    exact ⟨e, List.count_pos_iff.mp (Nat.pos_of_ne_zero hcount), hurl⟩
  · rintro ⟨e, he, hurl⟩
    refine ⟨e, hurl, ?_⟩
    rw [h.jobs]
    exact (List.count_pos_iff.mpr he).ne'

theorem Flattens.getSurlsToAbort (h : Flattens c ctx) (remove : List (String × String)) :
    Flattens (c.getSurlsToAbort remove).1 (ctx.getSurlsToAbort remove).1 ∧
      (c.getSurlsToAbort remove).2 = (ctx.getSurlsToAbort remove).2 := by
  have hafter : Flattens (c.getSurlsToAbort remove).1 (ctx.getSurlsToAbort remove).1 := by
    refine ⟨fun e => ?_, h.nonempty.erasePairs remove, h.urlToIDs⟩
    rw [JobContext.jobs_getSurlsToAbort, ContextMaps.getSurlsToAbort, JobMap.count_erasePairs, h.jobs]
    by_cases hremoved : e.pair ∈ remove
    · have hnot : e ∉ ctx.jobs.filter (·.pair ∉ remove) := by simp [hremoved]
      rw [if_pos hremoved, List.count_eq_zero.mpr hnot]
    · rw [if_neg hremoved, List.count_filter (by simpa using hremoved)]
  refine ⟨hafter, List.filter_congr fun url _ => decide_eq_decide.mpr (not_congr ?_)⟩
  exact (hafter.mem_urls url).trans (by simp [JobContext.getUrls])

end ContextMaps

/-! ## Staging contexts -/

inductive StagingCall
  | add (e : ValidEntry)
  /-- the `add` of `HttpStagingContext`, which takes a URL only once -/
  | addHttp (e : ValidEntry)
  | removeUrl (url : String)
  | getSurlsToAbort (remove : List (String × String))

namespace StagingCall

def step (c : ContextMaps) : StagingCall → ContextMaps
  | add e => c.add e
  | addHttp e => if c.urlToIDs.any (·.surl = e.1.surl) then c else c.add e
  | removeUrl url => c.removeUrl url
  | getSurlsToAbort remove => (c.getSurlsToAbort remove).1

/-- No pair to be aborted is in the context. -/
def Spares (c : ContextMaps) : StagingCall → Prop
  | getSurlsToAbort remove => ∀ e ∈ c.urlToIDs, e.pair ∉ remove
  | _ => True

theorem step_consistent_iff {c : ContextMaps} (h : c.Consistent) (call : StagingCall) :
    (step c call).Consistent ↔ call.Spares c := by
  cases call with
  | add e => exact iff_of_true (h.add e) trivial
  | addHttp e =>
      simp only [step, Spares, iff_true]
      split
      · exact h
      · exact h.add e
  | removeUrl url => exact iff_of_true (h.removeUrl url) trivial
  | getSurlsToAbort remove => exact h.getSurlsToAbort_iff remove

theorem noEmpty_run {c : ContextMaps} (h : c.jobs.NoEmpty) (calls : List StagingCall) :
    (run step c calls).jobs.NoEmpty := by
  induction calls generalizing c with
  | nil => exact h
  | cons call calls ih =>
      refine ih ?_
      cases call with
      | add e => exact h.pushBack e
      | addHttp e =>
          simp only [step]
          split
          · exact h
          · exact h.pushBack e
      | removeUrl url => exact h.eraseUrl url
      | getSurlsToAbort remove => exact h.erasePairs remove

end StagingCall

/-! ## Archiving contexts -/

structure ArchivingMaps extends ContextMaps where
  /-- file ID -> expiry timestamp -/
  expiryMap : StdMap Nat Int := .empty

inductive ArchivingCall
  | add (e : ValidEntry) (startTime timeout : Int)
  | removeUrl (url : String)
  | removeTransfers (transfers : List Entry)
  | removeUrlWithIds (url : String) (ids : List (String × Nat))

namespace ArchivingMaps

def add (c : ArchivingMaps) (e : ValidEntry) (startTime timeout : Int) : ArchivingMaps where
  toContextMaps := c.toContextMaps.add e
  expiryMap := c.expiryMap.insert e.1.fileId (startTime + timeout)

def removeTransfer (c : ArchivingMaps) (e : Entry) : ArchivingMaps where
  toContextMaps := c.toContextMaps.removeTransfer e
  expiryMap := c.expiryMap.erase e.fileId

def removeTransfers (c : ArchivingMaps) (transfers : List Entry) : ArchivingMaps :=
  transfers.foldl removeTransfer c

def removeUrlWithIds (c : ArchivingMaps) (url : String) (ids : List (String × Nat)) : ArchivingMaps where
  toContextMaps := c.toContextMaps.removeUrl url
  expiryMap := ids.foldl (fun m id => m.erase id.2) c.expiryMap

/-- `expiryMap` has exactly the files of the context. -/
structure Consistent (c : ArchivingMaps) : Prop extends c.toContextMaps.Consistent where
  expiry : ∀ f, (c.expiryMap.find? f).isSome = true ↔ ∃ e ∈ c.urlToIDs, e.fileId = f

end ArchivingMaps

namespace ArchivingCall

def step (c : ArchivingMaps) : ArchivingCall → ArchivingMaps
  | add e startTime timeout => c.add e startTime timeout
  | removeUrl url => { c with toContextMaps := c.toContextMaps.removeUrl url }
  | removeTransfers transfers => c.removeTransfers transfers
  | removeUrlWithIds url ids => c.removeUrlWithIds url ids

/-- The files whose expiry the call forgets. -/
def forgotten : ArchivingCall → List Nat
  | add _ _ _ | removeUrl _ => []
  | removeTransfers transfers => transfers.map (·.fileId)
  | removeUrlWithIds _ ids => ids.map (·.2)

/-- What the call leaves of the entries. -/
def kept (entries : List Entry) : ArchivingCall → List Entry
  | add _ _ _ => entries
  | removeUrl url | removeUrlWithIds url _ => entries.filter (·.surl ≠ url)
  | removeTransfers transfers => entries.diff transfers

/-- The files whose expiry is forgotten are those that leave the context. -/
def Forgets (c : ArchivingMaps) (call : ArchivingCall) : Prop :=
  ∀ e ∈ c.urlToIDs, e.fileId ∈ call.forgotten ↔ ∀ e' ∈ call.kept c.urlToIDs, e'.fileId ≠ e.fileId

section step

variable {c : ArchivingMaps}

theorem find?_foldl_erase {α : Type} (key : α → Nat) (xs : List α) (m : StdMap Nat Int) (f : Nat) :
    (xs.foldl (fun m x => m.erase (key x)) m).find? f = if f ∈ xs.map key then none else m.find? f := by
  induction xs generalizing m with
  | nil => simp
  | cons x xs ih =>
      rw [List.foldl_cons, ih, StdMap.find?_erase, List.map_cons]
      by_cases hx : f = key x
      · simp [hx]
      · simp [hx]

theorem removeTransfers_eq (c : ArchivingMaps) (transfers : List Entry) :
    (c.removeTransfers transfers).urlToIDs = c.urlToIDs.diff transfers ∧
    (c.removeTransfers transfers).expiryMap = transfers.foldl (fun m e => m.erase e.fileId) c.expiryMap := by
  rw [List.diff_eq_foldl]
  unfold ArchivingMaps.removeTransfers
  induction transfers generalizing c with
  | nil => exact ⟨rfl, rfl⟩
  | cons e transfers ih => exact ih (c.removeTransfer e)

theorem consistent_removeTransfers (h : c.toContextMaps.Consistent) (transfers : List Entry) :
    (c.removeTransfers transfers).toContextMaps.Consistent := by
  unfold ArchivingMaps.removeTransfers
  induction transfers generalizing c with
  | nil => exact h
  | cons e transfers ih => exact ih (c := c.removeTransfer e) (h.removeTransfer e)

/-- The two indexes stay in agreement at every call. -/
theorem step_contextMaps (h : c.toContextMaps.Consistent) (call : ArchivingCall) :
    (step c call).toContextMaps.Consistent := by
  cases call with
  | add e startTime timeout => exact h.add e
  | removeUrl url => exact h.removeUrl url
  | removeTransfers transfers => exact consistent_removeTransfers h transfers
  | removeUrlWithIds url ids => exact h.removeUrl url

/-- The map without the forgotten files is right exactly if these are the files that have left. -/
theorem expiry_iff {before after : List Entry} {expiryMap expiryMap' : StdMap Nat Int} {forgotten : List Nat}
    (hbefore : ∀ f, (expiryMap.find? f).isSome = true ↔ ∃ e ∈ before, e.fileId = f) (hsub : after ⊆ before)
    (herased : ∀ f, expiryMap'.find? f = if f ∈ forgotten then none else expiryMap.find? f) :
    (∀ f, (expiryMap'.find? f).isSome = true ↔ ∃ e ∈ after, e.fileId = f) ↔
      ∀ e ∈ before, e.fileId ∈ forgotten ↔ ∀ e' ∈ after, e'.fileId ≠ e.fileId := by
  have hfind : ∀ f, (expiryMap'.find? f).isSome = true ↔ f ∉ forgotten ∧ ∃ e ∈ before, e.fileId = f := by
    intro f
    rw [herased, ← hbefore]
    by_cases hf : f ∈ forgotten
    · simp [hf]
    · simp [hf]
  constructor
  · intro hafter e he
    have hiff := (hfind e.fileId).symm.trans (hafter e.fileId)
    constructor
    · intro hforgotten e' he' heq
      exact (hiff.mpr ⟨e', he', heq⟩).1 hforgotten
    · intro hleft
      by_contra hkept
      obtain ⟨e', he', heq⟩ := hiff.mp ⟨hkept, e, he, rfl⟩
      exact hleft e' he' heq
  · intro hforgets f
    rw [hfind]
    constructor
    · rintro ⟨hkept, e, he, rfl⟩
      by_contra hnone
      exact hkept ((hforgets e he).mpr fun e' he' heq => hnone ⟨e', he', heq⟩)
    · rintro ⟨e', he', rfl⟩
      exact ⟨fun hforgotten => (hforgets e' (hsub he')).mp hforgotten e' he' rfl, e', hsub he', rfl⟩

theorem step_consistent_iff (h : c.Consistent) (call : ArchivingCall) :
    (step c call).Consistent ↔ call.Forgets c := by
  have hmaps := step_contextMaps h.toConsistent call
  have hsplit : (step c call).Consistent ↔ ∀ f, ((step c call).expiryMap.find? f).isSome = true ↔
      ∃ e ∈ (step c call).urlToIDs, e.fileId = f :=
    ⟨fun hafter => hafter.expiry, fun hexpiry => ⟨hmaps, hexpiry⟩⟩
  rw [hsplit]
  cases call with
  | add e startTime timeout =>
      refine iff_of_true (fun f => ?_) fun e' he' => ?_
      · simp only [step, ArchivingMaps.add, ContextMaps.add, StdMap.find?_insert, List.mem_append, List.mem_singleton]
        by_cases hf : f = e.1.fileId
        · simp only [hf, if_true, Option.isSome_some, true_iff]
          exact ⟨e.1, .inr rfl, rfl⟩
        · rw [if_neg hf, h.expiry]
          constructor
          · rintro ⟨e', he', rfl⟩
            exact ⟨e', .inl he', rfl⟩
          · rintro ⟨e', he' | rfl, rfl⟩
            · exact ⟨e', he', rfl⟩
            · exact absurd rfl hf
      · exact ⟨fun hforgotten => absurd hforgotten List.not_mem_nil, fun hleft => absurd rfl (hleft e' he')⟩
  | removeUrl url =>
      exact expiry_iff h.expiry (List.filter_subset_self _) fun f => by simp [step, forgotten]
  | removeTransfers transfers =>
      obtain ⟨hurls, hexpiry⟩ := removeTransfers_eq c transfers
      simp only [step, hurls, hexpiry]
      exact expiry_iff h.expiry (List.diff_subset _ _) fun f => find?_foldl_erase _ transfers c.expiryMap f
  | removeUrlWithIds url ids =>
      exact expiry_iff h.expiry (List.filter_subset_self _) fun f => find?_foldl_erase _ ids c.expiryMap f

end step

end ArchivingCall

/-! ## Runs -/

theorem ContextMaps.consistent_empty : ({} : ContextMaps).Consistent :=
  ⟨fun _ => rfl, fun _ _ => by simp [JobMap.stored]⟩

theorem ArchivingMaps.consistent_empty : ({} : ArchivingMaps).Consistent :=
  ⟨ContextMaps.consistent_empty, fun f => by simp⟩

/-- The indexes agree after every call of a run exactly if no call aborts a pair that is in the context and, in an
archiving context, each call forgets the expiry of the files that leave and of no other one. In any case
`getSurlsToAbort` gives the URLs that are no longer used. -/
theorem context_indexes_agree_iff (calls : List StagingCall) (archivingCalls : List ArchivingCall) :
    (Meets StagingCall.step (fun c call => (StagingCall.step c call).Consistent) {} calls ↔
      Meets StagingCall.step (fun c call => call.Spares c) {} calls) ∧
    (Meets ArchivingCall.step (fun c call => (ArchivingCall.step c call).Consistent) {} archivingCalls ↔
      Meets ArchivingCall.step (fun c call => call.Forgets c) {} archivingCalls) ∧
    ∀ (remove : List (String × String)) (url : String),
      url ∈ ((run StagingCall.step {} calls).getSurlsToAbort remove).2 ↔ (∃ p ∈ remove, p.2 = url) ∧
        ∀ e : Entry, e.surl = url → ((run StagingCall.step {} calls).getSurlsToAbort remove).1.jobs.count e = 0 := by
  refine ⟨?_, ?_, fun remove url => ?_⟩
  · exact meets_iff (fun c call h => StagingCall.step_consistent_iff h call)
      (fun c call hspares h => (StagingCall.step_consistent_iff h call).mpr hspares) ContextMaps.consistent_empty
  · exact meets_iff (fun c call h => ArchivingCall.step_consistent_iff h call)
      (fun c call hforgets h => (ArchivingCall.step_consistent_iff h call).mpr hforgets) ArchivingMaps.consistent_empty
  · exact ContextMaps.mem_getSurlsToAbort
      (StagingCall.noEmpty_run ContextMaps.consistent_empty.nonempty calls) remove url

/-- The canceled file of a job stays in `urlToIDs`. -/
theorem getSurlsToAbort_leaves_entry :
    ¬Meets StagingCall.step (fun c call => (StagingCall.step c call).Consistent) {}
      [.add ⟨⟨"j", "root://h/f", 1⟩, by decide⟩, .getSurlsToAbort [("j", "root://h/f")]] := by
  rintro ⟨-, hafter, -⟩
  have hcount := hafter.same ⟨"j", "root://h/f", 1⟩
  simp [StagingCall.step, ContextMaps.getSurlsToAbort, ContextMaps.add, JobMap.count] at hcount

end Fts3.QosDaemon
