import Mathlib.Data.List.Nodup
import Fts3.Machine.Run
import Fts3.QosDaemon.PollTask

/-!
# Each file of a request is given one state

A request is polled by one task after another, each with the context that the one before has left.
-/

namespace Fts3.QosDaemon

open Fts3.Machine

/-- How often the file has been given a state. -/
def given (e : Entry) (reports : List Report) : Nat :=
  reports.countP (·.id = e.id)

theorem given_append (e : Entry) (rs rs' : List Report) : given e (rs ++ rs') = given e rs + given e rs' :=
  List.countP_append

theorem given_eq_count (e : Entry) (reports : List Report) : given e reports = (reports.map (·.id)).count e.id := by
  rw [given, List.count, List.countP_map]
  exact List.countP_congr fun r _ => by simp

/-- The files of a request: no two of them have one id. -/
def Distinct (entries : List Entry) : Prop :=
  (entries.map (·.id)).Nodup

section counting

variable {entries found : List Entry} {e : Entry}

theorem Distinct.eq_of_id {e' : Entry} (h : Distinct entries) (he : e ∈ entries) (he' : e' ∈ entries) (hid : e.id = e'.id) :
    e = e' :=
  List.inj_on_of_nodup_map h he he' hid

/-- In a part of the request a file is found once, or not at all. -/
theorem Distinct.count_id (h : Distinct entries) (hfound : found.Sublist entries) (he : e ∈ entries) :
    (found.map (·.id)).count e.id = if e ∈ found then 1 else 0 := by
  have hnodup : (found.map (·.id)).Nodup := h.sublist (hfound.map _)
  split
  case isTrue hmem => exact List.count_eq_one_of_mem hnodup (List.mem_map_of_mem hmem)
  case isFalse hmem =>
    refine List.count_eq_zero.mpr fun hid => hmem ?_
    obtain ⟨e', he', hid⟩ := List.mem_map.mp hid
    exact h.eq_of_id (hfound.subset he') he hid ▸ he'

/-- The states given URL by URL, to all files of some of the URLs. -/
theorem given_flatMap (h : Distinct entries) {ctx : JobContext} (hids : ctx.urlToIDs.Sublist entries) (he : e ∈ entries)
    {urls : List String} (hurls : urls.Nodup) {f : String → List Report} {p : String → Bool}
    (hf : ∀ url, (f url).map (·.id) = if p url then ctx.getIDs url else []) :
    given e (urls.flatMap f) = if e ∈ ctx.urlToIDs ∧ e.surl ∈ urls ∧ p e.surl = true then 1 else 0 := by
  induction urls with
  | nil => simp [given]
  | cons url urls ih =>
      obtain ⟨hurl, hnodup⟩ := List.nodup_cons.mp hurls
      have hone : given e (f url) = if e ∈ ctx.urlToIDs ∧ e.surl = url ∧ p e.surl = true then 1 else 0 := by
        rw [given_eq_count, hf]
        cases hp : p url with
        | false =>
            have : ¬(e.surl = url ∧ p e.surl = true) := by
              rintro ⟨rfl, hp'⟩
              simp [hp] at hp'
            simp [this]
        | true =>
            rw [if_pos rfl, JobContext.getIDs, h.count_id (List.filter_sublist.trans hids) he]
            by_cases hsurl : e.surl = url
            · subst hsurl
              simp [hp]
            · simp [hsurl]
      rw [List.flatMap_cons, given_append, hone, ih hnodup]
      by_cases hsurl : e.surl = url
      · subst hsurl
        simp [hurl]
      · simp [hsurl]

end counting

/-! ## The loop -/

section loop

variable (outcome : Nat → Option GError → Outcome) (errors : String → Option GError)

/-- What is decided about the URL, with the communication errors counted so far. -/
def decision (ctx : JobContext) (url : String) : Outcome :=
  outcome (ctx.errorCount url) (errors url)

theorem jobs_afterPoll (ctx : JobContext) (url : String) (error : Option GError) (removes : Bool) :
    (ctx.afterPoll url error removes).jobs = ctx.jobs.filter fun e => !(e.surl = url && removes) := by
  unfold JobContext.afterPoll
  cases removes <;> split <;> simp [JobContext.removeUrl, JobContext.incrementErrorCountForSurl]

theorem urlToIDs_afterPoll (ctx : JobContext) (url : String) (error : Option GError) (removes : Bool) :
    (ctx.afterPoll url error removes).urlToIDs = ctx.urlToIDs.filter fun e => !(e.surl = url && removes) := by
  unfold JobContext.afterPoll
  cases removes <;> split <;> simp [JobContext.removeUrl, JobContext.incrementErrorCountForSurl]

theorem errorCount_afterPoll (ctx : JobContext) {url other : String} (h : other ≠ url) (error : Option GError)
    (removes : Bool) : (ctx.afterPoll url error removes).errorCount other = ctx.errorCount other := by
  unfold JobContext.afterPoll
  cases removes <;> split <;> simp [JobContext.removeUrl, JobContext.incrementErrorCountForSurl, h]

theorem getIDs_afterPoll (ctx : JobContext) {url other : String} (h : other ≠ url) (error : Option GError)
    (removes : Bool) : (ctx.afterPoll url error removes).getIDs other = ctx.getIDs other := by
  rw [JobContext.getIDs, urlToIDs_afterPoll, List.filter_filter]
  refine congrArg _ (List.filter_congr fun e _ => ?_)
  by_cases hsurl : e.surl = other
  · simp [hsurl, h]
  · simp [hsurl]

/-- What a loop over these URLs makes of what it finds. -/
structure Looped (urls : List String) (p q : Polling) : Prop where
  crashed : q.crashed = false
  reports : q.reports = p.reports ++
    urls.flatMap fun url => (decision outcome errors p.ctx url).reports (p.ctx.getIDs url)
  jobs : q.ctx.jobs = p.ctx.jobs.filter fun e => !(e.surl ∈ urls && (decision outcome errors p.ctx e.surl).removes)
  urlToIDs : q.ctx.urlToIDs =
    p.ctx.urlToIDs.filter fun e => !(e.surl ∈ urls && (decision outcome errors p.ctx e.surl).removes)
  forcePoll : q.forcePoll = (p.forcePoll || urls.any fun url => decision outcome errors p.ctx url = .soft)

theorem pollUrl_eq {p : Polling} (hp : p.crashed = false) (url : String) :
    pollUrl outcome errors p url =
      { ctx := p.ctx.afterPoll url (errors url) (decision outcome errors p.ctx url).removes
        reports := p.reports ++ (decision outcome errors p.ctx url).reports (p.ctx.getIDs url)
        removed := if (decision outcome errors p.ctx url).removes then p.removed ++ [url] else p.removed
        failedUrls := if (decision outcome errors p.ctx url).isFailed then p.failedUrls ++ [url] else p.failedUrls
        forcePoll := p.forcePoll || decision outcome errors p.ctx url = .soft
        crashed := decision outcome errors p.ctx url = .crash } := by
  rw [pollUrl, hp]
  rfl

theorem filter_turn (ctx : JobContext) (url : String) (urls : List String) (entries : List Entry) :
    ((entries.filter fun e => !(e.surl = url && (decision outcome errors ctx url).removes)).filter fun e =>
      !(e.surl ∈ urls && (decision outcome errors ctx e.surl).removes)) =
        entries.filter fun e => !(e.surl ∈ url :: urls && (decision outcome errors ctx e.surl).removes) := by
  rw [List.filter_filter]
  refine List.filter_congr fun e _ => ?_
  by_cases hsurl : e.surl = url
  · subst hsurl
    cases (decision outcome errors ctx e.surl).removes <;> simp
  · simp [hsurl]

theorem looped (urls : List String) (hurls : urls.Nodup) {p : Polling} (hp : p.crashed = false)
    (h : ∀ url ∈ urls, decision outcome errors p.ctx url ≠ .crash) :
    Looped outcome errors urls p (urls.foldl (pollUrl outcome errors) p) := by
  induction urls generalizing p with
  | nil => exact ⟨hp, by simp, by simp, by simp, by simp⟩
  | cons url urls ih =>
      obtain ⟨hurl, hnodup⟩ := List.nodup_cons.mp hurls
      have hturn := pollUrl_eq outcome errors hp url
      -- the other URLs find what they would have found before this turn
      have hother : ∀ other ∈ urls, decision outcome errors (pollUrl outcome errors p url).ctx other =
          decision outcome errors p.ctx other ∧
            (pollUrl outcome errors p url).ctx.getIDs other = p.ctx.getIDs other := by
        intro other hmem
        have hne : other ≠ url := fun heq => hurl (heq ▸ hmem)
        rw [hturn]
        exact ⟨by simp only [decision, errorCount_afterPoll _ hne], getIDs_afterPoll _ hne _ _⟩
      have hrest := ih hnodup (p := pollUrl outcome errors p url)
        (by rw [hturn]; simpa using h url List.mem_cons_self)
        (fun other hmem => by rw [(hother other hmem).1]; exact h other (List.mem_cons_of_mem url hmem))
      have hfilter : ∀ entries : List Entry, (entries.filter fun e =>
          !(e.surl ∈ urls && (decision outcome errors (pollUrl outcome errors p url).ctx e.surl).removes)) =
            entries.filter fun e => !(e.surl ∈ urls && (decision outcome errors p.ctx e.surl).removes) := by
        intro entries
        refine List.filter_congr fun e _ => ?_
        by_cases hmem : e.surl ∈ urls
        · rw [(hother e.surl hmem).1]
        · simp [hmem]
      constructor
      case crashed => exact hrest.crashed
      case reports =>
        rw [List.foldl_cons, hrest.reports, List.flatMap_cons, ← List.append_assoc]
        congr 1
        · rw [hturn]
        · refine List.flatMap_congr fun other hmem => ?_
          rw [(hother other hmem).1, (hother other hmem).2]
      case jobs =>
        rw [List.foldl_cons, hrest.jobs, hfilter, hturn, jobs_afterPoll]
        exact filter_turn outcome errors p.ctx url urls p.ctx.jobs
      case urlToIDs =>
        rw [List.foldl_cons, hrest.urlToIDs, hfilter, hturn, urlToIDs_afterPoll]
        exact filter_turn outcome errors p.ctx url urls p.ctx.urlToIDs
      case forcePoll =>
        rw [List.foldl_cons, hrest.forcePoll, List.any_cons, ← Bool.or_assoc]
        congr 1
        · rw [hturn]
        · rw [Bool.eq_iff_iff, List.any_eq_true, List.any_eq_true]
          refine exists_congr fun other => and_congr_right fun hmem => ?_
          rw [(hother other hmem).1]

end loop

/-! ## The states given so far -/

/-- Between two tasks: the files still in the context have no state, and the others have one or are canceled. -/
structure Ledger (entries : List Entry) (ctx : JobContext) (canceled : List (String × String)) (reports : List Report) :
    Prop where
  jobs : ctx.jobs.Sublist entries
  urlToIDs : ctx.urlToIDs.Sublist entries
  subset : ctx.jobs ⊆ ctx.urlToIDs
  once : ∀ e ∈ entries, given e reports ≤ 1
  waiting : ∀ e ∈ ctx.urlToIDs, e.surl ∈ ctx.getUrls → given e reports = 0
  settled : ∀ e ∈ entries, e ∉ ctx.jobs → given e reports = 1 ∨ e.pair ∈ canceled

/-- At the end of the request: each file has at most one state, and one unless it is canceled. -/
def Closed (entries : List Entry) (canceled : List (String × String)) (reports : List Report) : Prop :=
  ∀ e ∈ entries, given e reports ≤ 1 ∧ (given e reports = 1 ∨ e.pair ∈ canceled)

def Outcome.givesState : Outcome → Bool
  | finished _ | failed _ _ => true
  | pending | soft | crash => false

theorem Outcome.id_reports (o : Outcome) (ids : List (String × Nat)) :
    (o.reports ids).map (·.id) = if o.givesState then ids else [] := by
  cases o <;> simp [reports, givesState, Function.comp_def]

section ledger

variable {entries : List Entry} {ctx : JobContext} {canceled : List (String × String)} {reports : List Report}

theorem Ledger.closed_of_jobs (h : Ledger entries ctx canceled reports) (hjobs : ctx.jobs = []) :
    Closed entries canceled reports := by
  intro e he
  exact ⟨h.once e he, h.settled e he (by simp [hjobs])⟩

/-- States given to all files of some URLs that are polled, or that were. -/
theorem Ledger.given_le (h : Ledger entries ctx canceled reports) {e : Entry} (he : e ∈ entries) {p : Prop} [Decidable p]
    (hp : p → e ∈ ctx.urlToIDs ∧ e.surl ∈ ctx.getUrls) : given e reports + (if p then 1 else 0) ≤ 1 := by
  split
  case isTrue hp' =>
    obtain ⟨hids, hurl⟩ := hp hp'
    rw [h.waiting e hids hurl]
  case isFalse => exact h.once e he

theorem Ledger.settled_add (h : Ledger entries ctx canceled reports) {e : Entry} (he : e ∈ entries) (hjobs : e ∉ ctx.jobs)
    {p : Prop} [Decidable p] (hp : p → e ∈ ctx.urlToIDs ∧ e.surl ∈ ctx.getUrls) :
    given e reports + (if p then 1 else 0) = 1 ∨ e.pair ∈ canceled := by
  rcases h.settled e he hjobs with hone | hcanceled
  · left
    have hle := h.given_le he hp
    omega
  · exact .inr hcanceled

/-- The pairs that are canceled leave the context; where they cannot be aborted, their files are given a state. -/
theorem Ledger.cancel (hentries : Distinct entries) (h : Ledger entries ctx canceled reports)
    {remove : List (String × String)} (hremove : remove ⊆ ctx.getSurls) (given' : List Report)
    (hgiven : given' = [] ∨
      ∃ errors, given' = abortReports (ctx.getSurlsToAbort remove).1 (ctx.getSurlsToAbort remove).2 errors) :
    Ledger entries (ctx.getSurlsToAbort remove).1 (canceled ++ remove) (reports ++ given') := by
  -- a URL that is aborted was in the context, and is not any more
  have haborted : ∀ url ∈ (ctx.getSurlsToAbort remove).2,
      url ∈ ctx.getUrls ∧ url ∉ (ctx.getSurlsToAbort remove).1.getUrls := by
    intro url hurl
    obtain ⟨⟨p, hp, rfl⟩, hnot⟩ := JobContext.mem_getSurlsToAbort.mp hurl
    obtain ⟨e, he, rfl⟩ := JobContext.mem_getSurls.mp (hremove hp)
    exact ⟨JobContext.mem_getUrls.mpr ⟨e, he, rfl⟩, hnot⟩
  have hadd : ∀ e ∈ entries, ∃ b : Bool, given e given' = (if b then 1 else 0) ∧
      (b = true → e ∈ ctx.urlToIDs ∧ e.surl ∈ ctx.getUrls ∧ e.surl ∉ (ctx.getSurlsToAbort remove).1.getUrls) := by
    intro e he
    rcases hgiven with rfl | ⟨errors, rfl⟩
    · exact ⟨false, rfl, by simp⟩
    · rw [abortReports, given_flatMap hentries h.urlToIDs he (ctx.nodup_getSurlsToAbort remove) (p := fun _ => true)
        (fun url => by simp [Function.comp_def, JobContext.getIDs])]
      refine ⟨decide (e ∈ ctx.urlToIDs ∧ e.surl ∈ (ctx.getSurlsToAbort remove).2), by simp, fun hb => ?_⟩
      obtain ⟨hmem, hurl⟩ := of_decide_eq_true hb
      exact ⟨hmem, haborted e.surl hurl⟩
  constructor
  case jobs => exact List.filter_sublist.trans h.jobs
  case urlToIDs => exact h.urlToIDs
  case subset => exact List.Subset.trans (List.filter_subset_self _) h.subset
  case once =>
    intro e he
    obtain ⟨b, hb, hpolled⟩ := hadd e he
    rw [given_append, hb]
    exact h.given_le he fun hb' => ⟨(hpolled hb').1, (hpolled hb').2.1⟩
  case waiting =>
    intro e he hurl
    obtain ⟨b, hb, hpolled⟩ := hadd e (h.urlToIDs.subset he)
    have hbefore : e.surl ∈ ctx.getUrls := by
      obtain ⟨e', he', hsurl⟩ := JobContext.mem_getUrls.mp hurl
      exact JobContext.mem_getUrls.mpr ⟨e', List.mem_of_mem_filter he', hsurl⟩
    rw [given_append, hb, h.waiting e he hbefore]
    cases b with
    | false => rfl
    | true => exact absurd hurl (hpolled rfl).2.2
  case settled =>
    intro e he hnot
    rw [given_append]
    by_cases hbefore : e ∈ ctx.jobs
    · right
      rw [JobContext.jobs_getSurlsToAbort, List.mem_filter, not_and, decide_eq_true_eq, not_not] at hnot
      exact List.mem_append_right _ (hnot hbefore)
    · obtain ⟨b, hb, hpolled⟩ := hadd e he
      rw [hb]
      refine (h.settled_add he hbefore fun hb' => ⟨(hpolled hb').1, (hpolled hb').2.1⟩).imp id fun hcanceled => ?_
      exact List.mem_append_left _ hcanceled

section poll

variable {outcome : Nat → Option GError → Outcome} {errors : String → Option GError}

theorem Outcome.givesState_of_removes {o : Outcome} (h : o.removes = true) : o.givesState = true := by
  cases o <;> first | rfl | exact h

theorem looped_pollUrls (hcrash : ∀ url ∈ ctx.getUrls, decision outcome errors ctx url ≠ .crash) :
    Looped outcome errors ctx.getUrls { ctx } (pollUrls outcome errors ctx) :=
  looped outcome errors ctx.getUrls ctx.nodup_getUrls rfl hcrash

theorem Ledger.given_poll (hentries : Distinct entries) (h : Ledger entries ctx canceled reports)
    (hcrash : ∀ url ∈ ctx.getUrls, decision outcome errors ctx url ≠ .crash) {e : Entry} (he : e ∈ entries) :
    given e (pollUrls outcome errors ctx).reports =
      if e ∈ ctx.urlToIDs ∧ e.surl ∈ ctx.getUrls ∧ (decision outcome errors ctx e.surl).givesState = true then 1 else 0 := by
  rw [(looped_pollUrls hcrash).reports, List.nil_append]
  exact given_flatMap hentries h.urlToIDs he ctx.nodup_getUrls
    (p := fun url => (decision outcome errors ctx url).givesState) fun url => Outcome.id_reports _ _

/-- A poll after which each URL that was given states is gone. -/
theorem Ledger.poll (hentries : Distinct entries) (h : Ledger entries ctx canceled reports)
    (hcrash : ∀ url ∈ ctx.getUrls, decision outcome errors ctx url ≠ .crash)
    (hgone : ∀ url ∈ ctx.getUrls, (decision outcome errors ctx url).givesState = true →
      (decision outcome errors ctx url).removes = true) :
    Ledger entries (pollUrls outcome errors ctx).ctx canceled (reports ++ (pollUrls outcome errors ctx).reports) := by
  have hlooped := looped_pollUrls hcrash
  have hpolled := fun {e : Entry} => h.given_poll (e := e) hentries hcrash
  constructor
  case jobs =>
    rw [hlooped.jobs]
    exact List.filter_sublist.trans h.jobs
  case urlToIDs =>
    rw [hlooped.urlToIDs]
    exact List.filter_sublist.trans h.urlToIDs
  case subset =>
    intro e he
    rw [hlooped.jobs, List.mem_filter] at he
    rw [hlooped.urlToIDs, List.mem_filter]
    exact ⟨h.subset he.1, he.2⟩
  case once =>
    intro e he
    rw [given_append, hpolled he]
    exact h.given_le he fun hp => ⟨hp.1, hp.2.1⟩
  case waiting =>
    intro e he hurl
    rw [hlooped.urlToIDs, List.mem_filter] at he
    obtain ⟨hids, hstays⟩ := he
    have hbefore : e.surl ∈ ctx.getUrls := by
      obtain ⟨e', he', hsurl⟩ := JobContext.mem_getUrls.mp hurl
      rw [hlooped.jobs] at he'
      exact JobContext.mem_getUrls.mpr ⟨e', List.mem_of_mem_filter he', hsurl⟩
    have hremoves : (decision outcome errors ctx e.surl).removes = false := by
      simpa [-JobContext.mem_getUrls, hbefore] using hstays
    have hno : (decision outcome errors ctx e.surl).givesState ≠ true := by
      intro hgives
      simp [hgone e.surl hbefore hgives] at hremoves
    rw [given_append, hpolled (h.urlToIDs.subset hids), h.waiting e hids hbefore, if_neg fun hp => hno hp.2.2]
  case settled =>
    intro e he hnot
    rw [given_append, hpolled he]
    by_cases hbefore : e ∈ ctx.jobs
    · left
      have hurl : e.surl ∈ ctx.getUrls := JobContext.mem_getUrls.mpr ⟨e, hbefore, rfl⟩
      have hremoves : (decision outcome errors ctx e.surl).removes = true := by
        rw [hlooped.jobs, List.mem_filter] at hnot
        simpa [-JobContext.mem_getUrls, hbefore, hurl] using hnot
      rw [h.waiting e (h.subset hbefore) hurl,
        if_pos ⟨h.subset hbefore, hurl, Outcome.givesState_of_removes hremoves⟩]
    · exact h.settled_add he hbefore fun hp => ⟨hp.1, hp.2.1⟩

/-- A poll that gives states to all URLs ends the request. -/
theorem Ledger.close (hentries : Distinct entries) (h : Ledger entries ctx canceled reports)
    (hall : ∀ url ∈ ctx.getUrls, (decision outcome errors ctx url).givesState = true) :
    Closed entries canceled (reports ++ (pollUrls outcome errors ctx).reports) := by
  have hcrash : ∀ url ∈ ctx.getUrls, decision outcome errors ctx url ≠ .crash := by
    intro url hurl hcrash
    simpa [hcrash, Outcome.givesState] using hall url hurl
  intro e he
  rw [given_append, h.given_poll hentries hcrash he]
  refine ⟨h.given_le he fun hp => ⟨hp.1, hp.2.1⟩, ?_⟩
  by_cases hjobs : e ∈ ctx.jobs
  · left
    have hurl : e.surl ∈ ctx.getUrls := JobContext.mem_getUrls.mpr ⟨e, hjobs, rfl⟩
    rw [h.waiting e (h.subset hjobs) hurl, if_pos ⟨h.subset hjobs, hurl, hall e.surl hurl⟩]
  · exact h.settled_add he hjobs fun hp => ⟨hp.1, hp.2.1⟩

end poll

/-- All files of the context fail. -/
theorem Ledger.fail (hentries : Distinct entries) (h : Ledger entries ctx canceled reports) (error : Option JobError) :
    Closed entries canceled
      (reports ++ ctx.jobs.map fun e => { id := e.id, state := .failed, error }) := by
  intro e he
  have hadd : given e (ctx.jobs.map fun e => { id := e.id, state := .failed, error }) = if e ∈ ctx.jobs then 1 else 0 := by
    rw [given_eq_count, List.map_map]
    exact hentries.count_id h.jobs he
  rw [given_append, hadd]
  by_cases hjobs : e ∈ ctx.jobs
  · have hzero := h.waiting e (h.subset hjobs) (JobContext.mem_getUrls.mpr ⟨e, hjobs, rfl⟩)
    simp [hjobs, hzero]
  · simpa [hjobs] using ⟨h.once e he, h.settled e he hjobs⟩

end ledger

/-! ## Staging requests -/

/-- A request, with the states given and the pairs canceled since it was made; `scheduled` while a task is to poll it. -/
structure Request (γ : Type) where
  ctx : γ
  reports : List Report := []
  canceled : List (String × String) := []
  scheduled : Bool := true

/-- What holds of a request whose files were these at first. -/
def Request.Sound {γ : Type} (base : γ → JobContext) (entries : List Entry) (r : Request γ) : Prop :=
  if r.scheduled then Ledger entries (base r.ctx) r.canceled r.reports else Closed entries r.canceled r.reports

/-- No file has two states, and when no task is scheduled each one that is not canceled has one. -/
def Request.EachOnce {γ : Type} (entries : List Entry) (r : Request γ) : Prop :=
  (∀ e ∈ entries, given e r.reports ≤ 1) ∧
    (r.scheduled = false → ∀ e ∈ entries, e.pair ∉ r.canceled → given e r.reports = 1)

theorem Request.Sound.eachOnce {γ : Type} {base : γ → JobContext} {entries : List Entry} {r : Request γ}
    (h : r.Sound base entries) : r.EachOnce entries := by
  unfold Sound at h
  split at h
  case isTrue hscheduled => exact ⟨h.once, fun hnot => absurd hscheduled (by simp [hnot])⟩
  case isFalse => exact ⟨fun e he => (h e he).1, fun _ e he hpair => (h e he).2.resolve_right hpair⟩

/-- The pairs that a run of a staging task finds canceled. -/
def PollInput.canceled (i : PollInput) (ctx : StagingContext) : List (String × String) :=
  if ctx.hasTimeoutExpired i.now then [] else ctx.getSurls.filter (· ∉ i.activeUrls)

/-- The URLs that it polls. -/
def PollInput.polled (i : PollInput) (ctx : StagingContext) : List String :=
  (ctx.getSurlsToAbort (ctx.getSurls.filter (· ∉ i.activeUrls))).1.getUrls

/-- A task of the request is run. -/
def Request.poll (task : PollInput → StagingContext → Turn StagingContext) (r : Request StagingContext) (i : PollInput) :
    Request StagingContext :=
  if r.scheduled then
    { ctx := (task i r.ctx).ctx
      reports := r.reports ++ (task i r.ctx).reports
      canceled := r.canceled ++ i.canceled r.ctx
      scheduled := (task i r.ctx).successor }
  else r

/-- As gfal2 documents it: a positive status means that no file is pending. -/
def PollInput.Documented (i : PollInput) : Prop :=
  0 < i.poll.status → ∀ url, ∀ e ∈ i.poll.errors url, e.code ≠ EAGAIN

/-- A failed poll has a communication error that is tried again for all URLs or for none. -/
def PollInput.Uniform (i : PollInput) (ctx : StagingContext) : Prop :=
  i.poll.status < 0 →
    (∀ url ∈ i.polled ctx, isSoft i.maxPollRetries (ctx.errorCount url) (i.poll.errors url) = true) ∨
      ∀ url ∈ i.polled ctx, isSoft i.maxPollRetries (ctx.errorCount url) (i.poll.errors url) = false

/-- What the two kinds of staging tasks have in common: only a failed poll leaves a URL with states in the context. -/
structure Outcome.Fits (maxPollRetries status : Int) (tries : Nat) (error : Option GError) (o : Outcome) : Prop where
  crash : o ≠ .crash
  removes : 0 ≤ status → o.givesState = true → o.removes = true
  soft : o = .soft → isSoft maxPollRetries tries error = true
  failed : status < 0 → isSoft maxPollRetries tries error = true → o = .soft
  pending : o = .pending → 0 ≤ status ∧ ∃ e, error = some e ∧ e.code = EAGAIN

namespace Outcome.Fits

variable {maxPollRetries status : Int} {tries : Nat} {error : Option GError} {o : Outcome}

theorem ofSoft (h : isSoft maxPollRetries tries error = true) : Fits maxPollRetries status tries error .soft :=
  ⟨by simp, by simp [givesState], fun _ => h, fun _ _ => rfl, by simp⟩

theorem ofFailed (hstatus : status < 0) (h : ¬isSoft maxPollRetries tries error = true) (ho : o.givesState = true) :
    Fits maxPollRetries status tries error o := by
  refine ⟨?_, fun hle => absurd hle (Int.not_le.mpr hstatus), ?_, fun _ hsoft => absurd hsoft h, ?_⟩
  all_goals
    rintro rfl
    simp [givesState] at ho

theorem ofRemoves (hstatus : ¬status < 0) (ho : o.removes = true) : Fits maxPollRetries status tries error o := by
  refine ⟨?_, fun _ _ => ho, ?_, fun hlt => absurd hlt hstatus, ?_⟩
  all_goals
    rintro rfl
    simp [Outcome.removes] at ho

theorem ofPending {e : GError} (hstatus : ¬status < 0) (he : e.code = EAGAIN) :
    Fits maxPollRetries status tries (some e) .pending :=
  ⟨by simp, by simp [givesState], by simp, fun hlt => absurd hlt hstatus, fun _ => ⟨Int.not_lt.mp hstatus, e, rfl, he⟩⟩

end Outcome.Fits

theorem PollTask.outcome_fits (maxPollRetries status : Int) (tries : Nat) (error : Option GError) :
    (outcome maxPollRetries status tries error).Fits maxPollRetries status tries error := by
  unfold outcome
  split
  case isTrue hstatus =>
    split
    case isTrue hsoft => exact .ofSoft hsoft
    case isFalse hsoft => exact .ofFailed hstatus hsoft rfl
  case isFalse hstatus =>
    cases error with
    | none => exact .ofRemoves hstatus rfl
    | some e =>
        dsimp only
        split
        case isTrue he => exact .ofPending hstatus he
        case isFalse =>
          split
          case isTrue hsoft => exact .ofSoft hsoft
          case isFalse => exact .ofRemoves hstatus rfl

theorem HttpPollTask.outcome_fits (maxPollRetries status : Int) (tries : Nat) (error : Option GError) :
    (outcome maxPollRetries status tries error).Fits maxPollRetries status tries error := by
  unfold outcome
  split
  case isTrue hstatus =>
    split
    case isTrue hsoft => exact .ofSoft hsoft
    case isFalse hsoft =>
      cases error with
      | none => exact .ofFailed hstatus hsoft rfl
      | some e =>
          dsimp only
          split
          case isTrue => exact .ofFailed hstatus hsoft rfl
          case isFalse => exact .ofFailed hstatus hsoft rfl
  case isFalse hstatus =>
    cases error with
    | none => exact .ofRemoves hstatus rfl
    | some e =>
        dsimp only
        split
        case isTrue he => exact .ofPending hstatus he
        case isFalse =>
          split
          case isTrue hsoft => exact .ofSoft hsoft
          case isFalse => split <;> exact .ofRemoves hstatus rfl

section staging

variable {abortFails : Int → Bool} {outcome : Int → Int → Nat → Option GError → Outcome} {entries : List Entry}

/-- The poll of a staging task, after the cancellations: it keeps the ledger where there is a successor, and closes it
where there is none. -/
theorem Ledger.pollStaging (hfits : ∀ m s n error, (outcome m s n error).Fits m s n error) (hentries : Distinct entries)
    {ctx : JobContext} {canceled : List (String × String)} {reports : List Report} {maxPollRetries : Int} {answer : Answer}
    (hdocumented : 0 < answer.status → ∀ url, ∀ e ∈ answer.errors url, e.code ≠ EAGAIN)
    (huniform : answer.status < 0 →
      (∀ url ∈ ctx.getUrls, isSoft maxPollRetries (ctx.errorCount url) (answer.errors url) = true) ∨
        ∀ url ∈ ctx.getUrls, isSoft maxPollRetries (ctx.errorCount url) (answer.errors url) = false)
    (h : Ledger entries ctx canceled reports) {p : Polling}
    (hp : p = pollUrls (outcome maxPollRetries answer.status) answer.errors ctx) :
    if (answer.status = 0 || p.forcePoll) = true then Ledger entries p.ctx canceled (reports ++ p.reports)
    else Closed entries canceled (reports ++ p.reports) := by
  subst hp
  have hfits' : ∀ url, (decision (outcome maxPollRetries answer.status) answer.errors ctx url).Fits maxPollRetries
      answer.status (ctx.errorCount url) (answer.errors url) := fun url => hfits _ _ _ _
  have hlooped : Looped (outcome maxPollRetries answer.status) answer.errors ctx.getUrls { ctx } _ :=
    looped_pollUrls fun url _ => (hfits' url).crash
  have hforce := hlooped.forcePoll
  rw [Bool.false_or] at hforce
  split
  case isTrue hsuccessor =>
    refine h.poll hentries (fun url _ => (hfits' url).crash) fun url hurl hgives => ?_
    rcases Int.lt_or_le answer.status 0 with hneg | hle
    · -- another task is scheduled for a communication error, so that all URLs have one
      have hsome : ∃ url ∈ ctx.getUrls, decision (outcome maxPollRetries answer.status) answer.errors ctx url = .soft := by
        rw [hforce] at hsuccessor
        simpa [-JobContext.mem_getUrls, Int.ne_of_lt hneg] using hsuccessor
      obtain ⟨other, hother, hsoft⟩ := hsome
      rcases huniform hneg with hall | hnone
      · rw [(hfits' url).failed hneg (hall url hurl)] at hgives
        simp [Outcome.givesState] at hgives
      · have := (hfits' other).soft hsoft
        simp [hnone other hother] at this
    · exact (hfits' url).removes hle hgives
  case isFalse hlast =>
    rw [Bool.or_eq_true, not_or, hforce] at hlast
    obtain ⟨hstatus, hsoft⟩ := hlast
    refine h.close hentries fun url hurl => ?_
    have hnotSoft : decision (outcome maxPollRetries answer.status) answer.errors ctx url ≠ .soft := by
      intro hs
      exact hsoft (List.any_eq_true.mpr ⟨url, hurl, by simpa using hs⟩)
    have hnotPending : decision (outcome maxPollRetries answer.status) answer.errors ctx url ≠ .pending := by
      intro hpending
      obtain ⟨hle, e, he, hcode⟩ := (hfits' url).pending hpending
      have hne : answer.status ≠ 0 := by simpa using hstatus
      have hpos : 0 < answer.status := by omega
      exact hdocumented hpos url e he hcode
    cases hdecision : decision (outcome maxPollRetries answer.status) answer.errors ctx url with
    | finished removes => rfl
    | failed error removes => rfl
    | pending => exact absurd hdecision hnotPending
    | soft => exact absurd hdecision hnotSoft
    | crash => exact absurd hdecision (hfits' url).crash

/-- One run of a staging task keeps the ledger or closes it. -/
theorem Request.Sound.poll (hfits : ∀ m s n error, (outcome m s n error).Fits m s n error) (hentries : Distinct entries)
    {r : Request StagingContext} {i : PollInput} (hi : r.scheduled = true → i.Documented ∧ i.Uniform r.ctx)
    (h : r.Sound StagingContext.toJobContext entries) :
    (r.poll (runStaging abortFails outcome) i).Sound StagingContext.toJobContext entries := by
  unfold Request.poll
  split
  case isFalse => exact h
  case isTrue hscheduled =>
    obtain ⟨hdocumented, huniform⟩ := hi hscheduled
    rw [Sound, if_pos hscheduled] at h
    cases hexpired : r.ctx.hasTimeoutExpired i.now with
    | true =>
        simp only [runStaging, PollInput.canceled, hexpired, if_true, Sound, Bool.false_eq_true, if_false, List.append_nil]
        exact h.fail hentries _
    | false =>
        have hkept := h.cancel hentries (List.filter_subset_self _)
          (if abortFails i.abort.status then
            abortReports (r.ctx.getSurlsToAbort (r.ctx.getSurls.filter (· ∉ i.activeUrls))).1
              (r.ctx.getSurlsToAbort (r.ctx.getSurls.filter (· ∉ i.activeUrls))).2 i.abort.errors else [])
          (by split; exact .inr ⟨_, rfl⟩; exact .inl rfl)
        simp only [runStaging, PollInput.canceled, hexpired, Bool.false_eq_true, if_false]
        split
        case isTrue hempty =>
          simp only [Sound, Bool.false_eq_true, if_false]
          refine hkept.closed_of_jobs (List.eq_nil_iff_forall_not_mem.mpr fun e he => ?_)
          have hurl := JobContext.mem_getUrls.mpr ⟨e, he, rfl⟩
          rw [hempty] at hurl
          exact List.not_mem_nil hurl
        case isFalse =>
          have hpoll := hkept.pollStaging hfits hentries hdocumented huniform rfl
          simpa only [Sound, List.append_assoc] using hpoll

end staging

/-! ## Archiving requests -/

namespace ArchivingPollTask

/-- The URLs that a run of the task polls. -/
def Input.polled (i : Input) (ctx : ArchivingContext) : List String :=
  (handleTimeouts i.now ctx).1.getUrls

/-- What is not a failure of the URL. -/
def Input.harmless (i : Input) (ctx : ArchivingContext) (url : String) : Bool :=
  isSoft i.maxPollRetries (ctx.errorCount url) (i.poll.errors url) ||
    (i.poll.errors url).all fun e => e.code = EAGAIN && i.poll.status = 0

/-- A poll after which another one is scheduled has no failures, and a failed one has an error for each URL. -/
def Input.Harmless (i : Input) (ctx : ArchivingContext) : Prop :=
  ((i.poll.status = 0 ∨ ∃ url ∈ i.polled ctx, isSoft i.maxPollRetries (ctx.errorCount url) (i.poll.errors url) = true) →
      ∀ url ∈ i.polled ctx, i.harmless ctx url = true) ∧
    (i.poll.status < 0 → ∀ url ∈ i.polled ctx, (i.poll.errors url).isSome)

variable {entries : List Entry} {ctx : ArchivingContext} {reports : List Report} {now : Int}

theorem foldl_removeTransfer (timeouts : List Entry) (ctx : ArchivingContext) :
    (timeouts.foldl .removeTransfer ctx).jobs = ctx.jobs.diff timeouts ∧
      (timeouts.foldl .removeTransfer ctx).urlToIDs = ctx.urlToIDs.diff timeouts ∧
        (timeouts.foldl .removeTransfer ctx).errorCount = ctx.errorCount := by
  induction timeouts generalizing ctx with
  | nil => exact ⟨rfl, rfl, rfl⟩
  | cons e timeouts ih => simpa [List.diff_cons, ArchivingContext.removeTransfer] using ih (ctx.removeTransfer e)

theorem diff_filter {entries : List Entry} (hnodup : entries.Nodup) (p : Entry → Bool) :
    entries.diff (entries.filter p) = entries.filter fun e => !p e := by
  refine (List.Nodup.sdiff_eq_filter hnodup).trans (List.filter_congr fun e he => ?_)
  cases hp : p e <;> simp [he, hp]

/-- The files that have timed out leave the context. -/
theorem handleTimeouts_eq (now : Int) (hnodup : ctx.urlToIDs.Nodup) (hsame : ctx.jobs = ctx.urlToIDs) :
    (handleTimeouts now ctx).1.jobs = ctx.jobs.filter (fun e => !ctx.hasTransferTimedOut now e.fileId) ∧
      (handleTimeouts now ctx).1.urlToIDs = ctx.jobs.filter (fun e => !ctx.hasTransferTimedOut now e.fileId) ∧
        (handleTimeouts now ctx).1.errorCount = ctx.errorCount := by
  obtain ⟨hjobs, hids, herrors⟩ := foldl_removeTransfer
    (ctx.urlToIDs.filter fun e => ctx.hasTransferTimedOut now e.fileId) ctx
  refine ⟨?_, ?_, herrors⟩
  · rw [handleTimeouts, hjobs, hsame]
    exact diff_filter hnodup _
  · rw [handleTimeouts, hids, hsame]
    exact diff_filter hnodup _

/-- And they are given a state. -/
theorem handleTimeouts_ledger (now : Int) (hentries : Distinct entries) (hsame : ctx.jobs = ctx.urlToIDs)
    (h : Ledger entries ctx.toJobContext [] reports) :
    Ledger entries (handleTimeouts now ctx).1.toJobContext [] (reports ++ (handleTimeouts now ctx).2) := by
  have hnodup : ctx.urlToIDs.Nodup := List.Nodup.of_map _ (hentries.sublist (h.urlToIDs.map _))
  obtain ⟨hjobs, hids, -⟩ := handleTimeouts_eq now hnodup hsame
  have hadd : ∀ e ∈ entries, given e (handleTimeouts now ctx).2 =
      if e ∈ ctx.jobs.filter (fun e => ctx.hasTransferTimedOut now e.fileId) then 1 else 0 := by
    intro e he
    rw [handleTimeouts, given_eq_count, List.map_map, ← hsame]
    exact hentries.count_id (List.filter_sublist.trans h.jobs) he
  have hpolled : ∀ {e}, e ∈ ctx.jobs → e ∈ ctx.urlToIDs ∧ e.surl ∈ ctx.getUrls := fun he =>
    ⟨h.subset he, JobContext.mem_getUrls.mpr ⟨_, he, rfl⟩⟩
  constructor
  case jobs => rw [hjobs]; exact List.filter_sublist.trans h.jobs
  case urlToIDs => rw [hids]; exact List.filter_sublist.trans h.jobs
  case subset => rw [hjobs, hids]; exact List.Subset.refl _
  case once =>
    intro e he
    rw [given_append, hadd e he]
    exact h.given_le he fun hmem => hpolled (List.mem_of_mem_filter hmem)
  case waiting =>
    intro e he _
    rw [hids, List.mem_filter] at he
    rw [given_append, hadd e (h.jobs.subset he.1), h.waiting e (hpolled he.1).1 (hpolled he.1).2]
    simpa using fun _ => by simpa using he.2
  case settled =>
    intro e he hnot
    rw [given_append, hadd e he]
    by_cases hbefore : e ∈ ctx.jobs
    · left
      rw [hjobs, List.mem_filter, not_and] at hnot
      rw [h.waiting e (hpolled hbefore).1 (hpolled hbefore).2, if_pos]
      exact List.mem_filter.mpr ⟨hbefore, by simpa using hnot hbefore⟩
    · exact h.settled_add he hbefore fun hmem => hpolled (List.mem_of_mem_filter hmem)

/-! ### The poll -/

variable {maxPollRetries status : Int} {tries : Nat} {error : Option GError}

theorem isSoft_of_outcome (h : outcome maxPollRetries status tries error = .soft) :
    isSoft maxPollRetries tries error = true := by
  unfold outcome at h
  cases error with
  | none => dsimp only at h; split at h <;> cases h
  | some e =>
      dsimp only at h
      split at h
      case isTrue hsoft => exact hsoft
      case isFalse => split at h <;> cases h

theorem outcome_ne_crash (h : status < 0 → error.isSome) : outcome maxPollRetries status tries error ≠ .crash := by
  unfold outcome
  cases error with
  | none =>
      have hle : 0 ≤ status := Int.not_lt.mp fun hlt => by simpa using h hlt
      simp [hle]
  | some e =>
      dsimp only
      split
      · simp
      · split <;> simp

theorem status_of_pending (h : outcome maxPollRetries status tries error = .pending) : status = 0 := by
  unfold outcome at h
  cases error with
  | none => dsimp only at h; split at h <;> cases h
  | some e =>
      dsimp only at h
      split at h
      case isTrue => cases h
      case isFalse =>
        split at h
        case isTrue he => exact he.2
        case isFalse => cases h

/-- What is no failure leaves the context when it is given a state. -/
theorem removes_of_harmless (h : (isSoft maxPollRetries tries error ||
      error.all fun e => e.code = EAGAIN && status = 0) = true)
    (hgives : (outcome maxPollRetries status tries error).givesState = true) :
    (outcome maxPollRetries status tries error).removes = true := by
  unfold outcome at hgives ⊢
  cases error with
  | none =>
      dsimp only at hgives ⊢
      split
      case isTrue => rfl
      case isFalse hlt => simp [hlt, Outcome.givesState] at hgives
  | some e =>
      dsimp only at hgives ⊢
      split at hgives
      case isTrue => simp [Outcome.givesState] at hgives
      case isFalse hsoft =>
        split at hgives
        case isTrue => simp [Outcome.givesState] at hgives
        case isFalse hagain => simp [hsoft] at h; exact absurd h hagain

end ArchivingPollTask

open ArchivingPollTask in
/-- A task of the request is run. -/
def Request.archive (r : Request ArchivingContext) (i : Input) : Request ArchivingContext :=
  if r.scheduled then
    { ctx := (run i r.ctx).ctx
      reports := r.reports ++ (run i r.ctx).reports
      canceled := r.canceled
      scheduled := (run i r.ctx).successor }
  else r

section archiving

open ArchivingPollTask

variable {entries : List Entry}

/-- The poll of an archiving task, after the timeouts. -/
theorem Ledger.pollArchiving (hentries : Distinct entries) {ctx : JobContext} {canceled : List (String × String)}
    {reports : List Report} (maxPollRetries : Int) (answer : Answer)
    (hharmless : (answer.status = 0 ∨
        ∃ url ∈ ctx.getUrls, isSoft maxPollRetries (ctx.errorCount url) (answer.errors url) = true) →
      ∀ url ∈ ctx.getUrls, (isSoft maxPollRetries (ctx.errorCount url) (answer.errors url) ||
        (answer.errors url).all fun e => e.code = EAGAIN && answer.status = 0) = true)
    (herrors : answer.status < 0 → ∀ url ∈ ctx.getUrls, (answer.errors url).isSome)
    (h : Ledger entries ctx canceled reports) {p : Polling}
    (hp : p = pollUrls (outcome maxPollRetries answer.status) answer.errors ctx) :
    p.crashed = false ∧
      if (answer.status = 0 || p.forcePoll) = true then Ledger entries p.ctx canceled (reports ++ p.reports)
      else Closed entries canceled (reports ++ p.reports) := by
  subst hp
  have hcrash : ∀ url ∈ ctx.getUrls, decision (outcome maxPollRetries answer.status) answer.errors ctx url ≠ .crash :=
    fun url hurl => outcome_ne_crash fun hlt => herrors hlt url hurl
  have hlooped := looped_pollUrls hcrash
  have hforce := hlooped.forcePoll
  rw [Bool.false_or] at hforce
  refine ⟨hlooped.crashed, ?_⟩
  split
  case isTrue hsuccessor =>
    refine h.poll hentries hcrash fun url hurl hgives => ?_
    refine removes_of_harmless (hharmless ?_ url hurl) hgives
    rw [Bool.or_eq_true, decide_eq_true_eq, hforce, List.any_eq_true] at hsuccessor
    refine hsuccessor.imp id fun hsoft => ?_
    obtain ⟨other, hother, hsoft⟩ := hsoft
    exact ⟨other, hother, isSoft_of_outcome (of_decide_eq_true hsoft)⟩
  case isFalse hlast =>
    rw [Bool.or_eq_true, not_or, hforce] at hlast
    obtain ⟨hstatus, hsoft⟩ := hlast
    refine h.close hentries fun url hurl => ?_
    cases hdecision : decision (outcome maxPollRetries answer.status) answer.errors ctx url with
    | finished removes => rfl
    | failed error removes => rfl
    | pending => exact absurd (status_of_pending hdecision) (by simpa using hstatus)
    | soft => exact absurd (List.any_eq_true.mpr ⟨url, hurl, by simpa using hdecision⟩) hsoft
    | crash => exact absurd hdecision (hcrash url hurl)

/-- What holds of an archiving request: none of its files is canceled, and both parts of its context are the same. -/
structure Request.Archived (entries : List Entry) (r : Request ArchivingContext) : Prop where
  sound : r.Sound ArchivingContext.toJobContext entries
  same : r.scheduled = true → r.ctx.jobs = r.ctx.urlToIDs
  canceled : r.canceled = []

theorem Request.Archived.archive (hentries : Distinct entries) {r : Request ArchivingContext}
    {i : Input} (hi : r.scheduled = true → i.Harmless r.ctx) (h : r.Archived entries) : (r.archive i).Archived entries := by
  unfold Request.archive
  split
  case isFalse => exact h
  case isTrue hscheduled =>
    obtain ⟨hharmless, herrors⟩ := hi hscheduled
    obtain ⟨hsound, hsame, hcanceled⟩ := h
    rw [Sound, if_pos hscheduled, hcanceled] at hsound
    have hnodup : r.ctx.urlToIDs.Nodup := List.Nodup.of_map _ (hentries.sublist (hsound.urlToIDs.map _))
    obtain ⟨hjobs, hids, hcount⟩ := handleTimeouts_eq i.now hnodup (hsame hscheduled)
    have hledger := handleTimeouts_ledger i.now hentries (hsame hscheduled) hsound
    unfold ArchivingPollTask.run
    dsimp only
    split
    case isTrue hempty =>
      refine ⟨?_, fun hfalse => absurd hfalse (by simp), hcanceled⟩
      rw [Sound, if_neg (by simp), hcanceled]
      refine hledger.closed_of_jobs (List.eq_nil_iff_forall_not_mem.mpr fun e he => ?_)
      have hurl := JobContext.mem_getUrls.mpr ⟨e, he, rfl⟩
      rw [hempty] at hurl
      exact List.not_mem_nil hurl
    case isFalse =>
      obtain ⟨hcrashed, hpoll⟩ := hledger.pollArchiving hentries i.maxPollRetries i.poll
        (by rw [hcount]; exact hharmless) herrors rfl
      have hlooped : Looped (outcome i.maxPollRetries i.poll.status) i.poll.errors _
          { ctx := (handleTimeouts i.now r.ctx).1.toJobContext } _ :=
        looped_pollUrls fun url hurl => outcome_ne_crash fun hlt => herrors hlt url hurl
      refine ⟨?_, fun _ => ?_, hcanceled⟩
      · simpa only [Sound, hcrashed, hcanceled, Bool.not_false, Bool.true_and, List.append_assoc] using hpoll
      · rw [hlooped.jobs, hlooped.urlToIDs]
        rw [hjobs, hids]

end archiving

/-! ## The life of a request -/

/-- A context of files from the database, each of them once. -/
def Fresh (ctx : JobContext) : Prop :=
  ctx.jobs = ctx.urlToIDs ∧ Distinct ctx.jobs

instance (ctx : JobContext) : Decidable (Fresh ctx) :=
  inferInstanceAs (Decidable (_ ∧ List.Nodup _))

theorem Fresh.ledger {ctx : JobContext} (h : Fresh ctx) : Ledger ctx.jobs ctx [] [] where
  jobs := List.Sublist.refl _
  urlToIDs := h.1 ▸ List.Sublist.refl _
  subset := h.1 ▸ List.Subset.refl _
  once := by simp [given]
  waiting := by simp [given]
  settled := fun e he hnot => absurd he hnot

theorem each_once_of_fits {abortFails : Int → Bool} {outcome : Int → Int → Nat → Option GError → Outcome}
    (hfits : ∀ m s n error, (outcome m s n error).Fits m s n error) {ctx : StagingContext} {is : List PollInput}
    (hctx : Fresh ctx.toJobContext) (his : Meets (Request.poll (runStaging abortFails outcome))
      (fun r i => r.scheduled = true → i.Documented ∧ i.Uniform r.ctx) { ctx } is) :
    (run (Request.poll (runStaging abortFails outcome)) { ctx } is).EachOnce ctx.jobs :=
  (his.invariant (I := Request.Sound StagingContext.toJobContext ctx.jobs) (fun _ _ hi hr => hr.poll hfits hctx.2 hi)
    hctx.ledger).eachOnce

/-- Whatever the storage answers to one poll after the other: a file has at most one state, and has one when nothing is
scheduled any more, where no failed poll of a staging request has communication errors that are tried again for some URLs
only, and no poll of an archiving request that is followed by another one has failures. -/
theorem polling_gives_one_state (ctx : StagingContext) (is : List PollInput) (hctx : Fresh ctx.toJobContext)
    (archived : ArchivingContext) (inputs : List ArchivingPollTask.Input) (harchived : Fresh archived.toJobContext) :
    (Meets (Request.poll PollTask.run) (fun r i => r.scheduled = true → i.Documented ∧ i.Uniform r.ctx) { ctx } is →
      (run (Request.poll PollTask.run) { ctx } is).EachOnce ctx.jobs) ∧
      (Meets (Request.poll HttpPollTask.run) (fun r i => r.scheduled = true → i.Documented ∧ i.Uniform r.ctx) { ctx } is →
        (run (Request.poll HttpPollTask.run) { ctx } is).EachOnce ctx.jobs) ∧
        (Meets Request.archive (fun r i => r.scheduled = true → i.Harmless r.ctx) { ctx := archived } inputs →
          (run Request.archive { ctx := archived } inputs).EachOnce archived.jobs) := by
  refine ⟨each_once_of_fits PollTask.outcome_fits hctx, each_once_of_fits HttpPollTask.outcome_fits hctx, fun his => ?_⟩
  have hsound := his.invariant (I := Request.Archived archived.jobs) (fun _ _ hi hr => hr.archive harchived.2 hi)
    ⟨harchived.ledger, fun _ => harchived.1, rfl⟩
  exact hsound.sound.eachOnce

/-- Two files of a job, at two URLs. -/
def pollEntries : List Entry :=
  [⟨"job", "srm://se/a", 1⟩, ⟨"job", "srm://se/b", 2⟩]

def pollContext : StagingContext :=
  { jobs := pollEntries, urlToIDs := pollEntries, maxBringonlineTimeout := 3600, minStagingStartTime := 0 }

def archiveContext : ArchivingContext :=
  { jobs := pollEntries, urlToIDs := pollEntries, expiryMap := fun _ => some 3600 }

/-- A poll with these errors for the two URLs. -/
def pollInput (status : Int) (a b : Option GError) : PollInput :=
  { now := 60, maxPollRetries := 3, activeUrls := pollEntries.map (·.pair), abort := ⟨0, fun _ => none⟩,
    poll := ⟨status, fun url => if url = "srm://se/a" then a else b⟩ }

/-- The first file is staged, and the second one after a communication error; and both are archived at once. -/
theorem polling_gives_one_state_retried :
    (run (Request.poll PollTask.run) { ctx := pollContext }
      [pollInput 0 none (some ⟨ECOMM, "timeout"⟩), pollInput 1 none none]).EachOnce pollEntries ∧
      (run Request.archive { ctx := archiveContext } [⟨60, 3, (pollInput 1 none none).poll⟩]).EachOnce pollEntries := by
  have hrun := polling_gives_one_state pollContext
    [pollInput 0 none (some ⟨ECOMM, "timeout"⟩), pollInput 1 none none] (by decide) archiveContext
    [⟨60, 3, (pollInput 1 none none).poll⟩] (by decide)
  refine ⟨hrun.1 ⟨fun _ => ⟨?_, ?_⟩, fun _ => ⟨?_, ?_⟩, trivial⟩, hrun.2.2 ⟨fun _ => ⟨?_, ?_⟩, trivial⟩⟩
  all_goals simp [PollInput.Documented, PollInput.Uniform, pollInput, isSoft]

/-- Two failed polls with a communication error for the first URL; the second one fails twice. And two polls of an archiving
request while the first URL is pending. -/
theorem polling_gives_two_states :
    ¬ (run (Request.poll PollTask.run) { ctx := pollContext }
        [pollInput (-1) (some ⟨ECOMM, "timeout"⟩) (some ⟨5, "lost"⟩),
          pollInput (-1) (some ⟨ECOMM, "timeout"⟩) (some ⟨5, "lost"⟩)]).EachOnce pollEntries ∧
      ¬ (run Request.archive { ctx := archiveContext }
        [⟨60, 3, (pollInput 0 (some ⟨EAGAIN, "ongoing"⟩) (some ⟨5, "lost"⟩)).poll⟩,
          ⟨120, 3, (pollInput 0 (some ⟨EAGAIN, "ongoing"⟩) (some ⟨5, "lost"⟩)).poll⟩]).EachOnce pollEntries := by
  constructor
  · rintro ⟨honce, -⟩
    exact absurd (honce ⟨"job", "srm://se/b", 2⟩ (by decide)) (by decide)
  · rintro ⟨honce, -⟩
    exact absurd (honce ⟨"job", "srm://se/b", 2⟩ (by decide)) (by decide)

end Fts3.QosDaemon
