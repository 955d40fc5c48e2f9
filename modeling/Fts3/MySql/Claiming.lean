import Fts3.MySql.Lemmas.Writes

/-!
# Claiming a transfer

An executor claims a file with `updateTransferStatus(job, file, 0, "READY", ...)`: the state of the file is
read, refused or not, and stored with a compare-and-set on what was read.
-/

namespace Fts3.MySql

open Fts3.Sql

/-! ## The compare-and-set -/

def Step.statusUpdate? (e : Step) : Option StatusUpdate :=
  match e.act with
  | .update (.file (.updateFileTransferStatus u)) => some u
  | _ => none

theorem Step.act_of_statusUpdate? {e : Step} {u : StatusUpdate} (h : e.statusUpdate? = some u) :
    e.act = .update (.file (.updateFileTransferStatus u)) := by
  unfold statusUpdate? at h
  split at h
  · cases h; assumption
  · cases h

theorem Step.matched_iff {e : Step} {u : StatusUpdate} (he : e.Executes Stmt.exec)
    (hu : e.statusUpdate? = some u) :
    e.matched ≠ 0 ↔ ∃ st, e.pre.fileState? u.fileId = some st ∧ u.oldState = some st := by
  have hm : e.matched = e.pre.files.matched (FileUpdate.updateFileTransferStatus u).selects := by
    rw [Event.Executes, act_of_statusUpdate? hu] at he
    exact he.1
  rw [hm, ← Nat.pos_iff_ne_zero, Table.matched_pos]
  simp only [FileUpdate.selects, Bool.and_eq_true, decide_eq_true_eq, Db.fileState?, Option.map_eq_some_iff]
  constructor
  · rintro ⟨r, hr, hid, hst⟩
    exact ⟨r.fileState, ⟨r, Table.find?_eq_some_iff.mpr ⟨hr, hid⟩, rfl⟩, hst.symm⟩
  · rintro ⟨st, ⟨r, hr, rfl⟩, hold⟩
    obtain ⟨hmem, hid⟩ := Table.find?_eq_some_iff.mp hr
    exact ⟨r, hmem, hid, hold.symm⟩

theorem Step.post_fileState? {e : Step} {u : StatusUpdate} (he : e.Executes Stmt.exec)
    (hu : e.statusUpdate? = some u) (hm : e.matched ≠ 0) : e.post.fileState? u.fileId = some u.newState := by
  obtain ⟨st, hpre, hold⟩ := (matched_iff he hu).mp hm
  have hpost : e.post = ((Stmt.file (.updateFileTransferStatus u)).exec e.pre).2 := by
    rw [Event.Executes, act_of_statusUpdate? hu] at he
    exact he.2
  obtain ⟨r, hr, rfl⟩ : ∃ r, e.pre.files.find? u.fileId = some r ∧ r.fileState = st := by
    simpa [Db.fileState?] using hpre
  have hid : r.fileId = u.fileId := Table.find?_some hr
  simp [hpost, Db.fileState?, Stmt.exec, Table.find?_update, hr, FileUpdate.selects, hid, hold,
    FileUpdate.sets, StatusUpdate.sets]

/-! ## Legality -/

/-- A file enters `READY` from `SUBMITTED` or `FORCE_START`, or stays there when its process id is stored;
it enters `ACTIVE` from `READY` or `SUBMITTED`. -/
def legalTransition (processId : Int) : Option FileState → Option FileState → Bool
  | some st, some .ready => st = .submitted || st = .forceStart || (st = .ready && processId ≠ 0)
  | some st, some .active => st = .ready || st = .submitted
  | _, _ => true

/-- What an update that matches does to its file is legal. -/
def Step.legalClaim (e : Step) : Bool :=
  e.statusUpdate?.all fun u => e.matched = 0 ||
    legalTransition u.processId (e.pre.fileState? u.fileId) (e.post.fileState? u.fileId)

/-- The states in which a file is neither waiting for an executor nor at the end nor with one. -/
def elsewhere : List FileState :=
  [.staging, .started, .archiving, .notUsed, .onHold, .onHoldStaging, .tokenPrep, .qosTransition,
    .qosRequestSubmitted]

/-- The states from which a file should not enter the given one, as far as `updateTransferStatus` does not
refuse them. -/
def unclaimable : FileState → List FileState
  | .ready => elsewhere
  | .active => .forceStart :: elsewhere
  | _ => []

/-- The step is an update to `READY` or `ACTIVE` whose call has read an unclaimable state, and the file is
still in it. -/
def Step.findsUnclaimable (e : Step) : Bool :=
  e.statusUpdate?.any fun u => e.pre.fileState? u.fileId = u.oldState &&
    u.oldState.any fun st => st ∈ unclaimable u.newState

theorem legalTransition_iff {u : StatusUpdate} (hi : u.Issued) {st : FileState} (hold : u.oldState = some st) :
    legalTransition u.processId (some st) (some u.newState) = true ↔ st ∉ unclaimable u.newState := by
  obtain ⟨href, hnew⟩ := hi
  rw [hold] at href
  rcases hnew with hnew | ⟨-, hnew⟩
  · rw [← hnew] at href
    clear hold hnew
    generalize u.newState = new at href ⊢
    cases new with
    | ready => cases st <;> simp_all [refused, legalTransition, unclaimable, elsewhere]
    | active => cases st <;> simp_all [refused, legalTransition, unclaimable, elsewhere]
    | _ => simp [legalTransition, unclaimable]
  · simp [hnew, legalTransition, unclaimable]

theorem Step.legalClaim_iff {e : Step} (he : e.Executes Stmt.exec) (hi : ∀ u, e.act = .update u → u.Issued) :
    e.legalClaim = true ↔ e.findsUnclaimable = false := by
  unfold legalClaim findsUnclaimable
  cases hu : e.statusUpdate? with
  | none => simp
  | some u =>
      simp only [Option.all_some, Option.any_some]
      by_cases hm : e.matched = 0
      · have hno : ¬∃ st, e.pre.fileState? u.fileId = some st ∧ u.oldState = some st :=
          fun h => (matched_iff he hu).mpr h hm
        cases hold : u.oldState with
        | none => simp [hm]
        | some st =>
            have : e.pre.fileState? u.fileId ≠ some st := fun hpre => hno ⟨st, hpre, hold⟩
            simp [hm, this]
      · obtain ⟨st, hpre, hold⟩ := (matched_iff he hu).mp hm
        have := legalTransition_iff (hi _ (act_of_statusUpdate? hu)) hold
        simp [hm, post_fileState? he hu hm, hpre, hold, this]

/-- In every run, the transitions to `READY` and `ACTIVE` are legal exactly when no update to them finds an
unclaimable file. -/
theorem legal_claims (db : Db) (calls : List Call) (schedule : List Nat) :
    (∀ e ∈ System.steps db calls schedule, Step.legalClaim e = true) ↔
      ∀ e ∈ System.steps db calls schedule, Step.findsUnclaimable e = false := by
  refine forall₂_congr fun e he => ?_
  obtain ⟨hexec, hissued⟩ := steps_spec he
  exact Step.legalClaim_iff hexec hissued

def replicaDb : Db where
  files := .ofRows [{ fileId := 1, jobId := "j", fileState := .finished, fileIndex := some 0 },
    { fileId := 2, jobId := "j", fileState := .submitted, fileIndex := some 0 }]
  jobs := .ofRows [{ jobId := "j", jobState := .active, jobType := some .multipleReplica }]

/-- The sanity check takes the queued replica back, and then the executor that had fetched it claims it. -/
def claimedAfterSanityCheck : List Call :=
  [.checkSanityState { hostname := "a" },
    .updateTransferStatus { hostname := "b" } { jobId := "j", fileId := 2, newFileState := .ready }]

theorem illegal_claim_claimedAfterSanityCheck :
    ¬∀ e ∈ System.steps replicaDb claimedAfterSanityCheck (List.replicate 6 0 ++ List.replicate 5 1),
      Step.legalClaim e = true := by
  decide

/-! ## Mutual exclusion -/

def Call.claims (f : Nat) : Call → Bool
  | .updateTransferStatus _ a =>
      a.jobId ≠ "" && a.fileId ≠ 0 && a.fileId = f && a.processId = 0 && a.newFileState = .ready
  | _ => false

def StatusUpdate.claims (f : Nat) (u : StatusUpdate) : Bool :=
  u.fileId = f && u.processId = 0 && u.newState = .ready

def Step.claims (f : Nat) (e : Step) : Bool := e.statusUpdate?.any (·.claims f)

def Step.claimed (f : Nat) (e : Step) : Bool := e.claims f && e.matched ≠ 0

def Db.queued (db : Db) (f : Nat) : Bool :=
  db.fileState? f = some .submitted || db.fileState? f = some .forceStart

/-- With this step the file `f` enters `SUBMITTED` or `FORCE_START`. -/
def Step.entersQueue (f : Nat) (e : Step) : Bool := !e.pre.queued f && e.post.queued f

/-- The calls that claim `f` and have returned `true` have each claimed it in a step of their own, and at
most one step claims it in a part of the run in which it does not enter the queue. -/
def AtMostOneClaim (f : Nat) (db : Db) (calls : List Call) (schedule : List Nat) : Prop :=
  (∀ i c, calls[i]? = some c → c.claims f = true →
    (System.after db calls schedule).result? i = some (.updated true) →
    ∃ e ∈ System.steps db calls schedule, e.caller = i ∧ Step.claimed f e = true) ∧
  ∀ es₁ es₂ es₃, System.steps db calls schedule = es₁ ++ es₂ ++ es₃ →
    (∀ e ∈ es₂, Step.entersQueue f e = false) → (es₂.filter (Step.claimed f)).length ≤ 1

def Stmt.Claims (f : Nat) (s : Stmt) (n : Nat) : Prop :=
  ∃ u : StatusUpdate, s = .file (.updateFileTransferStatus u) ∧ u.claims f = true ∧ n ≠ 0

theorem updateFileState_unless {node : Node} {a : TransferStatus} {j : String} {f : Nat}
    (hpid : a.processId = 0) (hst : a.newFileState = .ready) :
    (updateFileState node a j f).Unless (Stmt.Claims f) (·.1 = false) := by
  simp only [updateFileState, Proc.bind_eq, select_bind, Proc.unless_select, Proc.unless_ite]
  refine fun db db₁ => ⟨fun _ => rfl, fun _ => ⟨fun hf => by simp [hst] at hf, fun _ n => ?_⟩⟩
  by_cases hn : n = 0
  · right
    simp [hn]
  · left
    exact ⟨_, rfl, by simp [StatusUpdate.claims, hpid, hst], hn⟩

theorem Call.claims_unless {f : Nat} {c : Call} (hc : c.claims f = true) :
    c.prog.Unless (Stmt.Claims f) (· ≠ .updated true) := by
  cases c with
  | updateTransferStatus node a =>
      simp only [claims, Bool.and_eq_true, decide_eq_true_eq] at hc
      obtain ⟨⟨⟨⟨hj, hf⟩, rfl⟩, hpid⟩, hst⟩ := hc
      have hfile : fileToUpdate a = pure (a.jobId, a.fileId) := by simp [fileToUpdate, hj, hf]
      refine Proc.Unless.bind (Φ := (·.1 = false)) ?_ fun r hr => by simp [hr]
      simp only [updateFileTransferStatusInternal, hfile, Proc.pure_eq, Proc.bind_eq, Proc.ret_bind, beginTx_bind,
        Proc.unless_tx]
      exact updateFileState_unless hpid hst
  | _ => simp [claims] at hc

theorem Step.claimed_queued {f : Nat} {e : Step} (he : e.Executes Stmt.exec)
    (hi : ∀ u, e.act = .update u → u.Issued) (hc : e.claimed f = true) (hf : e.findsUnclaimable = false) :
    e.pre.queued f = true ∧ e.post.queued f = false := by
  simp only [claimed, claims, Bool.and_eq_true, Option.any_eq_true, decide_eq_true_eq] at hc
  obtain ⟨⟨u, hu, huf⟩, hm⟩ := hc
  simp only [StatusUpdate.claims, Bool.and_eq_true, decide_eq_true_eq] at huf
  obtain ⟨⟨rfl, hpid⟩, hnew⟩ := huf
  obtain ⟨st, hpre, -⟩ := (matched_iff he hu).mp hm
  have hpost : e.post.fileState? u.fileId = some .ready := hnew ▸ post_fileState? he hu hm
  have hlegal := (legalClaim_iff he hi).mpr hf
  simp only [legalClaim, hu, Option.all_some, hm, decide_false, Bool.false_or, hpre, hpost, hpid,
    legalTransition] at hlegal
  constructor
  · simpa [Db.queued, hpre] using hlegal
  · simp [Db.queued, hpost]

/-- A run in which no claim finds its file in an unclaimable state has at most one claim for each time the
file enters the queue. -/
theorem at_most_one_claim (f : Nat) (db : Db) (calls : List Call) (schedule : List Nat)
    (h : ∀ e ∈ System.steps db calls schedule, Step.claims f e = true → Step.findsUnclaimable e = false) :
    AtMostOneClaim f db calls schedule := by
  refine ⟨?_, ?_⟩
  · intro i c hi hc hret
    by_contra hno
    have hstart : ∃ th, (System.init db calls).threads[i]? = some th ∧
        th.proc.Unless (Stmt.Claims f) (· ≠ .updated true) :=
      ⟨⟨c.prog, db⟩, by simp [System.init, Pool.start, hi], c.claims_unless hc⟩
    refine Pool.unless_result schedule hstart (fun e he hcaller s hs hclaim => ?_) hret rfl
    obtain ⟨u, rfl, hu, hm⟩ := hclaim
    refine hno ⟨e, he, hcaller, ?_⟩
    simp [Step.claimed, Step.claims, Step.statusUpdate?, hs, hu, hm]
  · intro es₁ es₂ es₃ hes henter
    have hmem : ∀ e ∈ es₂, e ∈ System.steps db calls schedule := by
      intro e he
      rw [hes]
      simp [he]
    have hchain : Event.Chained db (System.steps db calls schedule) :=
      Pool.trace_chained (System.init db calls) schedule
    rw [hes] at hchain
    obtain ⟨s, hchain₂⟩ := hchain.of_append.1.of_append.2
    refine hchain₂.filter_length_le_one (R := fun db => db.queued f = true) (fun e he hpost => ?_) fun e he hc => ?_
    · simpa [Step.entersQueue, hpost] using henter e he
    · obtain ⟨hexec, hissued⟩ := steps_spec (hmem e he)
      have hclaims : Step.claims f e = true := by
        simp only [Step.claimed, Bool.and_eq_true] at hc
        exact hc.1
      have := Step.claimed_queued hexec hissued hc (h e (hmem e he) hclaims)
      simpa using this

def queuedDb : Db where
  files := .ofRows [{ fileId := 1, jobId := "j", fileState := .submitted, fileIndex := some 0 }]
  jobs := .ofRows [{ jobId := "j", jobState := .submitted, jobType := some .regular, bringOnline := 100 }]

/-- Two nodes claim the transfer; in between it fails with a timeout and is staged again. -/
def claimedTwice : List Call :=
  [.updateTransferStatus { hostname := "a" } { jobId := "j", fileId := 1, newFileState := .ready },
    .setRetryTransfer { hostname := "a" } "j" 1 1 "" "" true,
    .updateTransferStatus { hostname := "b" } { jobId := "j", fileId := 1, newFileState := .ready }]

theorem at_most_one_claim_at_once :
    AtMostOneClaim 1 queuedDb claimedTwice [0, 2, 0, 2, 0, 2, 0, 2, 0, 2] ∧
      (System.after queuedDb claimedTwice [0, 2, 0, 2, 0, 2, 0, 2, 0, 2]).store.fileState? 1 = some .ready :=
  ⟨at_most_one_claim 1 queuedDb claimedTwice _ (by decide), by decide⟩

theorem not_at_most_one_claim_claimedTwice :
    (System.after queuedDb claimedTwice
      (List.replicate 5 0 ++ List.replicate 6 1 ++ List.replicate 5 2)).result? 0 = some (.updated true) ∧
    (System.after queuedDb claimedTwice
      (List.replicate 5 0 ++ List.replicate 6 1 ++ List.replicate 5 2)).result? 2 = some (.updated true) ∧
    ¬AtMostOneClaim 1 queuedDb claimedTwice
      (List.replicate 5 0 ++ List.replicate 6 1 ++ List.replicate 5 2) := by
  refine ⟨by decide, by decide, fun h => ?_⟩
  have hone := h.2 [] _ [] (by simp; rfl) (by decide)
  revert hone
  decide

end Fts3.MySql
