import Fts3.Machine.Run
import Fts3.MySql.Staging

/-!
# Asynchronous updates of the states

The tasks leave their updates in a vector, and a thread of its own hands what has gathered there to the database. The
vector is guarded by a mutex: each section under it is one step. A batch that fails goes back to the vector and to the disk.
-/

namespace Fts3.QosDaemon

open Fts3.Machine Fts3.MySql

deriving instance Repr, DecidableEq for MinFileStatus

/-- An update, with its number in the order in which the updates are made. -/
structure Update where
  number : Nat
  status : MinFileStatus FileState
  deriving Repr, DecidableEq

/-- What is written to the staging queue on the disk. -/
structure MessageBringonline where
  fileId : Nat
  jobId : String
  transferStatus : FileState
  transferMessage : String
  deriving Repr, DecidableEq

def Update.message (u : Update) : MessageBringonline :=
  { fileId := u.status.fileId, jobId := u.status.jobId, transferStatus := u.status.state,
    transferMessage := u.status.reason }

def numbered : Nat → List (MinFileStatus FileState) → List Update
  | _, [] => []
  | n, status :: statuses => ⟨n, status⟩ :: numbered (n + 1) statuses

/-! ## The steps -/

/-- Where a thread is in `recover`: before the lock, and between the messages. -/
inductive Recovery
  | put (items : List Update)
  | write (items : List Update)
  deriving Repr, DecidableEq

/-- Where the thread of `runImpl` is. -/
inductive Position
  | sleep
  /-- in the query, with the batch in `tmp` -/
  | query
  /-- in `recover`, after which the thread returns or goes on -/
  | recovering (r : Recovery) (returns : Bool)
  | returned
  deriving Repr, DecidableEq

structure StagingStateUpdater where
  updates : List Update := []
  tmp : List Update := []
  position : Position := .sleep
  /-- the `recover` of the shutdown -/
  shutdown : Option Recovery := none
  /-- the updates made, those that the database has taken, and those written to the disk -/
  produced : List Update := []
  applied : List Update := []
  written : List Update := []
  deriving Repr, DecidableEq

/-- What happens to the updater; a query that fails leaves the database unchanged, and so does one that is interrupted. -/
inductive Event
  | update (statuses : List (MinFileStatus FileState))
  | wake
  | succeed
  | fail
  | interrupt
  /-- the next step of the thread in `recover` -/
  | goOn
  | recover
  /-- the next step of the shutdown in `recover` -/
  | recoverOn
  deriving Repr

namespace StagingStateUpdater

/-- One step of `recover`: the section under the lock, a message, or the end. -/
def recoverStep (u : StagingStateUpdater) : Recovery → StagingStateUpdater × Option Recovery
  | .put items => ({ u with updates := u.updates ++ items }, some (.write items))
  | .write (item :: items) => ({ u with written := u.written ++ [item] }, some (.write items))
  | .write [] => (u, none)

def step (u : StagingStateUpdater) : Event → StagingStateUpdater
  | .update statuses =>
      let items := numbered u.produced.length statuses
      { u with updates := u.updates ++ items, produced := u.produced ++ items }
  | .wake =>
      if u.position = .sleep ∧ u.updates ≠ [] then
        { u with updates := u.tmp, tmp := u.updates, position := .query }
      else u
  | .succeed =>
      if u.position = .query then { u with applied := u.applied ++ u.tmp, tmp := [], position := .sleep } else u
  | .fail => if u.position = .query then { u with position := .recovering (.put u.tmp) false } else u
  | .interrupt =>
      if u.position = .sleep ∨ u.position = .query then { u with position := .recovering (.put u.tmp) true } else u
  | .goOn =>
      match u.position with
      | .recovering r returns =>
          match u.recoverStep r with
          | (u', some r') => { u' with position := .recovering r' returns }
          | (u', none) => { u' with tmp := [], position := if returns then .returned else .sleep }
      | _ => u
  | .recover =>
      match u.shutdown with
      | none | some (.write []) => { u with updates := [], shutdown := some (.put u.updates) }
      | _ => u
  | .recoverOn =>
      match u.shutdown with
      | none | some (.write []) => u
      | some r => { (u.recoverStep r).1 with shutdown := (u.recoverStep r).2 }

/-- `recover` has been called for the shutdown, and has written all its messages. -/
def recovered (u : StagingStateUpdater) : Prop :=
  u.shutdown = some (.write [])

/-! ## The numbers -/

theorem number_numbered {n : Nat} {statuses : List (MinFileStatus FileState)} {u : Update} (h : u ∈ numbered n statuses) :
    n ≤ u.number ∧ u.number < n + statuses.length := by
  induction statuses generalizing n with
  | nil => exact absurd h List.not_mem_nil
  | cons status statuses ih =>
      rcases List.mem_cons.mp h with rfl | h
      · simp
      · have := ih h
        simp only [List.length_cons]
        omega

theorem nodup_numbered (n : Nat) (statuses : List (MinFileStatus FileState)) : (numbered n statuses).Nodup := by
  induction statuses generalizing n with
  | nil => exact List.nodup_nil
  | cons status statuses ih =>
      refine List.nodup_cons.mpr ⟨fun h => ?_, ih (n + 1)⟩
      have := (number_numbered h).1
      simp only at this
      omega

theorem length_numbered (n : Nat) (statuses : List (MinFileStatus FileState)) :
    (numbered n statuses).length = statuses.length := by
  induction statuses generalizing n with
  | nil => rfl
  | cons status statuses ih => simp [numbered, ih]

/-! ## What is kept -/

/-- No query fails or is interrupted, `recover` is called once and with no batch in the query, and nothing is produced
after it. -/
def Undisturbed (u : StagingStateUpdater) : Event → Prop
  | .update _ => u.shutdown = none
  | .fail | .interrupt => u.position ≠ .query
  | .recover => u.shutdown = none ∧ u.position ≠ .query
  | .wake | .succeed | .goOn | .recoverOn => True

instance : ∀ u e, Decidable (Undisturbed u e)
  | u, .update _ => inferInstanceAs (Decidable (u.shutdown = none))
  | u, .fail | u, .interrupt => inferInstanceAs (Decidable (u.position ≠ .query))
  | u, .recover => inferInstanceAs (Decidable (u.shutdown = none ∧ u.position ≠ .query))
  | _, .wake | _, .succeed | _, .goOn | _, .recoverOn => inferInstanceAs (Decidable True)

/-- The updates that `recover` has taken out of the vector and not put back. -/
def taken (u : StagingStateUpdater) : List Update :=
  match u.shutdown with
  | some (.put items) => items
  | _ => []

/-- How far the shutdown has come. -/
def Recovering (u : StagingStateUpdater) : Prop :=
  match u.shutdown with
  | none => u.written = []
  | some (.put _) => u.written = [] ∧ u.updates = [] ∧ u.position ≠ .query
  | some (.write items) => ∃ before, before <+: u.applied ∧ u.produced = before ++ (u.written ++ items)

/-- What the thread of `runImpl` has in its hands outside the query. -/
def Idle (u : StagingStateUpdater) : Prop :=
  match u.position with
  | .query => True
  | .recovering r _ => u.tmp = [] ∧ (r = .put [] ∨ r = .write [])
  | .sleep | .returned => u.tmp = []

structure Tidy (u : StagingStateUpdater) : Prop where
  produced : u.produced = u.applied ++ (u.tmp ++ (u.taken ++ u.updates))
  nodup : u.produced.Nodup
  number : ∀ i ∈ u.produced, i.number < u.produced.length
  idle : u.Idle
  recovering : u.Recovering

variable {u : StagingStateUpdater}

theorem tidy_init : Tidy {} :=
  ⟨rfl, List.nodup_nil, by simp, rfl, rfl⟩

theorem Tidy.update (statuses : List (MinFileStatus FileState)) (hnone : u.shutdown = none) (h : u.Tidy) :
    (u.step (.update statuses)).Tidy := by
  obtain ⟨updates, tmp, position, shutdown, produced, applied, written⟩ := u
  obtain ⟨hproduced, hnodup, hnumber, hidle, hrecovering⟩ := h
  subst hnone
  constructor
  case produced => simp [step, taken] at hproduced ⊢; simp [hproduced]
  case nodup =>
    refine List.nodup_append.mpr ⟨hnodup, nodup_numbered _ _, fun i hi j hj hij => ?_⟩
    subst hij
    exact absurd (hnumber i hi) (Nat.not_lt.mpr (number_numbered hj).1)
  case number =>
    intro i hi
    simp only [step, List.length_append, length_numbered]
    rcases List.mem_append.mp hi with hi | hi
    · exact Nat.lt_add_right _ (hnumber i hi)
    · exact (number_numbered hi).2
  case idle => exact hidle
  case recovering => exact hrecovering

/-- While `recover` has taken the vector, there is nothing to wake for. -/
theorem Recovering.taken_eq_nil (h : u.Recovering) (hne : u.updates ≠ []) : u.taken = [] := by
  unfold Recovering at h
  unfold taken
  cases hshutdown : u.shutdown with
  | none => rfl
  | some r =>
      cases r with
      | put items =>
          rw [hshutdown] at h
          exact absurd h.2.1 hne
      | write items => rfl

theorem Recovering.elsewhere {position : Position} (hposition : position ≠ .query) (h : u.Recovering) :
    Recovering { u with position } := by
  obtain ⟨updates, tmp, _, shutdown, produced, applied, written⟩ := u
  cases shutdown with
  | none => exact h
  | some r =>
      cases r with
      | put items => exact ⟨h.1, h.2.1, hposition⟩
      | write items => exact h

theorem Tidy.wake (h : u.Tidy) : (u.step .wake).Tidy := by
  simp only [step]
  split
  case isFalse => exact h
  case isTrue hwake =>
    obtain ⟨hsleep, hne⟩ := hwake
    obtain ⟨hproduced, hnodup, hnumber, hidle, hrecovering⟩ := h
    have htaken := hrecovering.taken_eq_nil hne
    obtain ⟨updates, tmp, position, shutdown, produced, applied, written⟩ := u
    obtain rfl : position = .sleep := hsleep
    obtain rfl : tmp = [] := hidle
    refine ⟨?_, hnodup, hnumber, trivial, ?_⟩
    · rw [htaken] at hproduced
      change produced = applied ++ (updates ++ (taken ⟨updates, [], .sleep, shutdown, produced, applied, written⟩ ++ []))
      rw [htaken]
      simpa using hproduced
    · cases shutdown with
      | none => exact hrecovering
      | some r =>
          cases r with
          | put items => exact absurd hrecovering.2.1 hne
          | write items => exact hrecovering

theorem Tidy.succeed (h : u.Tidy) : (u.step .succeed).Tidy := by
  simp only [step]
  split
  case isFalse => exact h
  case isTrue hquery =>
    obtain ⟨hproduced, hnodup, hnumber, hidle, hrecovering⟩ := h
    obtain ⟨updates, tmp, position, shutdown, produced, applied, written⟩ := u
    obtain rfl : position = .query := hquery
    refine ⟨?_, hnodup, hnumber, rfl, ?_⟩
    · simpa [taken] using hproduced
    · cases shutdown with
      | none => exact hrecovering
      | some r =>
          cases r with
          | put items => exact absurd rfl hrecovering.2.2
          | write items =>
              obtain ⟨before, hbefore, hwritten⟩ := hrecovering
              exact ⟨before, hbefore.trans (List.prefix_append _ _), hwritten⟩

theorem Tidy.interrupt (hquery : u.position ≠ .query) (h : u.Tidy) : (u.step .interrupt).Tidy := by
  simp only [step]
  split
  case isFalse => exact h
  case isTrue hposition =>
    obtain ⟨hproduced, hnodup, hnumber, hidle, hrecovering⟩ := h
    refine ⟨hproduced, hnodup, hnumber, ?_, hrecovering.elsewhere (by simp)⟩
    obtain ⟨updates, tmp, position, shutdown, produced, applied, written⟩ := u
    obtain rfl : position = .sleep := hposition.resolve_right hquery
    obtain rfl : tmp = [] := hidle
    exact ⟨rfl, .inl rfl⟩

/-- The thread has nothing to put back and nothing to write. -/
theorem Tidy.goOn (h : u.Tidy) : (u.step .goOn).Tidy := by
  obtain ⟨updates, tmp, position, shutdown, produced, applied, written⟩ := u
  cases position with
  | recovering r returns =>
      obtain ⟨hproduced, hnodup, hnumber, ⟨hempty, hr⟩, hrecovering⟩ := h
      obtain rfl : tmp = [] := hempty
      rcases hr with rfl | rfl
      · simp only [step, recoverStep, List.append_nil]
        exact ⟨hproduced, hnodup, hnumber, ⟨rfl, .inr rfl⟩, hrecovering.elsewhere (by simp)⟩
      · cases returns with
        | false => exact ⟨hproduced, hnodup, hnumber, rfl, hrecovering.elsewhere (by simp)⟩
        | true => exact ⟨hproduced, hnodup, hnumber, rfl, hrecovering.elsewhere (by simp)⟩
  | _ => exact h

theorem Tidy.recover (hnone : u.shutdown = none) (hquery : u.position ≠ .query) (h : u.Tidy) :
    (u.step .recover).Tidy := by
  obtain ⟨updates, tmp, position, shutdown, produced, applied, written⟩ := u
  subst hnone
  obtain ⟨hproduced, hnodup, hnumber, hidle, hrecovering⟩ := h
  refine ⟨?_, hnodup, hnumber, hidle, hrecovering, rfl, hquery⟩
  simpa [step, taken] using hproduced

theorem Tidy.recoverOn (h : u.Tidy) : (u.step .recoverOn).Tidy := by
  obtain ⟨updates, tmp, position, shutdown, produced, applied, written⟩ := u
  obtain ⟨hproduced, hnodup, hnumber, hidle, hrecovering⟩ := h
  cases shutdown with
  | none => exact ⟨hproduced, hnodup, hnumber, hidle, hrecovering⟩
  | some r =>
      cases r with
      | put items =>
          obtain ⟨hwritten, hupdates, hquery⟩ := hrecovering
          obtain rfl : written = [] := hwritten
          obtain rfl : updates = [] := hupdates
          have htmp : tmp = [] := by
            cases position with
            | query => exact absurd rfl hquery
            | recovering r returns => exact hidle.1
            | sleep => exact hidle
            | returned => exact hidle
          subst htmp
          have happlied : produced = applied ++ items := by simpa [taken] using hproduced
          refine ⟨by simpa [step, recoverStep, taken] using hproduced, hnodup, hnumber, hidle, ?_⟩
          exact ⟨applied, List.prefix_refl _, happlied⟩
      | write items =>
          cases items with
          | nil => exact ⟨hproduced, hnodup, hnumber, hidle, hrecovering⟩
          | cons item items =>
              obtain ⟨before, hbefore, hwritten⟩ := hrecovering
              refine ⟨hproduced, hnodup, hnumber, hidle, before, hbefore, ?_⟩
              simpa [step, recoverStep] using hwritten

theorem Tidy.step {e : Event} (he : Undisturbed u e) (h : u.Tidy) : (u.step e).Tidy := by
  cases e with
  | update statuses => exact h.update statuses he
  | wake => exact h.wake
  | succeed => exact h.succeed
  | fail =>
      simp only [StagingStateUpdater.step, if_neg he]
      exact h
  | interrupt => exact h.interrupt he
  | goOn => exact h.goOn
  | recover => exact h.recover he.1 he.2
  | recoverOn => exact h.recoverOn

/-! ## Every run -/

def ofFile (fileId : Nat) (items : List Update) : List Update :=
  items.filter (·.status.fileId = fileId)

/-- The updates of each file have reached the database in order and once each, and after the shutdown those that have not
are on the disk, once each. -/
def InOrder (u : StagingStateUpdater) : Prop :=
  (∀ fileId, ofFile fileId u.applied <+: ofFile fileId u.produced) ∧
    (u.recovered → ∀ i ∈ u.produced, i ∉ u.applied → u.written.count i = 1)

theorem Tidy.inOrder (h : u.Tidy) : u.InOrder := by
  constructor
  · intro fileId
    rw [h.produced]
    exact (List.prefix_append _ _).filter _
  · intro hrecovered i hi happlied
    have hrecovering := h.recovering
    unfold recovered at hrecovered
    rw [Recovering, hrecovered] at hrecovering
    obtain ⟨before, hbefore, hwritten⟩ := hrecovering
    rw [List.append_nil] at hwritten
    have hmem : i ∈ u.written := by
      rw [hwritten] at hi
      exact (List.mem_append.mp hi).resolve_left fun hi => happlied (hbefore.subset hi)
    have hnodup := h.nodup
    rw [hwritten] at hnodup
    exact List.count_eq_one_of_mem (List.nodup_append.mp hnodup).2.1 hmem

theorem updates_in_order (es : List Event) (h : Meets step Undisturbed {} es) : (run step {} es).InOrder :=
  (h.invariant (fun _ _ he hu => hu.step he) tidy_init).inOrder

instance : Decidable u.recovered :=
  inferInstanceAs (Decidable (_ = _))

/-- A batch is taken by the database, and a later update is on the disk after the shutdown. -/
def shutdownRun : List Event :=
  [.update [⟨"job", 1, .finished, "", false⟩], .wake, .succeed, .update [⟨"job", 2, .failed, "timeout", false⟩], .recover,
    .recoverOn, .recoverOn, .interrupt, .goOn, .goOn]

theorem updates_in_order_shutdown :
    (run step {} shutdownRun).InOrder ∧ (run step {} shutdownRun).recovered ∧
      (run step {} shutdownRun).written.map Update.message = [⟨2, "job", .failed, "timeout"⟩] :=
  ⟨updates_in_order shutdownRun (by decide), by decide, by decide⟩

/-- The query of the first update fails while a second one for the same file arrives: both are taken later, in the other
order. And an update whose query fails is on the disk, and there a second time after the shutdown. -/
theorem not_updates_in_order :
    ¬ (run step {} [.update [⟨"job", 1, .started, "", false⟩], .wake, .update [⟨"job", 1, .finished, "", false⟩], .fail,
        .goOn, .goOn, .goOn, .wake, .succeed]).InOrder ∧
      ¬ (run step {} [.update [⟨"job", 1, .finished, "", false⟩], .wake, .fail, .goOn, .goOn, .goOn, .recover,
        .recoverOn, .recoverOn]).InOrder := by
  constructor
  · rintro ⟨horder, -⟩
    exact absurd (horder 1) (by decide)
  · rintro ⟨-, hwritten⟩
    exact absurd (hwritten (by decide) ⟨0, "job", 1, .finished, "", false⟩ (by decide)) (by decide)

end StagingStateUpdater

end Fts3.QosDaemon
