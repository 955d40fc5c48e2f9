import Mathlib.Data.List.Basic
import Mathlib.Logic.Function.Basic
import Fts3.Machine.Run

/-!
# Stalled transfers

`ThreadSafeList.cpp` and `CancelerService.cpp`: the processes of `fts_url_copy` are watched by a list of their last
messages. Executors put a process on the list after they have started it, its messages refresh it or take it off, and
`markAsStalled` kills what is too old.
-/

namespace Fts3.Server

open Fts3.Machine

/-! ## The list -/

structure MessageUpdater where
  jobId : String
  fileId : Nat
  processId : Nat
  timestamp : Nat
  deriving Repr, DecidableEq

def MessageUpdater.file (m : MessageUpdater) : String × Nat :=
  (m.jobId, m.fileId)

namespace ThreadSafeList

def checkExpiredMsg (now timeout : Nat) (list : List MessageUpdater) : List MessageUpdater :=
  list.filter fun m => timeout < now - m.timestamp

/-- `pidStartTime` is when the process that has the pid now was started, if there is one. -/
def updateMsg (pidStartTime : Option Nat) (processId timestamp : Nat) (list : List MessageUpdater) : List MessageUpdater :=
  list.map fun m =>
    if processId = m.processId ∧ pidStartTime.any (· ≤ timestamp) then { m with timestamp } else m

def deleteMsg (messages list : List MessageUpdater) : List MessageUpdater :=
  list.filter fun m => m.file ∉ messages.map (·.file)

def removeFinishedTr (file : String × Nat) (list : List MessageUpdater) : List MessageUpdater :=
  list.filter fun m => m.file ≠ file

end ThreadSafeList

/-! ## Processes -/

/-- A process of `fts_url_copy`. -/
structure Child where
  pid : Nat
  file : String × Nat
  startTime : Nat
  alive : Bool := true
  /-- its executor has put it on the list -/
  pushed : Bool := false
  /-- its last message has taken its file off the list -/
  removed : Bool := false
  /-- the dates of its messages that have been seen -/
  seen : List Nat := []
  /-- those of them that a watcher does not have: seen after its end, before an older one or while it was put on the list -/
  lost : List Nat := []

def Child.see (p : Child) (timestamp : Nat) : Child :=
  { p with
    seen := p.seen ++ [timestamp]
    lost := if p.alive then p.seen.filter (timestamp < ·) else p.lost ++ [timestamp] }

def Child.push (p : Child) (timestamp : Nat) : Child :=
  { p with
    pushed := true
    lost := p.lost ++ p.seen.filter (timestamp < ·) }

inductive FileStatus
  | submitted
  | started
  | terminal
  deriving Repr, DecidableEq

structure Monitor where
  now : Nat := 0
  /-- the processes in the order of their start -/
  processes : Nat → Option Child := fun _ => none
  spawned : Nat := 0
  status : String × Nat → FileStatus := fun _ => .submitted
  /-- the process of the current attempt -/
  current : String × Nat → Option Nat := fun _ => none
  list : List MessageUpdater := []
  /-- what `markAsStalled` has still to deal with -/
  messages : List MessageUpdater := []
  /-- what it has dealt with in this round -/
  reaped : List MessageUpdater := []

inductive MonitorEvent
  | tick (d : Nat)
  | claim (file : String × Nat)
  | forkFailed (file : String × Nat)
  | spawn (file : String × Nat) (pid : Nat)
  /-- its executor puts it on the list with the time it has just read -/
  | push (k timestamp : Nat)
  /-- a message of the process is seen; it is dated when it was sent -/
  | message (k timestamp : Nat)
  /-- its last message takes its file off the list -/
  | remove (k : Nat)
  /-- and changes the file in the database, which may be a retry -/
  | settle (k : Nat) (retried : Bool)
  | exit (k : Nat)
  /-- the steps of `markAsStalled`: what is expired, one of it, and the end of the round or an exception -/
  | check
  | reap
  | delete
  | abort

namespace Monitor

/-- A live process has the pid. -/
def hasPid (s : Monitor) (pid j : Nat) : Bool :=
  (s.processes j).any fun p => p.alive && p.pid = pid

def inUse (s : Monitor) (pid : Nat) : Bool :=
  (List.range s.spawned).any (s.hasPid pid)

/-- `getPidStartime` -/
def pidStartTime (s : Monitor) (pid : Nat) : Option Nat :=
  ((List.range s.spawned).find? (s.hasPid pid)).bind fun j => (s.processes j).map (·.startTime)

def setProcess (s : Monitor) (k : Nat) (p : Child) : Monitor :=
  { s with processes := Function.update s.processes k (some p) }

def executeProcess (s : Monitor) (file : String × Nat) (pid : Nat) : Monitor :=
  { s.setProcess s.spawned { pid, file, startTime := s.now } with
    spawned := s.spawned + 1
    current := Function.update s.current file (some s.spawned) }

def kill (s : Monitor) (pid : Nat) : Monitor :=
  { s with processes := fun j => (s.processes j).map fun p => if p.pid = pid then { p with alive := false } else p }

def setStatus (s : Monitor) (file : String × Nat) (status : FileStatus) : Monitor :=
  { s with status := Function.update s.status file status }

/-- A change of the file to a terminal state; there is none from one. -/
def updateTransferStatus (s : Monitor) (file : String × Nat) : Monitor :=
  s.setStatus file .terminal

def setRetryTransfer (s : Monitor) (file : String × Nat) : Monitor :=
  if s.status file = .started then s.setStatus file .submitted else s

/-- The watcher of a process. -/
def watcher (p : Child) (timestamp : Nat) : MessageUpdater :=
  { jobId := p.file.1, fileId := p.file.2, processId := p.pid, timestamp }

/-- The timeout is the one of the configuration, and `self` is the pid of the server. -/
def step (timeout self : Nat) (s : Monitor) : MonitorEvent → Monitor
  | .tick d => { s with now := s.now + d }
  | .claim file => if s.status file = .submitted then s.setStatus file .started else s
  | .forkFailed file => if s.status file = .started ∧ s.current file = none then s.updateTransferStatus file else s
  | .spawn file pid =>
      -- the operating system gives no pid that is in use
      if s.status file = .started ∧ s.current file = none ∧ s.inUse pid = false ∧ pid ≠ 0 ∧ pid ≠ self then
        s.executeProcess file pid
      else s
  | .push k timestamp =>
      match s.processes k with
      | some p =>
          if p.pushed = false ∧ p.startTime ≤ timestamp ∧ timestamp ≤ s.now then
            { s.setProcess k (p.push timestamp) with list := s.list ++ [watcher p timestamp] }
          else s
      | none => s
  | .message k timestamp =>
      match s.processes k with
      | some p =>
          if p.startTime ≤ timestamp ∧ timestamp ≤ s.now then
            { s.setProcess k (p.see timestamp) with
              list := ThreadSafeList.updateMsg (s.pidStartTime p.pid) p.pid timestamp s.list }
          else s
      | none => s
  | .remove k =>
      match s.processes k with
      | some p => { s.setProcess k { p with removed := true } with list := ThreadSafeList.removeFinishedTr p.file s.list }
      | none => s
  | .settle k retried =>
      match s.processes k with
      | some p =>
          if p.removed then
            { if retried then s.setRetryTransfer p.file else s.updateTransferStatus p.file with
              current := Function.update s.current p.file none }
          else s
      | none => s
  | .exit k =>
      match s.processes k with
      | some p => s.setProcess k { p with alive := false }
      | none => s
  | .check =>
      if s.messages = [] ∧ s.reaped = [] then
        { s with messages := ThreadSafeList.checkExpiredMsg s.now timeout s.list }
      else s
  | .reap =>
      match s.messages with
      | [] => s
      | m :: messages =>
          let s := { s with messages, reaped := s.reaped ++ [m] }
          if m.processId = self then s
          else if m.processId = 0 then s.updateTransferStatus m.file
          else (s.kill m.processId).updateTransferStatus m.file
  | .delete => if s.messages = [] then { s with list := ThreadSafeList.deleteMsg s.reaped s.list, reaped := [] } else s
  | .abort => { s with messages := [], reaped := [] }

/-! ## What is watched -/

/-- The process of the current attempt of the file has the pid, and no other live one has it. -/
def Watches (s : Monitor) (m : MessageUpdater) (P : Child → Prop) : Prop :=
  ∃ k p, s.current m.file = some k ∧ s.processes k = some p ∧ p.pid = m.processId ∧
    (∀ j, s.hasPid m.processId j = true → j = k) ∧ P p

/-- None of its messages has been seen for longer than the timeout. -/
def Silent (timeout now : Nat) (p : Child) : Prop :=
  ∀ t ∈ p.seen, timeout < now - t

def Justified (timeout : Nat) (s : Monitor) (m : MessageUpdater) : Prop :=
  s.Watches m (Silent timeout s.now)

/-- A pid is given to a new process when no watcher and no process that is still to be watched has it; a process is put on
the list while its attempt is the current one; a message is of the process that is watched under its pid, and none of the
last ones comes between the expiry and the end of the process; the database is changed for a file that is not on the list
any more; and a watcher that is found expired has lost no date but old ones. -/
def Orderly (timeout : Nat) (s : Monitor) : MonitorEvent → Prop
  | .spawn _ pid =>
      (∀ m ∈ s.list ++ s.messages, m.processId ≠ pid) ∧
        ∀ j ∈ List.range s.spawned, ((s.processes j).all fun p => p.pushed || p.pid ≠ pid) = true
  | .push k _ => ((s.processes k).all fun p => s.current p.file = some k) = true
  | .message k timestamp =>
      ((s.processes k).all fun p =>
        s.list.all (fun m => m.processId ≠ p.pid || s.current m.file = some k) &&
          (s.messages.all (·.processId ≠ p.pid) || timeout < s.now - timestamp)) = true
  | .settle k _ => ((s.processes k).all fun p => (s.list ++ s.messages).all (·.file ≠ p.file)) = true
  | .check =>
      ((ThreadSafeList.checkExpiredMsg s.now timeout s.list).all fun m =>
        ((s.current m.file).bind s.processes).all fun p => p.lost.all (timeout < s.now - ·)) = true
  | _ => True

instance (timeout : Nat) : ∀ s e, Decidable (Orderly timeout s e)
  | s, .spawn _ pid =>
      inferInstanceAs (Decidable ((∀ m ∈ s.list ++ s.messages, m.processId ≠ pid) ∧
        ∀ j ∈ List.range s.spawned, ((s.processes j).all fun p => p.pushed || p.pid ≠ pid) = true))
  | _, .push .. | _, .message .. | _, .settle .. | _, .check => inferInstanceAs (Decidable (_ = true))
  | _, .tick _ | _, .claim _ | _, .forkFailed _ | _, .remove _ | _, .exit _ | _, .reap | _, .delete
  | _, .abort => inferInstanceAs (Decidable True)

/-- The watcher has the dates of the process but the lost ones. -/
def Tracks (timestamp : Nat) (p : Child) : Prop :=
  ∀ t ∈ p.seen, t ≤ timestamp ∨ t ∈ p.lost

/-- The invariant of orderly runs. -/
structure Sound (timeout : Nat) (s : Monitor) : Prop where
  list : ∀ m ∈ s.list, s.Watches m (Tracks m.timestamp)
  messages : ∀ m ∈ s.messages, s.Justified timeout m
  unpushed : ∀ k p, s.processes k = some p → p.pushed = false → ∀ j, s.hasPid p.pid j = true → j = k
  submitted : ∀ file, s.status file = .submitted → s.current file = none
  fresh : ∀ j, s.spawned ≤ j → s.processes j = none
  seen : ∀ k p, s.processes k = some p → ∀ t ∈ p.seen, t ≤ s.now

section frame

variable {s s' : Monitor} {m : MessageUpdater} {P Q : Child → Prop}

/-- The process keeps its pid and its messages; it does not come back to life, nor is it taken back by its executor. -/
structure Keeps (p p' : Child) : Prop where
  pid : p'.pid = p.pid
  seen : p'.seen = p.seen
  lost : p.lost ⊆ p'.lost
  alive : p'.alive = true → p.alive = true
  pushed : p'.pushed = false → p.pushed = false

theorem Keeps.refl (p : Child) : Keeps p p :=
  ⟨rfl, rfl, fun _ => id, id, id⟩

theorem Keeps.tracks {p p' : Child} (h : Keeps p p') {timestamp : Nat} (htracks : Tracks timestamp p) :
    Tracks timestamp p' := by
  intro t ht
  rw [h.seen] at ht
  exact (htracks t ht).imp_right fun hlost => h.lost hlost

theorem Keeps.silent {p p' : Child} (h : Keeps p p') {timeout now now' : Nat} (hnow : now ≤ now')
    (hsilent : Silent timeout now p) : Silent timeout now' p' := by
  intro t ht
  rw [h.seen] at ht
  have htime := hsilent t ht
  omega

/-- The processes are the same ones. -/
def SameProcesses (s s' : Monitor) : Prop :=
  ∀ j, Option.Rel Keeps (s.processes j) (s'.processes j)

theorem SameProcesses.of_eq (h : s'.processes = s.processes) : SameProcesses s s' := by
  intro j
  rw [h]
  cases s.processes j with
  | none => exact .none
  | some p => exact .some (.refl p)

theorem sameProcesses_setProcess {k : Nat} {p p' : Child} (hp : s.processes k = some p) (h : Keeps p p')
    (hs' : s'.processes = Function.update s.processes k (some p')) : SameProcesses s s' := by
  intro j
  rw [hs']
  by_cases hj : j = k
  · subst hj
    rw [hp, Function.update_self]
    exact .some h
  · rw [Function.update_of_ne hj]
    exact SameProcesses.of_eq rfl j

theorem sameProcesses_kill (s : Monitor) (pid : Nat) : SameProcesses s (s.kill pid) := by
  intro j
  rw [kill]
  dsimp only
  cases s.processes j with
  | none => exact .none
  | some p =>
      refine .some ?_
      dsimp only
      split
      · exact ⟨rfl, rfl, fun _ => id, fun h => absurd h (by simp), id⟩
      · exact .refl p

theorem SameProcesses.some_of_some (h : SameProcesses s s') {j : Nat} {p' : Child} (hp' : s'.processes j = some p') :
    ∃ p, s.processes j = some p ∧ Keeps p p' := by
  have hj := h j
  rw [hp'] at hj
  cases hp : s.processes j with
  | none =>
      rw [hp] at hj
      cases hj
  | some p =>
      rw [hp] at hj
      cases hj with
      | some hkeeps => exact ⟨p, rfl, hkeeps⟩

theorem SameProcesses.exists_some (h : SameProcesses s s') {j : Nat} {p : Child} (hp : s.processes j = some p) :
    ∃ p', s'.processes j = some p' ∧ Keeps p p' := by
  have hj := h j
  rw [hp] at hj
  cases hp' : s'.processes j with
  | none =>
      rw [hp'] at hj
      cases hj
  | some p' =>
      rw [hp'] at hj
      cases hj with
      | some hkeeps => exact ⟨p', rfl, hkeeps⟩

theorem hasPid_iff {pid j : Nat} : s.hasPid pid j = true ↔ ∃ p, s.processes j = some p ∧ p.alive = true ∧ p.pid = pid := by
  unfold hasPid
  cases s.processes j with
  | none => simp
  | some p => simp

theorem SameProcesses.hasPid (h : SameProcesses s s') {pid j : Nat} (hj : s'.hasPid pid j = true) :
    s.hasPid pid j = true := by
  obtain ⟨p', hp', halive, hpid⟩ := hasPid_iff.mp hj
  obtain ⟨p, hp, hkeeps⟩ := h.some_of_some hp'
  exact hasPid_iff.mpr ⟨p, hp, hkeeps.alive halive, hkeeps.pid ▸ hpid⟩

theorem Watches.of_same (hsame : SameProcesses s s') (hcurrent : s'.current m.file = s.current m.file)
    (h : s.Watches m P) (himp : ∀ p p', Keeps p p' → P p → Q p') : s'.Watches m Q := by
  obtain ⟨k, p, hk, hp, hpid, halone, hP⟩ := h
  obtain ⟨p', hp', hkeeps⟩ := hsame.exists_some hp
  exact ⟨k, p', hcurrent.trans hk, hp', hkeeps.pid.trans hpid, fun j hj => halone j (hsame.hasPid hj),
    himp p p' hkeeps hP⟩

variable {timeout self : Nat}

/-- A step that keeps the processes and the attempts of what is watched. -/
theorem Sound.of_same (h : s.Sound timeout) (hsame : SameProcesses s s') (hspawned : s'.spawned = s.spawned)
    (hnow : s.now ≤ s'.now) (hsubmitted : ∀ file, s'.status file = .submitted → s'.current file = none)
    (hcurrent : ∀ m ∈ s'.list ++ s'.messages, s'.current m.file = s.current m.file)
    (hlist : ∀ m ∈ s'.list, s.Watches m (Tracks m.timestamp))
    (hmessages : ∀ m ∈ s'.messages, s.Justified timeout m) : s'.Sound timeout where
  list m hm :=
    (hlist m hm).of_same hsame (hcurrent m (List.mem_append_left _ hm)) fun _ _ hkeeps => hkeeps.tracks
  messages m hm :=
    (hmessages m hm).of_same hsame (hcurrent m (List.mem_append_right _ hm)) fun _ _ hkeeps => hkeeps.silent hnow
  unpushed k p' hp' hpushed j hj := by
    obtain ⟨p, hp, hkeeps⟩ := hsame.some_of_some hp'
    refine h.unpushed k p hp (hkeeps.pushed hpushed) j ?_
    rw [← hkeeps.pid]
    exact hsame.hasPid hj
  submitted := hsubmitted
  fresh j hj := by
    cases hp' : s'.processes j with
    | none => rfl
    | some p' =>
        obtain ⟨p, hp, -⟩ := hsame.some_of_some hp'
        rw [h.fresh j (hspawned ▸ hj)] at hp
        cases hp
  seen k p' hp' t ht := by
    obtain ⟨p, hp, hkeeps⟩ := hsame.some_of_some hp'
    exact (h.seen k p hp t (hkeeps.seen ▸ ht)).trans hnow

/-- A step that keeps the attempts, starts no file again and lets nothing new be watched. -/
theorem Sound.of_subset (h : s.Sound timeout) (hsame : SameProcesses s s') (hcurrent : s'.current = s.current)
    (hspawned : s'.spawned = s.spawned) (hnow : s.now ≤ s'.now)
    (hstatus : ∀ file, s'.status file = .submitted → s.status file = .submitted)
    (hlist : s'.list ⊆ s.list) (hmessages : s'.messages ⊆ s.messages) : s'.Sound timeout := by
  apply h.of_same hsame hspawned hnow
  · intro file hfile
    rw [hcurrent]
    exact h.submitted file (hstatus file hfile)
  · intro m _
    rw [hcurrent]
  · exact fun m hm => h.list m (hlist hm)
  · exact fun m hm => h.messages m (hmessages hm)

end frame

/-! ## One event -/

section events

variable {timeout self : Nat} {s : Monitor} {file : String × Nat} {k : Nat} {p : Child}

/-- No change of the database gives a file back but a retry. -/
theorem submitted_of_setStatus {status : FileStatus} (hstatus : status ≠ .submitted) {file' : String × Nat}
    (h : (s.setStatus file status).status file' = .submitted) : s.status file' = .submitted := by
  simp only [setStatus] at h
  by_cases hfile : file' = file
  · rw [hfile, Function.update_self] at h
    exact absurd h hstatus
  · rwa [Function.update_of_ne hfile] at h

theorem Sound.setStatus (h : s.Sound timeout) {status : FileStatus} (hstatus : status ≠ .submitted) :
    (s.setStatus file status).Sound timeout := by
  refine h.of_subset (.of_eq rfl) rfl rfl (Nat.le_refl _) ?_ ?_ ?_
  · exact fun _ => submitted_of_setStatus hstatus
  · exact fun _ => id
  · exact fun _ => id

theorem Sound.updateTransferStatus (h : s.Sound timeout) : (s.updateTransferStatus file).Sound timeout :=
  h.setStatus (by simp)

theorem Sound.kill (h : s.Sound timeout) (pid : Nat) : (s.kill pid).Sound timeout := by
  refine h.of_subset (sameProcesses_kill s pid) rfl rfl (Nat.le_refl _) ?_ ?_ ?_
  · exact fun _ => id
  · exact fun _ => id
  · exact fun _ => id

/-- An index below `spawned` is one of a process. -/
theorem Sound.lt_spawned (h : s.Sound timeout) (hp : s.processes k = some p) : k < s.spawned := by
  by_contra hle
  rw [h.fresh k (Nat.le_of_not_lt hle)] at hp
  cases hp

theorem Sound.not_hasPid (h : s.Sound timeout) {pid : Nat} (hpid : s.inUse pid = false) (j : Nat) :
    s.hasPid pid j = false := by
  by_contra hj
  rw [Bool.not_eq_false] at hj
  obtain ⟨p, hp, -⟩ := hasPid_iff.mp hj
  have hrange : j ∈ List.range s.spawned := List.mem_range.mpr (h.lt_spawned hp)
  have huse : s.inUse pid = true := List.any_eq_true.mpr ⟨j, hrange, hj⟩
  rw [hpid] at huse
  cases huse

/-- The start of the one live process that has the pid. -/
theorem Sound.pidStartTime_eq (h : s.Sound timeout) (hp : s.processes k = some p) (halive : p.alive = true)
    (halone : ∀ j, s.hasPid p.pid j = true → j = k) : s.pidStartTime p.pid = some p.startTime := by
  have hk : s.hasPid p.pid k = true := hasPid_iff.mpr ⟨p, hp, halive, rfl⟩
  unfold pidStartTime
  cases hfind : (List.range s.spawned).find? (s.hasPid p.pid) with
  | none =>
      rw [List.find?_eq_none] at hfind
      exact absurd hk (hfind k (List.mem_range.mpr (h.lt_spawned hp)))
  | some j =>
      obtain rfl := halone j (List.find?_some hfind)
      simp [hp]

theorem pidStartTime_eq_none {pid : Nat} (h : ∀ j, ¬ s.hasPid pid j = true) : s.pidStartTime pid = none := by
  unfold pidStartTime
  rw [List.find?_eq_none.mpr fun j _ => h j]
  rfl

theorem processes_setProcess_self (s : Monitor) (k : Nat) (p : Child) : (s.setProcess k p).processes k = some p :=
  Function.update_self ..

theorem processes_setProcess {j : Nat} (hj : j ≠ k) (p : Child) : (s.setProcess k p).processes j = s.processes j :=
  Function.update_of_ne hj ..

theorem Sound.watch (h : s.Sound timeout) {m : MessageUpdater} (hm : s.Watches m (Tracks m.timestamp)) :
    ({ s with list := s.list ++ [m] } : Monitor).Sound timeout := by
  refine h.of_same (.of_eq rfl) rfl (Nat.le_refl _) h.submitted (fun _ _ => rfl) ?_ h.messages
  intro m' hm'
  rw [List.mem_append, List.mem_singleton] at hm'
  cases hm' with
  | inl hm' => exact h.list m' hm'
  | inr hm' => exact hm' ▸ hm

theorem tracks_push (p : Child) (timestamp : Nat) : Tracks timestamp (p.push timestamp) := by
  intro t ht
  by_cases hle : t ≤ timestamp
  · exact .inl hle
  · refine .inr (List.mem_append_right _ (List.mem_filter.mpr ⟨ht, ?_⟩))
    simpa using hle

theorem Sound.push (h : s.Sound timeout) {timestamp : Nat} (hC : s.Orderly timeout (.push k timestamp)) :
    (s.step timeout self (.push k timestamp)).Sound timeout := by
  simp only [step]
  cases hp : s.processes k with
  | none => exact h
  | some p =>
      simp only [Orderly, hp, Option.all_some, decide_eq_true_eq] at hC
      dsimp only
      split
      · rename_i hcond
        have hkeeps : Keeps p (p.push timestamp) :=
          ⟨rfl, rfl, List.subset_append_left _ _, id, fun h => absurd h (by simp [Child.push])⟩
        have hsame : SameProcesses s (s.setProcess k (p.push timestamp)) := sameProcesses_setProcess hp hkeeps rfl
        have hpushed : (s.setProcess k (p.push timestamp)).Sound timeout :=
          h.of_subset hsame rfl rfl (Nat.le_refl _) (fun _ => id) (fun _ => id) fun _ => id
        -- no other live process has had the pid since the start of this one
        have halone (j : Nat) (hj : (s.setProcess k (p.push timestamp)).hasPid p.pid j = true) : j = k :=
          h.unpushed k p hp hcond.1 j (hsame.hasPid hj)
        exact hpushed.watch ⟨k, _, hC, processes_setProcess_self .., rfl, halone, tracks_push p timestamp⟩
      · exact h

theorem Sound.settle (h : s.Sound timeout) {retried : Bool} (hC : s.Orderly timeout (.settle k retried)) :
    (s.step timeout self (.settle k retried)).Sound timeout := by
  simp only [step]
  cases hp : s.processes k with
  | none => exact h
  | some p =>
      simp only [Orderly, hp, Option.all_some, List.all_eq_true, decide_eq_true_eq] at hC
      dsimp only
      split
      · generalize hs' : (if retried then s.setRetryTransfer p.file else s.updateTransferStatus p.file) = s'
        -- the two changes of the database touch the status only
        have hstatus : s' = { s with status := s'.status } ∧
            ∀ file, file ≠ p.file → s'.status file = s.status file := by
          subst hs'
          cases retried with
          | true =>
              simp only [if_true, setRetryTransfer]
              split
              · exact ⟨rfl, fun file hfile => Function.update_of_ne hfile ..⟩
              · exact ⟨rfl, fun _ _ => rfl⟩
          | false => exact ⟨rfl, fun file hfile => Function.update_of_ne hfile ..⟩
        obtain ⟨heq, hother⟩ := hstatus
        rw [heq]
        refine h.of_same (.of_eq rfl) rfl (Nat.le_refl _) ?_ ?_ ?_ ?_
        · intro file hfile
          by_cases hsame : file = p.file
          · rw [hsame]
            exact Function.update_self ..
          · refine (Function.update_of_ne hsame ..).trans (h.submitted file ?_)
            rw [← hother file hsame]
            exact hfile
        · exact fun m hm => Function.update_of_ne (hC m hm) ..
        · exact h.list
        · exact h.messages
      · exact h

theorem processes_executeProcess_self (s : Monitor) (file : String × Nat) (pid : Nat) :
    (s.executeProcess file pid).processes s.spawned = some { pid, file, startTime := s.now } :=
  Function.update_self ..

theorem processes_executeProcess {j : Nat} (hj : j ≠ s.spawned) (file : String × Nat) (pid : Nat) :
    (s.executeProcess file pid).processes j = s.processes j :=
  Function.update_of_ne hj ..

theorem hasPid_executeProcess {pid pid' j : Nat} (h : (s.executeProcess file pid).hasPid pid' j = true) :
    j = s.spawned ∧ pid' = pid ∨ s.hasPid pid' j = true := by
  obtain ⟨p, hp, halive, hpid⟩ := hasPid_iff.mp h
  by_cases hj : j = s.spawned
  · rw [hj, processes_executeProcess_self, Option.some.injEq] at hp
    subst hp
    exact .inl ⟨hj, hpid.symm⟩
  · rw [processes_executeProcess hj] at hp
    exact .inr (hasPid_iff.mpr ⟨p, hp, halive, hpid⟩)

/-- What is watched is of another file and has another pid. -/
theorem Watches.executeProcess {m : MessageUpdater} {P : Child → Prop} {pid : Nat} (h : s.Sound timeout)
    (hnone : s.current file = none) (hpid : m.processId ≠ pid) (hwatches : s.Watches m P) :
    (s.executeProcess file pid).Watches m P := by
  obtain ⟨k, p, hk, hp, hmp, halone, hseen⟩ := hwatches
  have hfile : m.file ≠ file := by
    intro heq
    rw [heq, hnone] at hk
    cases hk
  have hne : k ≠ s.spawned := Nat.ne_of_lt (h.lt_spawned hp)
  refine ⟨k, p, (Function.update_of_ne hfile ..).trans hk, ?_, hmp, fun j hj => ?_, hseen⟩
  · rw [processes_executeProcess hne]
    exact hp
  · cases hasPid_executeProcess hj with
    | inl hnew => exact absurd hnew.2 hpid
    | inr hj => exact halone j hj

theorem Sound.executeProcess {pid : Nat} (h : s.Sound timeout) (hstarted : s.status file = .started)
    (hnone : s.current file = none) (huse : s.inUse pid = false)
    (hwatched : ∀ m ∈ s.list ++ s.messages, m.processId ≠ pid)
    (hunpushed : ∀ j p, s.processes j = some p → p.pushed = false → p.pid ≠ pid) :
    (s.executeProcess file pid).Sound timeout where
  list m hm := (h.list m hm).executeProcess h hnone (hwatched m (List.mem_append_left _ hm))
  messages m hm := (h.messages m hm).executeProcess h hnone (hwatched m (List.mem_append_right _ hm))
  unpushed k p hp hpushed j hj := by
    by_cases hk : k = s.spawned
    · rw [hk, processes_executeProcess_self, Option.some.injEq] at hp
      subst hp
      cases hasPid_executeProcess hj with
      | inl hnew => rw [hk, hnew.1]
      | inr hj =>
          rw [h.not_hasPid huse] at hj
          cases hj
    · rw [processes_executeProcess hk] at hp
      cases hasPid_executeProcess hj with
      | inl hnew => exact absurd hnew.2 (hunpushed k p hp hpushed)
      | inr hj => exact h.unpushed k p hp hpushed j hj
  submitted file' hfile' := by
    have hstatus : s.status file' = .submitted := hfile'
    have hne : file' ≠ file := by
      intro heq
      rw [heq, hstarted] at hstatus
      cases hstatus
    exact (Function.update_of_ne hne ..).trans (h.submitted file' hstatus)
  fresh j hj := by
    have hlt : s.spawned < j := hj
    rw [processes_executeProcess (by omega)]
    exact h.fresh j (by omega)
  seen k p hp t ht := by
    by_cases hk : k = s.spawned
    · rw [hk, processes_executeProcess_self, Option.some.injEq] at hp
      subst hp
      cases ht
    · rw [processes_executeProcess hk] at hp
      exact h.seen k p hp t ht

theorem Sound.spawn (h : s.Sound timeout) {pid : Nat} (hC : s.Orderly timeout (.spawn file pid)) :
    (s.step timeout self (.spawn file pid)).Sound timeout := by
  simp only [step]
  split
  · rename_i hcond
    obtain ⟨hstarted, hnone, huse, -, -⟩ := hcond
    apply h.executeProcess hstarted hnone huse hC.1
    intro j p hp hpushed
    have hall := hC.2 j (List.mem_range.mpr (h.lt_spawned hp))
    simpa [hp, hpushed] using hall
  · exact h

theorem hasPid_see (hp : s.processes k = some p) (timestamp : Nat) {pid j : Nat}
    (h : (s.setProcess k (p.see timestamp)).hasPid pid j = true) : s.hasPid pid j = true := by
  obtain ⟨p', hp', halive, hpid⟩ := hasPid_iff.mp h
  by_cases hj : j = k
  · subst hj
    rw [processes_setProcess_self, Option.some.injEq] at hp'
    subst hp'
    exact hasPid_iff.mpr ⟨p, hp, halive, hpid⟩
  · rw [processes_setProcess hj] at hp'
    exact hasPid_iff.mpr ⟨p', hp', halive, hpid⟩

theorem Watches.see {m : MessageUpdater} {P : Child → Prop} (hp : s.processes k = some p) {timestamp : Nat}
    (hw : s.Watches m P) (hself : p.pid = m.processId → P p → P (p.see timestamp)) :
    (s.setProcess k (p.see timestamp)).Watches m P := by
  obtain ⟨k', p', hk', hp', hpid, halone, hP⟩ := hw
  have halone' (j : Nat) (hj : (s.setProcess k (p.see timestamp)).hasPid m.processId j = true) : j = k' :=
    halone j (hasPid_see hp timestamp hj)
  by_cases hk : k' = k
  · subst hk
    obtain rfl : p = p' := Option.some.inj (hp.symm.trans hp')
    exact ⟨k', _, hk', processes_setProcess_self .., hpid, halone', hself hpid hP⟩
  · exact ⟨k', p', hk', (processes_setProcess hk _).trans hp', hpid, halone', hP⟩

/-- A refreshed watcher has the dates but the newer ones. -/
theorem tracks_see_of_alive (halive : p.alive = true) (timestamp : Nat) : Tracks timestamp (p.see timestamp) := by
  intro t ht
  simp only [Child.see, halive, List.mem_append, List.mem_singleton, if_true, List.mem_filter, decide_eq_true_eq]
    at ht ⊢
  cases ht with
  | inl ht =>
      by_cases hle : t ≤ timestamp
      · exact .inl hle
      · exact .inr ⟨ht, by omega⟩
  | inr ht => exact .inl (by omega)

theorem tracks_see_of_dead (halive : p.alive = false) (timestamp : Nat) {timestamp' : Nat}
    (h : Tracks timestamp' p) : Tracks timestamp' (p.see timestamp) := by
  intro t ht
  simp only [Child.see, halive, List.mem_append, List.mem_singleton] at ht ⊢
  cases ht with
  | inl ht =>
      cases h t ht with
      | inl hle => exact .inl hle
      | inr hlost => simp [hlost]
  | inr ht => simp [ht]

/-- A message refreshes the watcher of its process while that is alive, and after its end none at all. -/
theorem Sound.updateMsg (h : s.Sound timeout) (hp : s.processes k = some p) {timestamp : Nat}
    (hstart : p.startTime ≤ timestamp) (hC : ∀ m ∈ s.list, m.processId = p.pid → s.current m.file = some k)
    {m' : MessageUpdater} (hm' : m' ∈ ThreadSafeList.updateMsg (s.pidStartTime p.pid) p.pid timestamp s.list) :
    (s.setProcess k (p.see timestamp)).Watches m' (Tracks m'.timestamp) := by
  obtain ⟨m, hm, rfl⟩ := List.mem_map.mp hm'
  by_cases hpid : p.pid = m.processId
  · obtain ⟨k', p', hk', hp', -, halone, htracks⟩ := h.list m hm
    obtain rfl : k = k' := Option.some.inj ((hC m hm hpid.symm).symm.trans hk')
    obtain rfl : p = p' := Option.some.inj (hp.symm.trans hp')
    have halone' (j : Nat) (hj : (s.setProcess k (p.see timestamp)).hasPid m.processId j = true) : j = k :=
      halone j (hasPid_see hp timestamp hj)
    cases halive : p.alive with
    | true =>
        have htime : s.pidStartTime p.pid = some p.startTime := by
          apply h.pidStartTime_eq hp halive
          rw [hpid]
          exact halone
        rw [htime, if_pos ⟨hpid, by simpa using hstart⟩]
        exact ⟨k, _, hk', processes_setProcess_self .., hpid, halone', tracks_see_of_alive halive timestamp⟩
    | false =>
        have htime : s.pidStartTime p.pid = none := by
          apply pidStartTime_eq_none
          intro j hj
          rw [hpid] at hj
          obtain rfl := halone j hj
          obtain ⟨p', hp', halive', -⟩ := hasPid_iff.mp hj
          obtain rfl : p = p' := Option.some.inj (hp.symm.trans hp')
          rw [halive] at halive'
          cases halive'
        rw [htime, if_neg (by simp)]
        exact ⟨k, _, hk', processes_setProcess_self .., hpid, halone', tracks_see_of_dead halive timestamp htracks⟩
  · rw [if_neg fun h => hpid h.1]
    exact (h.list m hm).see hp fun h => absurd h hpid

theorem Sound.message (h : s.Sound timeout) {timestamp : Nat} (hC : s.Orderly timeout (.message k timestamp)) :
    (s.step timeout self (.message k timestamp)).Sound timeout := by
  simp only [step]
  cases hp : s.processes k with
  | none => exact h
  | some p =>
      simp only [Orderly, hp, Option.all_some, Bool.and_eq_true, Bool.or_eq_true, List.all_eq_true,
        decide_eq_true_eq] at hC
      obtain ⟨hlist, hmessages⟩ := hC
      dsimp only
      split
      · rename_i htime
        obtain ⟨hstart, hnow⟩ := htime
        constructor
        · intro m hm
          refine h.updateMsg hp hstart (fun m hm hpid => ?_) hm
          exact (hlist m hm).resolve_left fun hne => hne hpid
        · intro m hm
          refine Watches.see hp (h.messages m hm) fun hpid hsilent t ht => ?_
          rw [Child.see, List.mem_append, List.mem_singleton] at ht
          cases ht with
          | inl ht => exact hsilent t ht
          | inr ht =>
              rw [ht]
              exact hmessages.resolve_left fun hall => hall m hm hpid.symm
        · intro k' p' hp' hpushed j hj
          have hj' : s.hasPid p'.pid j = true := hasPid_see hp _ hj
          by_cases hk : k' = k
          · subst hk
            obtain rfl := Option.some.inj ((processes_setProcess_self ..).symm.trans hp')
            exact h.unpushed k' p hp hpushed j hj'
          · exact h.unpushed k' p' ((processes_setProcess hk _).symm.trans hp') hpushed j hj'
        · exact h.submitted
        · intro j hj
          have hk : j ≠ k := (Nat.lt_of_lt_of_le (h.lt_spawned hp) hj).ne'
          exact (processes_setProcess hk _).trans (h.fresh j hj)
        · intro k' p' hp' t ht
          by_cases hk : k' = k
          · subst hk
            obtain rfl := Option.some.inj ((processes_setProcess_self ..).symm.trans hp')
            rw [Child.see, List.mem_append, List.mem_singleton] at ht
            cases ht with
            | inl ht => exact h.seen k' p hp t ht
            | inr ht => exact ht ▸ hnow
          · exact h.seen k' p' ((processes_setProcess hk _).symm.trans hp') t ht
      · exact h

theorem Sound.check (h : s.Sound timeout) (hC : s.Orderly timeout .check) :
    (s.step timeout self .check).Sound timeout := by
  simp only [step]
  split
  · refine h.of_same (.of_eq rfl) rfl (Nat.le_refl _) h.submitted (fun _ _ => rfl) h.list fun m hm => ?_
    have hlost := List.all_eq_true.mp hC m hm
    simp only [ThreadSafeList.checkExpiredMsg, List.mem_filter, decide_eq_true_eq] at hm
    obtain ⟨k, p, hk, hp, hpid, halone, htracks⟩ := h.list m hm.1
    refine ⟨k, p, hk, hp, hpid, halone, fun t ht => ?_⟩
    simp only [hk, Option.bind_some, hp, Option.all_some, List.all_eq_true, decide_eq_true_eq] at hlost
    cases htracks t ht with
    | inl hle => omega
    | inr ht => exact hlost t ht
  · exact h

theorem Sound.reap (h : s.Sound timeout) : (s.step timeout self .reap).Sound timeout := by
  simp only [step]
  cases hmessages : s.messages with
  | nil => exact h
  | cons m messages =>
      have hs : ({ s with messages, reaped := s.reaped ++ [m] } : Monitor).Sound timeout := by
        refine h.of_subset (.of_eq rfl) rfl rfl (Nat.le_refl _) (fun _ => id) (fun _ => id) ?_
        rw [hmessages]
        exact List.subset_cons_self m messages
      dsimp only
      split
      · exact hs
      · split
        · exact hs.updateTransferStatus
        · exact (hs.kill _).updateTransferStatus

/-- One orderly event keeps the invariant. -/
theorem Sound.step (h : s.Sound timeout) (e : MonitorEvent) (hC : s.Orderly timeout e) :
    (s.step timeout self e).Sound timeout := by
  cases e with
  | tick d => exact h.of_subset (.of_eq rfl) rfl rfl (Nat.le_add_right _ _) (fun _ => id) (fun _ => id) fun _ => id
  | claim file =>
      simp only [Monitor.step]
      split
      · exact h.setStatus (by simp)
      · exact h
  | forkFailed file =>
      simp only [Monitor.step]
      split
      · exact h.updateTransferStatus
      · exact h
  | spawn file pid => exact h.spawn hC
  | push k timestamp => exact h.push hC
  | message k timestamp => exact h.message hC
  | remove k =>
      simp only [Monitor.step]
      cases hp : s.processes k with
      | none => exact h
      | some p =>
          have hkeeps : Keeps p { p with removed := true } := ⟨rfl, rfl, fun _ => id, id, id⟩
          refine h.of_subset (sameProcesses_setProcess hp hkeeps rfl) rfl rfl (Nat.le_refl _) (fun _ => id) ?_ fun _ => id
          exact List.filter_subset_self _
  | settle k retried => exact h.settle hC
  | exit k =>
      simp only [Monitor.step]
      cases hp : s.processes k with
      | none => exact h
      | some p =>
          have hkeeps : Keeps p { p with alive := false } := ⟨rfl, rfl, fun _ => id, fun h => absurd h (by simp), id⟩
          refine h.of_subset (sameProcesses_setProcess hp hkeeps rfl) rfl rfl (Nat.le_refl _) (fun _ => id) ?_ ?_
          · exact fun _ => id
          · exact fun _ => id
  | check => exact h.check hC
  | reap => exact h.reap
  | delete =>
      simp only [Monitor.step]
      split
      · exact h.of_subset (.of_eq rfl) rfl rfl (Nat.le_refl _) (fun _ => id) (List.filter_subset_self _) fun _ => id
      · exact h
  | abort =>
      exact h.of_subset (.of_eq rfl) rfl rfl (Nat.le_refl _) (fun _ => id) (fun _ => id) (List.nil_subset _)

theorem Sound.initial : ({} : Monitor).Sound timeout where
  list := by simp
  messages := by simp
  unpushed _ _ hp := by cases hp
  submitted _ _ := rfl
  fresh _ _ := rfl
  seen _ _ hp := by cases hp

end events

/-! ## Runs -/

/-- In a run of orderly events, what `markAsStalled` is about to kill and to fail is the process of the current attempt of
the file, which no other process shares its pid with, and it has been silent for longer than the timeout. -/
theorem stall_detection_is_sound (timeout self : Nat) (es : List MonitorEvent)
    (hes : Meets (step timeout self) (Orderly timeout) {} es) :
    ∀ m ∈ (run (step timeout self) {} es).messages, (run (step timeout self) {} es).Justified timeout m := by
  have hsound : (run (step timeout self) {} es).Sound timeout := hes.invariant (fun _ e hC h => h.step e hC) .initial
  exact hsound.messages

/-- A transfer that stops after its first message. -/
def stalled : List MonitorEvent :=
  [.claim ("a", 1), .spawn ("a", 1) 7, .push 0 0, .message 0 0, .tick 901, .check]

theorem stall_detection_is_sound_stalled : Meets (step 900 1) (Orderly 900) {} stalled ∧
    (run (step 900 1) {} stalled).messages = [{ jobId := "a", fileId := 1, processId := 7, timestamp := 0 }] ∧
    ∀ m ∈ (run (step 900 1) {} stalled).messages, (run (step 900 1) {} stalled).Justified 900 m :=
  ⟨by decide, by decide, stall_detection_is_sound 900 1 stalled (by decide)⟩

/-- A transfer fails and is retried before its executor puts it on the list, and the second attempt is at work. -/
def fastFailure : List MonitorEvent :=
  [.claim ("a", 1), .spawn ("a", 1) 7, .remove 0, .settle 0 true, .exit 0, .push 0 0, .claim ("a", 1), .spawn ("a", 1) 8,
    .push 1 0, .tick 901, .message 1 901, .check]

/-- A transfer dies without a word, and its pid is given to another one before its watcher expires. -/
def pidReuse : List MonitorEvent :=
  [.claim ("a", 1), .spawn ("a", 1) 7, .push 0 0, .exit 0, .tick 900, .claim ("b", 2), .spawn ("b", 2) 7, .push 1 900,
    .tick 1,
    .check]

/-- The watcher of the first attempt fails the second one, and the one of a dead process kills another transfer. -/
theorem stall_detection_is_unsound :
    (∃ m ∈ (run (step 900 1) {} fastFailure).messages, ¬ (run (step 900 1) {} fastFailure).Justified 900 m) ∧
      (run (step 900 1) {} (fastFailure ++ [.reap])).status ("a", 1) = .terminal ∧
      (run (step 900 1) {} (fastFailure ++ [.reap])).hasPid 8 1 = true ∧
      (∃ m ∈ (run (step 900 1) {} pidReuse).messages, ¬ (run (step 900 1) {} pidReuse).Justified 900 m) ∧
      (run (step 900 1) {} pidReuse).hasPid 7 1 = true ∧
      (run (step 900 1) {} (pidReuse ++ [.reap])).hasPid 7 1 = false := by
  refine ⟨⟨{ jobId := "a", fileId := 1, processId := 7, timestamp := 0 }, by decide, ?_⟩, by decide, by decide,
    ⟨{ jobId := "a", fileId := 1, processId := 7, timestamp := 0 }, by decide, ?_⟩, by decide, by decide⟩
  · rintro ⟨k, p, hk, hp, hpid, -⟩
    -- the current attempt is the second process, and it has the other pid
    have hcurrent : (run (step 900 1) {} fastFailure).current ("a", 1) = some 1 := by decide
    obtain rfl : 1 = k := Option.some.inj (hcurrent.symm.trans hk)
    have hpids : ((run (step 900 1) {} fastFailure).processes 1).map (·.pid) = some 8 := by decide
    rw [hp, Option.map_some, Option.some.injEq, hpid] at hpids
    cases hpids
  · rintro ⟨k, p, hk, -, -, halone, -⟩
    have hcurrent : (run (step 900 1) {} pidReuse).current ("a", 1) = some 0 := by decide
    obtain rfl : 0 = k := Option.some.inj (hcurrent.symm.trans hk)
    have hone : 1 = 0 := halone 1 (by decide)
    cases hone

end Monitor

end Fts3.Server
