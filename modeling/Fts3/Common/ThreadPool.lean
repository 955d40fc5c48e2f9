import Fts3.Machine.Run
import Mathlib.Algebra.BigOperators.Group.List.Basic
import Mathlib.Algebra.Group.Basic
import Mathlib.Data.List.Perm.Basic
import Mathlib.Tactic.Abel

/-!
# The thread pool

`ThreadPool.h`. The section that one thread runs under the lock is one step, and so is what it does between two such
sections: to notify, to run a task, to wake from the condition variable.
-/

namespace Fts3.Common

open Fts3.Machine

variable {T M : Type}

/-! ## The pool -/

inductive WorkerStatus (T : Type) where
  /-- Before the test of the loop. -/
  | looping
  /-- In `cvar.wait`. -/
  | waiting
  /-- Has left `cvar.wait` and asks for the lock. -/
  | woken
  | running (task : T)
  | exited
  deriving DecidableEq

structure ThreadPoolWorker (T M : Type) where
  status : WorkerStatus T := .looping
  threadContext : Option M
  deriving DecidableEq

structure ThreadPool (T M : Type) where
  tasks : List T := []
  workers : List (ThreadPoolWorker T M)
  interruptFlag : Bool := false
  joinFlag : Bool := false
  deriving DecidableEq

/-- The constructor. `initContext` is what the initialisation function puts into an empty context. -/
def ThreadPool.create (size : Nat) (initContext : Option M) : ThreadPool T M where
  workers := List.replicate size { threadContext := initContext }

def WorkerStatus.notified : WorkerStatus T → WorkerStatus T
  | .waiting => .woken
  | status => status

/-- `cvar.notify_all`. -/
def ThreadPool.notifyAll (pool : ThreadPool T M) : ThreadPool T M :=
  { pool with workers := pool.workers.map fun w => { w with status := w.status.notified } }

def ThreadPool.setStatus (pool : ThreadPool T M) (i : Nat) (w : ThreadPoolWorker T M) (status : WorkerStatus T) :
    ThreadPool T M :=
  { pool with workers := pool.workers.set i { w with status := status } }

/-- One turn of the loop of `next` under the lock. A worker that gets no task leaves its loop. -/
def ThreadPool.next (pool : ThreadPool T M) (i : Nat) (w : ThreadPoolWorker T M) : ThreadPool T M :=
  match pool.tasks with
  | [] => if pool.joinFlag then pool.setStatus i w .exited else pool.setStatus i w .waiting
  | task :: tasks => { pool with tasks := tasks }.setStatus i w (.running task)

def ThreadPool.reduce [Zero M] (op : M → M → M) (pool : ThreadPool T M) : M :=
  pool.workers.foldl (fun init w => match w.threadContext with | none => init | some data => op init data) 0

/-! ## The thread that uses it -/

/-- Where the caller is: it calls `start` for each task and then `join`. -/
inductive Caller (T : Type) where
  | starting (rest : List T)
  | notifying (rest : List T)
  /-- In `join`, with the flag raised. -/
  | raised
  /-- In `group.join_all`. -/
  | joining
  | returned
  deriving DecidableEq

/-- A task that has been run, with the context of its worker before and after. -/
structure Executed (T M : Type) where
  task : T
  before : Option M
  after : Option M
  deriving DecidableEq

structure System (T M : Type) where
  pool : ThreadPool T M
  caller : Caller T
  executed : List (Executed T M) := []
  deriving DecidableEq

/-- Which thread takes its next step. A task leaves any context. -/
inductive Event (M : Type) where
  | caller
  | worker (i : Nat) (context : Option M)
  | spuriousWakeup (i : Nat)
  deriving DecidableEq

def Event.isSpurious : Event M → Bool
  | .spuriousWakeup _ => true
  | _ => false

def System.callerStep (s : System T M) : System T M :=
  match s.caller with
  | .starting (task :: rest) => { s with pool := { s.pool with tasks := s.pool.tasks ++ [task] }, caller := .notifying rest }
  | .notifying rest => { s with pool := s.pool.notifyAll, caller := .starting rest }
  | .starting [] => { s with pool := { s.pool with joinFlag := true }, caller := .raised }
  | .raised => { s with pool := s.pool.notifyAll, caller := .joining }
  | .joining => { s with caller := .returned }
  | .returned => s

/-- One step of `ThreadPoolWorker::run`. -/
def System.workerStep (s : System T M) (i : Nat) (w : ThreadPoolWorker T M) (context : Option M) : System T M :=
  match w.status with
  | .looping => { s with pool := if s.pool.interruptFlag then s.pool.setStatus i w .exited else s.pool.next i w }
  | .woken => { s with pool := s.pool.next i w }
  | .running task =>
      { s with
        pool := s.pool.setStatus i { w with threadContext := context } .looping
        executed := s.executed ++ [{ task := task, before := w.threadContext, after := context }] }
  | .waiting => s
  | .exited => s

def step (s : System T M) : Event M → System T M
  | .caller => s.callerStep
  | .worker i context =>
      match s.pool.workers[i]? with
      | none => s
      | some w => s.workerStep i w context
  | .spuriousWakeup i =>
      match s.pool.workers[i]? with
      | none => s
      | some w => { s with pool := s.pool.setStatus i w .woken }

def WorkerStatus.isExited : WorkerStatus T → Bool
  | .exited => true
  | _ => false

def WorkerStatus.isWaiting : WorkerStatus T → Bool
  | .waiting => true
  | _ => false

/-- The steps that the threads can take: `join_all` returns when all the workers have left their loops. -/
def Enabled (s : System T M) : Event M → Bool
  | .caller =>
      match s.caller with
      | .joining => s.pool.workers.all (·.status.isExited)
      | .returned => false
      | _ => true
  | .worker i _ => (s.pool.workers[i]?).any fun w => !w.status.isWaiting && !w.status.isExited
  | .spuriousWakeup i => (s.pool.workers[i]?).any (·.status.isWaiting)

def System.create (size : Nat) (initContext : Option M) (tasks : List T) : System T M where
  pool := .create size initContext
  caller := .starting tasks

/-! ## What a step can do -/

/-- The step of a worker, by what it does to the worker. -/
inductive WorkerMove (s : System T M) : System T M → Prop where
  | exits {before after w} (hw : s.pool.workers = before ++ w :: after) (hasks : w.status = .looping ∨ w.status = .woken)
      (htasks : s.pool.tasks = []) (hjoin : s.pool.joinFlag = true) :
      WorkerMove s { s with pool := { s.pool with workers := before ++ { w with status := .exited } :: after } }
  | waits {before after w} (hw : s.pool.workers = before ++ w :: after) (hasks : w.status = .looping ∨ w.status = .woken)
      (htasks : s.pool.tasks = []) (hjoin : s.pool.joinFlag = false) :
      WorkerMove s { s with pool := { s.pool with workers := before ++ { w with status := .waiting } :: after } }
  | takes {before after w task tasks} (hw : s.pool.workers = before ++ w :: after)
      (hasks : w.status = .looping ∨ w.status = .woken) (htasks : s.pool.tasks = task :: tasks) :
      WorkerMove s
        { s with pool := { s.pool with tasks, workers := before ++ { w with status := .running task } :: after } }
  | runs {before after w task context} (hw : s.pool.workers = before ++ w :: after) (hrunning : w.status = .running task) :
      WorkerMove s
        { s with
          pool := { s.pool with workers := before ++ { status := .looping, threadContext := context } :: after }
          executed := s.executed ++ [{ task, before := w.threadContext, after := context }] }

theorem set_split {α : Type} {l : List α} {i : Nat} {a : α} (h : l[i]? = some a) :
    ∃ before after, l = before ++ a :: after ∧ ∀ b, l.set i b = before ++ b :: after := by
  induction l generalizing i with
  | nil => simp at h
  | cons c l ih =>
      cases i with
      | zero =>
          obtain rfl : c = a := by simpa using h
          exact ⟨[], l, rfl, fun b => rfl⟩
      | succ i =>
          obtain ⟨before, after, hl, hset⟩ := ih (by simpa using h)
          exact ⟨c :: before, after, by rw [hl, List.cons_append], fun b => by rw [List.set_cons_succ, hset, List.cons_append]⟩

section steps

variable {s : System T M} {i : Nat} {w : ThreadPoolWorker T M} {context : Option M}

theorem next_move (hw : s.pool.workers[i]? = some w) (hasks : w.status = .looping ∨ w.status = .woken) :
    WorkerMove s { s with pool := s.pool.next i w } := by
  obtain ⟨before, after, hsplit, hset⟩ := set_split hw
  unfold ThreadPool.next
  cases htasks : s.pool.tasks with
  | nil =>
      cases hjoin : s.pool.joinFlag with
      | false => simpa [ThreadPool.setStatus, hset] using WorkerMove.waits hsplit hasks htasks hjoin
      | true => simpa [ThreadPool.setStatus, hset] using WorkerMove.exits hsplit hasks htasks hjoin
  | cons task tasks => simpa [ThreadPool.setStatus, hset] using WorkerMove.takes hsplit hasks htasks

theorem worker_move (hinterrupt : s.pool.interruptFlag = false) (henabled : Enabled s (.worker i context)) :
    WorkerMove s (step s (.worker i context)) := by
  unfold Enabled at henabled
  cases hw : s.pool.workers[i]? with
  | none => simp [hw] at henabled
  | some w =>
      simp only [hw, Option.any_some, Bool.and_eq_true, Bool.not_eq_true'] at henabled
      have hstep : step s (.worker i context) = s.workerStep i w context := by simp only [step, hw]
      rw [hstep, System.workerStep]
      cases hstatus : w.status with
      | looping =>
          simp only [hinterrupt, Bool.false_eq_true, if_false]
          exact next_move hw (.inl hstatus)
      | waiting => simp [hstatus, WorkerStatus.isWaiting] at henabled
      | woken => exact next_move hw (.inr hstatus)
      | running task =>
          obtain ⟨before, after, hsplit, hset⟩ := set_split hw
          simpa [ThreadPool.setStatus, hset] using WorkerMove.runs hsplit hstatus
      | exited => simp [hstatus, WorkerStatus.isExited] at henabled

theorem spuriousWakeup_split (henabled : Enabled s (.spuriousWakeup i)) :
    ∃ before after w, s.pool.workers = before ++ w :: after ∧ w.status = .waiting ∧ step s (.spuriousWakeup i) =
      { s with pool := { s.pool with workers := before ++ { w with status := .woken } :: after } } := by
  unfold Enabled at henabled
  cases hw : s.pool.workers[i]? with
  | none => simp [hw] at henabled
  | some w =>
      have hstep : step s (.spuriousWakeup i) = { s with pool := s.pool.setStatus i w .woken } := by simp only [step, hw]
      obtain ⟨before, after, hsplit, hset⟩ := set_split hw
      cases hstatus : w.status with
      | waiting => exact ⟨before, after, w, hsplit, hstatus, by rw [hstep, ThreadPool.setStatus, hset]⟩
      | _ => simp [hw, hstatus, WorkerStatus.isWaiting] at henabled

end steps

/-! ## Where the tasks are -/

def WorkerStatus.held : WorkerStatus T → List T
  | .running task => [task]
  | _ => []

/-- The tasks that the workers are running. -/
def held (workers : List (ThreadPoolWorker T M)) : List T :=
  workers.flatMap (·.status.held)

/-- The tasks that the caller has not put into the queue. -/
def Caller.rest : Caller T → List T
  | .starting rest => rest
  | .notifying rest => rest
  | _ => []

@[simp] theorem held_append (workers workers' : List (ThreadPoolWorker T M)) :
    held (workers ++ workers') = held workers ++ held workers' :=
  List.flatMap_append

@[simp] theorem held_cons (w : ThreadPoolWorker T M) (workers : List (ThreadPoolWorker T M)) :
    held (w :: workers) = w.status.held ++ held workers := rfl

theorem held_notified (workers : List (ThreadPoolWorker T M)) :
    held (workers.map fun w => { w with status := w.status.notified }) = held workers := by
  induction workers with
  | nil => rfl
  | cons w workers ih =>
      rw [List.map_cons, held_cons, held_cons, ih]
      cases w.status <;> rfl

theorem held_of_exited {workers : List (ThreadPoolWorker T M)} (h : ∀ w ∈ workers, w.status = .exited) :
    held workers = [] := by
  apply List.flatMap_eq_nil_iff.mpr
  intro w hw
  rw [h w hw]
  rfl

theorem held_of_asks {w : ThreadPoolWorker T M} (h : w.status = .looping ∨ w.status = .woken) : w.status.held = [] := by
  rcases h with h | h
  · rw [h]
    rfl
  · rw [h]
    rfl

/-! ## What the contexts accumulate -/

section accumulate

variable [AddCommGroup M]

/-- The sum over the contexts, of which an empty one counts as nothing. -/
def total (workers : List (ThreadPoolWorker T M)) : M :=
  (workers.map fun w => w.threadContext.getD 0).sum

/-- What a task has added to the context of its worker. -/
def Executed.added (e : Executed T M) : M :=
  e.after.getD 0 - e.before.getD 0

@[simp] theorem total_append (workers workers' : List (ThreadPoolWorker T M)) :
    total (workers ++ workers') = total workers + total workers' := by
  simp [total]

@[simp] theorem total_cons (w : ThreadPoolWorker T M) (workers : List (ThreadPoolWorker T M)) :
    total (w :: workers) = w.threadContext.getD 0 + total workers := by
  simp [total]

theorem total_notified (workers : List (ThreadPoolWorker T M)) :
    total (workers.map fun w => { w with status := w.status.notified }) = total workers := by
  simp [total, Function.comp_def]

theorem total_create (size : Nat) (initContext : Option M) :
    total (List.replicate size ({ threadContext := initContext } : ThreadPoolWorker T M)) = size • initContext.getD 0 := by
  simp [total]

theorem reduce_plus (pool : ThreadPool T M) : pool.reduce (· + ·) = total pool.workers := by
  have hfold : ∀ (workers : List (ThreadPoolWorker T M)) (init : M),
      workers.foldl (fun init w => match w.threadContext with | none => init | some data => init + data) init =
        init + total workers := by
    intro workers
    induction workers with
    | nil => simp [total]
    | cons w workers ih =>
        intro init
        rw [List.foldl_cons, ih, total_cons]
        cases w.threadContext with
        | none => simp
        | some data => simp [add_assoc]
  rw [ThreadPool.reduce, hfold, zero_add]

end accumulate

/-! ## The invariant -/

/-- `join` has raised its flag. -/
def Caller.hasJoined : Caller T → Bool
  | .raised => true
  | .joining => true
  | .returned => true
  | _ => false

/-- `join` has notified the workers. -/
def Caller.hasNotified : Caller T → Bool
  | .joining => true
  | .returned => true
  | _ => false

structure Inv [AddCommGroup M] (size : Nat) (initContext : Option M) (tasks : List T) (s : System T M) : Prop where
  length : s.pool.workers.length = size
  interrupt : s.pool.interruptFlag = false
  joined : s.pool.joinFlag = s.caller.hasJoined
  awake : s.caller.hasNotified → ∀ w ∈ s.pool.workers, w.status ≠ .waiting
  exited : ∀ w ∈ s.pool.workers, w.status = .exited → s.pool.joinFlag = true ∧ s.pool.tasks = []
  returned : s.caller = .returned → ∀ w ∈ s.pool.workers, w.status = .exited
  once : (s.executed.map (·.task) ++ held s.pool.workers ++ s.pool.tasks ++ s.caller.rest).Perm tasks
  added : total s.pool.workers = size • initContext.getD 0 + (s.executed.map (·.added)).sum

theorem mem_notifyAll {pool : ThreadPool T M} {w : ThreadPoolWorker T M} (hw : w ∈ pool.notifyAll.workers) :
    w.status ≠ .waiting ∧ (w.status = .exited → w ∈ pool.workers) := by
  obtain ⟨v, hv, rfl⟩ := List.mem_map.mp hw
  cases hstatus : v.status with
  | exited =>
      have hv' : { v with status := .exited } = v := by rw [← hstatus]
      simp [WorkerStatus.notified, hv', hv]
  | _ => simp [WorkerStatus.notified]

section invariant

variable [AddCommGroup M] {size : Nat} {initContext : Option M} {tasks : List T} {s s' : System T M}

theorem Inv.create (size : Nat) (initContext : Option M) (tasks : List T) :
    Inv size initContext tasks (System.create size initContext tasks) where
  length := List.length_replicate
  interrupt := rfl
  joined := rfl
  awake h := by simp [System.create, Caller.hasNotified] at h
  exited w hw h := by
    rw [List.eq_of_mem_replicate hw] at h
    cases h
  returned h := by cases h
  once := by
    have hheld : held (List.replicate size ({ threadContext := initContext } : ThreadPoolWorker T M)) = [] := by
      apply List.flatMap_eq_nil_iff.mpr
      intro w hw
      rw [List.eq_of_mem_replicate hw]
      rfl
    simp [System.create, ThreadPool.create, hheld, Caller.rest]
  added := by simp [System.create, ThreadPool.create, total_create]

/-- One worker is replaced, and what it held before it holds now, or is in the queue, or has been run. -/
theorem Inv.replace {before after : List (ThreadPoolWorker T M)} {w w' : ThreadPoolWorker T M} {queue : List T}
    {executed : List (Executed T M)} (h : Inv size initContext tasks s) (hw : s.pool.workers = before ++ w :: after)
    (hlive : w.status ≠ .exited) (hawake : s.caller.hasNotified → w'.status ≠ .waiting)
    (hexited : w'.status = .exited → s.pool.joinFlag = true ∧ queue = []) (hqueue : s.pool.tasks = [] → queue = [])
    (honce : (executed.map (·.task) ++ w'.status.held ++ queue).Perm
      (s.executed.map (·.task) ++ w.status.held ++ s.pool.tasks))
    (hadded : w'.threadContext.getD 0 + (s.executed.map (·.added)).sum =
      w.threadContext.getD 0 + (executed.map (·.added)).sum) :
    Inv size initContext tasks
      { s with pool := { s.pool with tasks := queue, workers := before ++ w' :: after }, executed := executed } := by
  have hmem : ∀ {v}, v ∈ before ++ w' :: after → v = w' ∨ v ∈ s.pool.workers := by
    intro v hv
    rw [hw]
    rcases List.mem_append.mp hv with hv | hv
    · exact .inr (List.mem_append_left _ hv)
    · rcases List.mem_cons.mp hv with hv | hv
      · exact .inl hv
      · exact .inr (by simp [hv])
  constructor
  · have hlength := h.length
    rw [hw] at hlength
    simpa using hlength
  · exact h.interrupt
  · exact h.joined
  · intro hnotified v hv
    rcases hmem hv with rfl | hv
    · exact hawake hnotified
    · exact h.awake hnotified v hv
  · intro v hv hstatus
    rcases hmem hv with rfl | hv
    · exact hexited hstatus
    · obtain ⟨hjoin, htasks⟩ := h.exited v hv hstatus
      exact ⟨hjoin, hqueue htasks⟩
  · intro hreturned
    exact absurd (h.returned hreturned w (by simp [hw])) hlive
  · classical
    have hbefore := h.once
    rw [hw] at hbefore
    rw [List.perm_iff_count] at hbefore honce ⊢
    intro task
    have hbefore := hbefore task
    have honce := honce task
    simp only [held_append, held_cons, List.count_append] at hbefore honce ⊢
    omega
  · have hbefore := h.added
    rw [hw, total_append, total_cons] at hbefore
    rw [total_append, total_cons]
    have hsum : total before + (w.threadContext.getD 0 + total after) + (executed.map (·.added)).sum =
        size • initContext.getD 0 + (s.executed.map (·.added)).sum + (executed.map (·.added)).sum := by rw [hbefore]
    have hmoved : total before + (w'.threadContext.getD 0 + total after) + (s.executed.map (·.added)).sum =
        total before + (w.threadContext.getD 0 + total after) + (executed.map (·.added)).sum := by
      calc total before + (w'.threadContext.getD 0 + total after) + (s.executed.map (·.added)).sum
          = total before + total after + (w'.threadContext.getD 0 + (s.executed.map (·.added)).sum) := by abel
        _ = total before + total after + (w.threadContext.getD 0 + (executed.map (·.added)).sum) := by rw [hadded]
        _ = total before + (w.threadContext.getD 0 + total after) + (executed.map (·.added)).sum := by abel
    apply add_right_cancel (b := (s.executed.map (·.added)).sum)
    rw [hmoved, hsum]
    abel

theorem Inv.worker (h : Inv size initContext tasks s) (hmove : WorkerMove s s') : Inv size initContext tasks s' := by
  have hasking : ∀ {w : ThreadPoolWorker T M}, w.status = .looping ∨ w.status = .woken → w.status ≠ .exited := by
    rintro w (hstatus | hstatus)
    · simp [hstatus]
    · simp [hstatus]
  cases hmove with
  | exits hw hasks htasks hjoin =>
      apply h.replace hw (hasking hasks)
      · simp
      · exact fun _ => ⟨hjoin, htasks⟩
      · exact id
      · rw [held_of_asks hasks]
        exact List.Perm.refl _
      · rfl
  | waits hw hasks htasks hjoin =>
      apply h.replace hw (hasking hasks)
      · -- the flag is raised before the workers are notified
        intro hnotified
        rw [h.joined] at hjoin
        cases hcaller : s.caller with
        | _ => simp_all [Caller.hasJoined, Caller.hasNotified]
      · simp
      · exact id
      · rw [held_of_asks hasks]
        exact List.Perm.refl _
      · rfl
  | takes hw hasks htasks =>
      apply h.replace hw (hasking hasks)
      · simp
      · simp
      · simp [htasks]
      · rw [held_of_asks hasks, htasks]
        simp [WorkerStatus.held]
      · rfl
  | @runs _ _ w task context hw hrunning =>
      apply h.replace hw (by simp [hrunning])
      · simp
      · simp
      · exact id
      · simp [hrunning, WorkerStatus.held]
      · simp only [List.map_append, List.map_cons, List.map_nil, List.sum_append, List.sum_singleton, Executed.added]
        abel

theorem Inv.spuriousWakeup {i : Nat} (h : Inv size initContext tasks s) (henabled : Enabled s (.spuriousWakeup i)) :
    Inv size initContext tasks (step s (.spuriousWakeup i)) := by
  obtain ⟨before, after, w, hw, hwaiting, hstep⟩ := spuriousWakeup_split henabled
  rw [hstep]
  apply h.replace hw (by simp [hwaiting])
  · simp
  · simp
  · exact id
  · simp [hwaiting, WorkerStatus.held]
  · rfl

/-- The caller notifies the workers, and goes on. -/
theorem Inv.notifyAll {caller : Caller T} (h : Inv size initContext tasks s) (hcaller : caller ≠ .returned)
    (hjoined : caller.hasJoined = s.caller.hasJoined)
    (hrest : caller.rest = s.caller.rest) :
    Inv size initContext tasks { s with pool := s.pool.notifyAll, caller := caller } := by
  constructor
  · simpa [ThreadPool.notifyAll] using h.length
  · exact h.interrupt
  · exact h.joined.trans hjoined.symm
  · exact fun _ w hw => (mem_notifyAll hw).1
  · exact fun w hw hstatus => h.exited w ((mem_notifyAll hw).2 hstatus) hstatus
  · exact fun hreturned => absurd hreturned hcaller
  · have honce := h.once
    simpa [ThreadPool.notifyAll, held_notified, hrest] using honce
  · have hadded := h.added
    simpa [ThreadPool.notifyAll, total_notified] using hadded

theorem Inv.caller (h : Inv size initContext tasks s) (henabled : Enabled s .caller) :
    Inv size initContext tasks (step s .caller) := by
  have hjoined := h.joined
  have honce := h.once
  simp only [step, System.callerStep]
  cases hcaller : s.caller with
  | starting rest =>
      rw [hcaller] at hjoined honce
      cases rest with
      | nil =>
          exact { h with
            joined := rfl
            awake := fun h => by simp [Caller.hasNotified] at h
            exited := fun w hw hstatus => ⟨rfl, (h.exited w hw hstatus).2⟩
            returned := fun h => by cases h
            once := honce }
      | cons task rest =>
          exact { h with
            joined := hjoined
            awake := fun h => by simp [Caller.hasNotified] at h
            exited := fun w hw hstatus => by
              -- no worker has left its loop before the flag is raised
              rw [(h.exited w hw hstatus).1] at hjoined
              cases hjoined
            returned := fun h => by cases h
            once := by simpa [Caller.rest] using honce }
  | notifying rest =>
      apply h.notifyAll
      · simp
      · simp [hcaller, Caller.hasJoined]
      · simp [hcaller, Caller.rest]
  | raised =>
      apply h.notifyAll
      · simp
      · simp [hcaller, Caller.hasJoined]
      · simp [hcaller, Caller.rest]
  | joining =>
      have hall : ∀ w ∈ s.pool.workers, w.status = .exited := by
        intro w hw
        rw [Enabled, hcaller] at henabled
        have hexited := List.all_eq_true.mp henabled w hw
        cases hstatus : w.status with
        | exited => rfl
        | _ => simp [hstatus, WorkerStatus.isExited] at hexited
      rw [hcaller] at hjoined honce
      exact { h with
        joined := hjoined
        awake := fun _ w hw => by simp [hall w hw]
        returned := fun _ => hall
        once := honce }
  | returned =>
      rw [Enabled, hcaller] at henabled
      cases henabled

theorem Inv.step {e : Event M} (h : Inv size initContext tasks s) (henabled : Enabled s e) :
    Inv size initContext tasks (step s e) := by
  cases e with
  | caller => exact h.caller henabled
  | worker i context => exact h.worker (worker_move h.interrupt henabled)
  | spuriousWakeup i => exact h.spuriousWakeup henabled

/-- Until `join` has returned there is a thread that can go on. -/
theorem Inv.exists_enabled (h : Inv size initContext tasks s) (hlive : s.caller ≠ .returned) :
    ∃ e, Enabled s e ∧ e.isSpurious = false := by
  cases hcaller : s.caller with
  | joining =>
      by_cases hall : s.pool.workers.all (·.status.isExited)
      · exact ⟨.caller, by simpa [Enabled, hcaller] using hall, rfl⟩
      · obtain ⟨w, hw, hexited⟩ : ∃ w ∈ s.pool.workers, w.status.isExited = false := by simpa using hall
        obtain ⟨i, hi⟩ := List.mem_iff_getElem?.mp hw
        -- after the notification no worker waits
        have hwaiting : w.status.isWaiting = false := by
          have hawake := h.awake (by simp [hcaller, Caller.hasNotified]) w hw
          cases hstatus : w.status with
          | waiting => exact absurd hstatus hawake
          | _ => rfl
        exact ⟨.worker i none, by simp [Enabled, hi, hexited, hwaiting], rfl⟩
  | returned => exact absurd hcaller hlive
  | _ => exact ⟨.caller, by simp [Enabled, hcaller], rfl⟩

/-- When `join` has returned, all the tasks have been run. -/
theorem Inv.executed_perm (h : Inv size initContext tasks s) (hsize : 0 < size) (hreturned : s.caller = .returned) :
    (s.executed.map (·.task)).Perm tasks := by
  have hall := h.returned hreturned
  obtain ⟨w, hw⟩ := List.exists_mem_of_length_pos (h.length.symm ▸ hsize)
  have honce := h.once
  rw [held_of_exited hall, (h.exited w hw (hall w hw)).2, hreturned] at honce
  simpa [Caller.rest] using honce

/-- A worker that has left its loop leaves nothing behind. -/
theorem Inv.tasks_of_exited (h : Inv size initContext tasks s) {w : ThreadPoolWorker T M} (hw : w ∈ s.pool.workers)
    (hexited : w.status = .exited) : s.pool.tasks = [] ∧ s.caller.rest = [] := by
  obtain ⟨hjoin, htasks⟩ := h.exited w hw hexited
  constructor
  · exact htasks
  · rw [h.joined] at hjoin
    cases hcaller : s.caller with
    | starting rest => simp [hcaller, Caller.hasJoined] at hjoin
    | notifying rest => simp [hcaller, Caller.hasJoined] at hjoin
    | _ => rfl

end invariant

/-! ## The number of steps -/

def WorkerStatus.weight : WorkerStatus T → Nat
  | .looping => 1
  | .waiting => 0
  | .woken => 1
  | .running _ => 2
  | .exited => 0

/-- A notification can wake all the workers, which then ask for the lock again. -/
def Caller.weight (size : Nat) : Caller T → Nat
  | .starting rest => rest.length * (size + 4) + (size + 3)
  | .notifying rest => rest.length * (size + 4) + (size + 3) + (size + 1)
  | .raised => size + 2
  | .joining => 1
  | .returned => 0

def weight (workers : List (ThreadPoolWorker T M)) : Nat :=
  (workers.map (·.status.weight)).sum

/-- What the threads can still do without spurious wake-ups. -/
def System.potential (s : System T M) : Nat :=
  weight s.pool.workers + 2 * s.pool.tasks.length + s.caller.weight s.pool.workers.length

@[simp] theorem weight_append (workers workers' : List (ThreadPoolWorker T M)) :
    weight (workers ++ workers') = weight workers + weight workers' := by
  simp [weight]

@[simp] theorem weight_cons (w : ThreadPoolWorker T M) (workers : List (ThreadPoolWorker T M)) :
    weight (w :: workers) = w.status.weight + weight workers := by
  simp [weight]

theorem weight_notified (workers : List (ThreadPoolWorker T M)) :
    weight (workers.map fun w => { w with status := w.status.notified }) ≤ weight workers + workers.length := by
  induction workers with
  | nil => simp [weight]
  | cons w workers ih =>
      have hw : w.status.notified.weight ≤ w.status.weight + 1 := by
        cases w.status with
        | _ => simp [WorkerStatus.notified, WorkerStatus.weight]
      rw [List.map_cons, weight_cons, weight_cons, List.length_cons]
      dsimp only
      omega

section potential

variable {s s' : System T M}

theorem weight_of_asks {w : ThreadPoolWorker T M} (h : w.status = .looping ∨ w.status = .woken) :
    w.status.weight = 1 := by
  rcases h with h | h
  · rw [h]
    rfl
  · rw [h]
    rfl

theorem WorkerMove.potential (hmove : WorkerMove s s') : s'.potential + 1 ≤ s.potential := by
  cases hmove with
  | exits hw hasks htasks hjoin =>
      have hweight := weight_of_asks hasks
      simp only [System.potential, hw, weight_append, weight_cons, List.length_append, List.length_cons, hweight]
      simp only [WorkerStatus.weight]
      omega
  | waits hw hasks htasks hjoin =>
      have hweight := weight_of_asks hasks
      simp only [System.potential, hw, weight_append, weight_cons, List.length_append, List.length_cons, hweight]
      simp only [WorkerStatus.weight]
      omega
  | takes hw hasks htasks =>
      have hweight := weight_of_asks hasks
      simp only [System.potential, hw, htasks, weight_append, weight_cons, List.length_append, List.length_cons, hweight]
      simp only [WorkerStatus.weight]
      omega
  | runs hw hrunning =>
      simp only [System.potential, hw, hrunning, weight_append, weight_cons, List.length_append, List.length_cons,
        WorkerStatus.weight]
      omega

theorem spuriousWakeup_potential {i : Nat} (henabled : Enabled s (.spuriousWakeup i)) :
    (step s (.spuriousWakeup i)).potential = s.potential + 1 := by
  obtain ⟨before, after, w, hw, hwaiting, hstep⟩ := spuriousWakeup_split henabled
  rw [hstep]
  simp only [System.potential, hw, hwaiting, weight_append, weight_cons, List.length_append, List.length_cons,
    WorkerStatus.weight]
  omega

theorem caller_potential (henabled : Enabled s .caller) : (step s .caller).potential + 1 ≤ s.potential := by
  have hnotified : weight s.pool.notifyAll.workers ≤ weight s.pool.workers + s.pool.workers.length :=
    weight_notified s.pool.workers
  have hlength : s.pool.notifyAll.workers.length = s.pool.workers.length := List.length_map _
  simp only [step, System.callerStep]
  cases hcaller : s.caller with
  | starting rest =>
      cases rest with
      | nil =>
          simp only [System.potential, hcaller, Caller.weight, List.length_nil]
          omega
      | cons task rest =>
          simp only [System.potential, hcaller, Caller.weight, List.length_append, List.length_cons, List.length_nil,
            Nat.add_mul]
          omega
  | notifying rest =>
      simp only [System.potential, hcaller, hlength, Caller.weight]
      change weight s.pool.notifyAll.workers + 2 * s.pool.tasks.length + _ + 1 ≤ _
      omega
  | raised =>
      simp only [System.potential, hcaller, Caller.weight]
      change weight s.pool.notifyAll.workers + 2 * s.pool.tasks.length + _ + 1 ≤ _
      omega
  | joining =>
      simp only [System.potential, hcaller, Caller.weight]
      omega
  | returned =>
      rw [Enabled, hcaller] at henabled
      cases henabled

/-- What a spurious wake-up adds. -/
def Event.cost : Event M → Nat
  | .spuriousWakeup _ => 2
  | _ => 0

theorem step_potential {e : Event M} (hinterrupt : s.pool.interruptFlag = false) (henabled : Enabled s e) :
    (step s e).potential + 1 ≤ s.potential + e.cost := by
  cases e with
  | caller => exact caller_potential henabled
  | worker i context => exact (worker_move hinterrupt henabled).potential
  | spuriousWakeup i => exact Nat.le_of_eq (congrArg (· + 1) (spuriousWakeup_potential henabled))

end potential

/-! ## Runs -/

/-- Each task is run once, by all the schedules: `s` is the state after the events of one of them. -/
structure RunsOnce [AddCommGroup M] (size : Nat) (initContext : Option M) (tasks : List T) (es : List (Event M))
    (s : System T M) : Prop where
  once : (s.executed.map (·.task) ++ held s.pool.workers ++ s.pool.tasks ++ s.caller.rest).Perm tasks
  exited : ∀ w ∈ s.pool.workers, w.status = .exited → s.pool.tasks = [] ∧ s.caller.rest = []
  joined : s.caller = .returned → (s.executed.map (·.task)).Perm tasks
  reduced : s.pool.reduce (· + ·) = total s.pool.workers ∧
    total s.pool.workers = size • initContext.getD 0 + (s.executed.map (·.added)).sum
  progress : s.caller ≠ .returned → ∃ e, Enabled s e ∧ e.isSpurious = false
  steps : es.length ≤ tasks.length * (size + 4) + (2 * size + 3) + 2 * es.countP (·.isSpurious)

theorem sum_cost (es : List (Event M)) : (es.map (·.cost)).sum = 2 * es.countP (·.isSpurious) := by
  induction es with
  | nil => rfl
  | cons e es ih =>
      rw [List.map_cons, List.sum_cons, ih, List.countP_cons]
      cases e with
      | spuriousWakeup i => simp [Event.cost, Event.isSpurious, Nat.mul_add, Nat.add_comm]
      | _ => simp [Event.cost, Event.isSpurious]

theorem potential_create (size : Nat) (initContext : Option M) (tasks : List T) :
    (System.create size initContext tasks).potential = tasks.length * (size + 4) + (2 * size + 3) := by
  have hweight : weight (List.replicate size ({ threadContext := initContext } : ThreadPoolWorker T M)) = size := by
    simp [weight, WorkerStatus.weight]
  simp only [System.create, ThreadPool.create, System.potential, hweight, List.length_replicate, Caller.weight,
    List.length_nil]
  omega

/-- The caller starts the tasks and joins the pool, and the threads take their steps in any order. -/
theorem every_task_runs_once [AddCommGroup M] {size : Nat} (hsize : 0 < size) (initContext : Option M) (tasks : List T)
    {es : List (Event M)} (hes : Meets step (fun s e => Enabled s e) (System.create size initContext tasks) es) :
    RunsOnce size initContext tasks es (run step (System.create size initContext tasks) es) := by
  have hinv := hes.invariant (fun s e henabled (h : Inv size initContext tasks s) => h.step henabled)
    (Inv.create size initContext tasks)
  have hsteps := Meets.potential (I := Inv size initContext tasks) System.potential Event.cost
    (fun s e henabled h => h.step henabled) (fun s e henabled h => step_potential h.interrupt henabled) hes
    (Inv.create size initContext tasks)
  rw [potential_create, sum_cost] at hsteps
  constructor
  · exact hinv.once
  · exact fun w hw hexited => hinv.tasks_of_exited hw hexited
  · exact hinv.executed_perm hsize
  · exact ⟨reduce_plus _, hinv.added⟩
  · exact hinv.exists_enabled
  · omega

/-- Two workers and three tasks; one worker waits at first, and wakes without a notification. -/
def threeTasks : List (Event Int) :=
  [.worker 0 none, .caller, .spuriousWakeup 0, .worker 0 none, .caller, .caller, .worker 1 none, .worker 0 (some 1),
    .caller, .worker 0 none, .caller, .caller, .worker 1 (some 0), .caller, .worker 1 none, .worker 1 (some 1), .caller,
    .worker 0 none, .worker 1 none, .caller]

theorem three_tasks_run_once :
    RunsOnce 2 none ['a', 'b', 'c'] threeTasks (run step (System.create 2 none ['a', 'b', 'c']) threeTasks) ∧
      (run step (System.create 2 none ['a', 'b', 'c']) threeTasks).caller = .returned :=
  ⟨every_task_runs_once (by decide) none ['a', 'b', 'c'] (by decide), by decide⟩

end Fts3.Common
