import Fts3.Machine.Run
import Fts3.UrlCopy.Transfer

/-!
# The process that runs the transfers

`run` takes the transfers from the front of a list, and the thread that watches the signals may cancel it or let it panic
between any two of its steps. Only some of the accesses to the list are made under the lock: each of these is one step, and
so is each access that is not.
-/

namespace Fts3.UrlCopy

open Fts3.Machine

/-- What `sendTransferCompleted` reports. -/
structure Completed where
  transfer : Transfer
  error : Option UrlCopyError
  deriving Repr, DecidableEq

def Completed.canceled (t : Transfer) : Completed :=
  ⟨t, some (.new .transfer .transferPreparation ECANCELED "Transfer canceled".toList)⟩

def Completed.panicked (msg : Text) (t : Transfer) : Completed :=
  ⟨t, some (.new .agent .transferService EINTR msg)⟩

/-! ## The steps -/

/-- Where the thread of `run` is. -/
inductive Position
  /-- before the loop asks whether the list is empty -/
  | empty
  /-- before the loop asks whether it is canceled -/
  | canceled
  /-- in the loop, before it takes the front of the list -/
  | front
  /-- before the lock under which the transfer is reported -/
  | transfer (t : Transfer)
  /-- after the loop -/
  | left
  /-- in the loop that reports what is left, at an iterator with these transfers to the end -/
  | report (rest : List Transfer)
  | returned
  /-- an exception has left `run` -/
  | thrown (what : Text)
  /-- `main` has caught it -/
  | caught
  /-- the front of an empty list was taken -/
  | frontOfEmpty
  /-- the list was cleared under the iterator -/
  | dangling
  deriving Repr, DecidableEq

structure UrlCopyProcess where
  todoTransfers : List Transfer
  canceled : Bool := false
  position : Position := .empty
  completed : List Completed := []
  deriving Repr, DecidableEq

/-- What happens to the process: `next` is the next step of `run`, with the error of the transfer where one ends. -/
inductive Event
  | next (error : Option UrlCopyError)
  | throw (what : Text)
  | cancel
  | panic (msg : Text)
  deriving Repr, DecidableEq

namespace UrlCopyProcess

def panic (msg : Text) (p : UrlCopyProcess) : UrlCopyProcess :=
  { p with
    todoTransfers := []
    completed := p.completed ++ p.todoTransfers.map (.panicked msg)
    position :=
      match p.position with
      | .report (_ :: _) => .dangling
      | position => position }

/-- The next step of `run`, and of `main` after it. -/
def next (error : Option UrlCopyError) (p : UrlCopyProcess) : UrlCopyProcess :=
  match p.position with
  | .empty => { p with position := if p.todoTransfers.isEmpty then .left else .canceled }
  | .canceled => { p with position := if p.canceled then .left else .front }
  | .front =>
      match p.todoTransfers with
      | [] => { p with position := .frontOfEmpty }
      | t :: _ => { p with position := .transfer t }
  | .transfer t =>
      match p.todoTransfers with
      -- the list may have been emptied by `panic`
      | [] => { p with position := .empty }
      | _ :: todo => { p with todoTransfers := todo, completed := p.completed ++ [⟨t, error⟩], position := .empty }
  | .left => { p with position := .report p.todoTransfers }
  | .report [] => { p with position := .returned }
  | .report (t :: rest) => { p with completed := p.completed ++ [.canceled t], position := .report rest }
  | .thrown what => { p.panic what with position := .caught }
  | .returned | .caught | .frontOfEmpty | .dangling => p

/-- An exception while the log is prepared or the start is reported, which `run` does not catch. -/
def throw (what : Text) (p : UrlCopyProcess) : UrlCopyProcess :=
  match p.position with
  | .transfer _ => { p with position := .thrown what }
  | _ => p

def step (p : UrlCopyProcess) : Event → UrlCopyProcess
  | .next error => p.next error
  | .throw what => p.throw what
  | .cancel => { p with canceled := true }
  | .panic msg => p.panic msg

def start (transfers : List Transfer) : UrlCopyProcess :=
  { todoTransfers := transfers }

/-- The transfers whose turn has not come yet. -/
def notBegun (p : UrlCopyProcess) : List Transfer :=
  match p.position with
  | .empty | .canceled | .left => p.todoTransfers
  | .front | .transfer _ | .thrown _ => p.todoTransfers.tail
  | .report rest => rest
  | .returned | .caught | .frontOfEmpty | .dangling => []

/-! ## One completion each -/

/-- The thread of `run` relies on the list as it has seen it, without the lock. What the last loop reports stays in the
list. -/
def exposed (p : UrlCopyProcess) : Bool :=
  match p.position with
  | .canceled | .front => true
  | .report _ | .returned => !p.todoTransfers.isEmpty
  | _ => false

/-- No panic while the list is relied on without the lock. -/
def Sheltered (p : UrlCopyProcess) : Event → Prop
  | .panic _ => p.exposed = false
  | _ => True

instance : ∀ p e, Decidable (Sheltered p e)
  | p, .panic _ => inferInstanceAs (Decidable (p.exposed = false))
  | _, .next _ | _, .throw _ | _, .cancel => inferInstanceAs (Decidable True)

def reported (p : UrlCopyProcess) : List Transfer :=
  p.completed.map (·.transfer)

/-- The transfers are those reported and, where the list or the iterator is, those still to report. -/
def Accounted (transfers : List Transfer) (p : UrlCopyProcess) : Prop :=
  match p.position with
  | .empty | .left | .thrown _ => p.reported ++ p.todoTransfers = transfers
  | .canceled | .front => p.reported ++ p.todoTransfers = transfers ∧ p.todoTransfers ≠ []
  | .transfer t => p.reported ++ p.todoTransfers = transfers ∧ ∀ t' ∈ p.todoTransfers.head?, t' = t
  | .report rest => p.reported ++ rest = transfers ∧ rest <:+ p.todoTransfers
  | .returned => p.reported = transfers
  | .caught => p.reported = transfers ∧ p.todoTransfers = []
  | .frontOfEmpty | .dangling => False

variable {transfers : List Transfer} {p : UrlCopyProcess}

theorem reported_panic (msg : Text) (p : UrlCopyProcess) : (p.panic msg).reported = p.reported ++ p.todoTransfers := by
  simp [panic, reported, Completed.panicked, Function.comp_def]

theorem Accounted.next (error : Option UrlCopyError) (h : Accounted transfers p) : Accounted transfers (p.next error) := by
  obtain ⟨todo, canceled, position, completed⟩ := p
  cases position with
  | empty => cases todo <;> simpa [UrlCopyProcess.next, Accounted, reported] using h
  | canceled =>
      cases canceled with
      | false => exact h
      | true => exact h.1
  | front =>
      cases todo with
      | nil => exact absurd rfl h.2
      | cons t todo => exact ⟨h.1, by simp [UrlCopyProcess.next]⟩
  | transfer t =>
      cases todo with
      | nil => exact h.1
      | cons t' todo =>
          obtain ⟨htransfers, ht⟩ := h
          obtain rfl : t' = t := ht t' (by simp)
          simpa [UrlCopyProcess.next, Accounted, reported] using htransfers
  | left => exact ⟨h, List.suffix_refl _⟩
  | report rest =>
      obtain ⟨htransfers, hrest⟩ := h
      cases rest with
      | nil => simpa [UrlCopyProcess.next, Accounted, reported] using htransfers
      | cons t rest =>
          refine ⟨?_, (List.suffix_cons t rest).trans hrest⟩
          simpa [UrlCopyProcess.next, reported, Completed.canceled] using htransfers
  | thrown what => exact ⟨(reported_panic what _).trans h, rfl⟩
  | returned => exact h
  | caught => exact h
  | frontOfEmpty => exact h
  | dangling => exact h

theorem Accounted.panic (msg : Text) (hexposed : p.exposed = false) (h : Accounted transfers p) :
    Accounted transfers (p.panic msg) := by
  have hreported := reported_panic msg p
  obtain ⟨todo, canceled, position, completed⟩ := p
  cases position with
  | empty | left | thrown => exact (List.append_nil _).trans (hreported.trans h)
  | canceled => exact absurd hexposed (by simp [exposed])
  | front => exact absurd hexposed (by simp [exposed])
  | transfer t => exact ⟨(List.append_nil _).trans (hreported.trans h.1), by simp [UrlCopyProcess.panic]⟩
  | report rest =>
      obtain rfl : todo = [] := by simpa [exposed] using hexposed
      obtain ⟨htransfers, hrest⟩ := h
      obtain rfl := List.suffix_nil.mp hrest
      simpa [UrlCopyProcess.panic, Accounted, reported] using htransfers
  | returned =>
      obtain rfl : todo = [] := by simpa [exposed] using hexposed
      simpa [UrlCopyProcess.panic, Accounted, reported] using h
  | caught =>
      obtain ⟨htransfers, rfl⟩ := h
      simpa [UrlCopyProcess.panic, Accounted, reported] using htransfers
  | frontOfEmpty => exact h
  | dangling => exact h

theorem Accounted.step {e : Event} (he : Sheltered p e) (h : Accounted transfers p) : Accounted transfers (p.step e) := by
  cases e with
  | next error => exact h.next error
  | throw what =>
      obtain ⟨todo, canceled, position, completed⟩ := p
      cases position with
      | transfer t => exact h.1
      | _ => exact h
  | cancel => exact h
  | panic msg => exact h.panic msg he

/-! ## After a cancellation -/

/-- The process is canceled, and will report or has reported `pending` as canceled. -/
def Cancels (pending : List Transfer) (p : UrlCopyProcess) : Prop :=
  p.canceled = true ∧
    match p.position with
    | .empty | .canceled | .left => p.todoTransfers = pending
    | .front | .transfer _ => p.todoTransfers.tail = pending
    | .report rest => ∃ before sent, p.completed = before ++ sent.map .canceled ∧ sent ++ rest = pending
    | .returned => ∃ before, p.completed = before ++ pending.map .canceled
    | .thrown _ | .caught | .frontOfEmpty | .dangling => True

theorem cancels_cancel (p : UrlCopyProcess) : Cancels p.notBegun (p.step .cancel) := by
  obtain ⟨todo, canceled, position, completed⟩ := p
  refine ⟨rfl, ?_⟩
  cases position with
  | report rest => exact ⟨completed, [], (List.append_nil _).symm, rfl⟩
  | returned => exact ⟨completed, (List.append_nil _).symm⟩
  | _ => trivial

variable {pending : List Transfer}

theorem Cancels.next (error : Option UrlCopyError) (h : Cancels pending p) : Cancels pending (p.next error) := by
  obtain ⟨todo, canceled, position, completed⟩ := p
  obtain ⟨rfl, h⟩ := h
  cases position with
  | empty => cases todo <;> exact ⟨rfl, h⟩
  | canceled => exact ⟨rfl, h⟩
  | front => cases todo <;> exact ⟨rfl, by trivial⟩
  | transfer t => cases todo <;> exact ⟨rfl, h⟩
  | left => exact ⟨rfl, completed, [], (List.append_nil _).symm, h⟩
  | report rest =>
      obtain ⟨before, sent, hcompleted, hpending⟩ := h
      cases rest with
      | nil => exact ⟨rfl, before, by rw [← hpending, List.append_nil]; exact hcompleted⟩
      | cons t rest =>
          refine ⟨rfl, before, sent ++ [t], ?_, by rw [List.append_assoc]; exact hpending⟩
          simp only [UrlCopyProcess.next] at hcompleted ⊢
          rw [hcompleted, List.map_append, List.append_assoc]
          rfl
  | returned => exact ⟨rfl, h⟩
  | thrown => exact ⟨rfl, trivial⟩
  | caught => exact ⟨rfl, trivial⟩
  | frontOfEmpty => exact ⟨rfl, trivial⟩
  | dangling => exact ⟨rfl, trivial⟩

theorem Cancels.step {e : Event} (he : ∀ msg, e ≠ .panic msg) (h : Cancels pending p) : Cancels pending (p.step e) := by
  cases e with
  | next error => exact h.next error
  | throw what =>
      obtain ⟨todo, canceled, position, completed⟩ := p
      cases position with
      | transfer t => exact ⟨h.1, trivial⟩
      | _ => exact h
  | cancel => exact ⟨rfl, h.2⟩
  | panic msg => exact absurd rfl (he msg)

/-! ## Every run -/

/-- The front of an empty list is not taken, and a process that has returned has reported each transfer once. -/
def OneEach (transfers : List Transfer) (p : UrlCopyProcess) : Prop :=
  p.position ≠ .frontOfEmpty ∧ (p.position = .returned ∨ p.position = .caught → p.reported = transfers)

instance : Decidable (OneEach transfers p) :=
  inferInstanceAs (Decidable (_ ∧ _))

theorem Accounted.oneEach (h : Accounted transfers p) : OneEach transfers p := by
  obtain ⟨todo, canceled, position, completed⟩ := p
  cases position with
  | returned => exact ⟨by simp, fun _ => h⟩
  | caught => exact ⟨by simp, fun _ => h.1⟩
  | frontOfEmpty => exact h.elim
  | _ => exact ⟨by simp, by simp⟩

/-- Whenever the process is canceled or panics, but for a panic while the list is relied on without the lock, each transfer
is reported once; and those whose turn has not come at a cancellation are reported as canceled, unless there is a panic
after it. -/
theorem one_completion_each (transfers : List Transfer) (es : List Event) (h : Meets step Sheltered (start transfers) es) :
    OneEach transfers (run step (start transfers) es) ∧
      ∀ es₁ es₂, es = es₁ ++ .cancel :: es₂ → (∀ msg, .panic msg ∉ es₂) →
        (run step (start transfers) es).position = .returned →
          ∃ before, (run step (start transfers) es).completed =
            before ++ (run step (start transfers) es₁).notBegun.map .canceled := by
  constructor
  · exact (h.invariant (I := Accounted transfers) (fun _ _ he hp => hp.step he) rfl).oneEach
  · rintro es₁ es₂ rfl hpanic hreturned
    have hmeets : Meets step (fun _ e => ∀ msg, e ≠ .panic msg) ((run step (start transfers) es₁).step .cancel) es₂ :=
      meets_of_forall fun e he msg hmsg => hpanic msg (hmsg ▸ he)
    have hcancels := hmeets.invariant (I := Cancels (run step (start transfers) es₁).notBegun)
      (fun _ _ he hp => hp.step he) (cancels_cancel _)
    rw [run_append, run_cons] at hreturned ⊢
    obtain ⟨-, hcancels⟩ := hcancels
    rw [hreturned] at hcancels
    exact hcancels

/-- The second transfer is canceled while the first one runs. -/
def canceledRun : List Event :=
  List.replicate 3 (.next none) ++ .cancel :: List.replicate 6 (.next none)

/-- The process panics while the first transfer runs. -/
def panicRun : List Event :=
  List.replicate 3 (.next none) ++ .panic "SIGSEGV".toList :: List.replicate 4 (.next none)

theorem one_completion_each_canceled :
    (OneEach [{ fileId := 1 }, { fileId := 2 }] (run step (start [{ fileId := 1 }, { fileId := 2 }]) canceledRun) ∧
      ∃ before, (run step (start [{ fileId := 1 }, { fileId := 2 }]) canceledRun).completed =
        before ++ [.canceled { fileId := 2 }]) ∧
    OneEach [{ fileId := 1 }, { fileId := 2 }] (run step (start [{ fileId := 1 }, { fileId := 2 }]) panicRun) ∧
      (run step (start [{ fileId := 1 }, { fileId := 2 }]) panicRun).completed =
        [.panicked "SIGSEGV".toList { fileId := 1 }, .panicked "SIGSEGV".toList { fileId := 2 }] := by
  obtain ⟨heach, hcanceled⟩ := one_completion_each [{ fileId := 1 }, { fileId := 2 }] canceledRun (by decide)
  obtain ⟨hpanicked, -⟩ := one_completion_each [{ fileId := 1 }, { fileId := 2 }] panicRun (by decide)
  exact ⟨⟨heach, hcanceled (List.replicate 3 (.next none)) _ rfl (by simp) (by decide)⟩, hpanicked, by decide⟩

/-- A panic between the question whether the list is empty and the use of its front, and one at the end of the loop that
reports what a cancellation has left. -/
theorem not_one_completion_each :
    ¬ OneEach [{ fileId := 1 }] (run step (start [{ fileId := 1 }])
        [.next none, .next none, .panic "SIGSEGV".toList, .next none]) ∧
      ¬ OneEach [{ fileId := 1 }] (run step (start [{ fileId := 1 }])
        (.cancel :: List.replicate 4 (.next none) ++ [.panic "SIGSEGV".toList, .next none])) := by
  decide

end UrlCopyProcess

end Fts3.UrlCopy
