import Mathlib.Data.List.Basic

/-!
# Consuming messages

`consumer.cpp`: a queue is a directory with a file for each message. A consumer locks a file, reads the message and removes
the file. The directory and the format of the messages belong to libraries.
-/

namespace Fts3.MsgBus

/-- A file of the queue. -/
structure Entry (β : Type) where
  contents : β
  /-- another consumer has locked it -/
  locked : Bool := false
  /-- `dirq_remove` fails -/
  stuck : Bool := false
  deriving Repr, DecidableEq

/-- What `ParseFromIstream` comes to. It clears its target, so that a message which cannot be read leaves a default one or
a part of it there; an exception leaves the target as it was. -/
inductive Parsed (μ : Type)
  | ok (event : μ)
  | malformed (left : μ)
  | thrown
  deriving Repr, DecidableEq

section consumer

variable {β μ : Type} (parse : β → Parsed μ)

def parseFromIstream (event : μ) (contents : β) : μ :=
  match parse contents with
  | .ok event => event
  | .malformed left => left
  | .thrown => event

/-- The loop: the messages, and what is left of the queue. One object takes all events. -/
def consume : Nat → μ → List (Entry β) → List μ × List (Entry β)
  | 0, _, queue => ([], queue)
  | _ + 1, _, [] => ([], [])
  | limit + 1, event, entry :: queue =>
      if entry.locked then
        let (messages, rest) := consume limit event queue
        (messages, entry :: rest)
      else
        let event := parseFromIstream parse event entry.contents
        let (messages, rest) := consume limit event queue
        (event :: messages, if entry.stuck then { entry with locked := true } :: rest else rest)

def genericConsumer (initial : μ) (limit : Nat) (queue : List (Entry β)) (messages : List μ) : List μ × List (Entry β) :=
  let (consumed, rest) := consume parse limit initial queue
  (messages ++ consumed, rest)

/-! ## The messages that are valid -/

/-- The message of an entry that can be locked and read. -/
def decode (entry : Entry β) : Option μ :=
  if entry.locked then none
  else
    match parse entry.contents with
    | .ok event => some event
    | _ => none

/-- The queue without the entries of these messages. -/
def remaining (limit : Nat) (queue : List (Entry β)) : List (Entry β) :=
  (queue.take limit).filter (fun entry => (decode parse entry).isNone) ++ queue.drop limit

/-- The decoded messages are appended, in the order of the queue and once each, and their entries are removed. -/
structure Exact (limit : Nat) (queue : List (Entry β)) (messages : List μ) (result : List μ × List (Entry β)) : Prop where
  messages : result.1 = messages ++ (queue.take limit).filterMap (decode parse)
  queue : result.2 = remaining parse limit queue

/-- Nobody else has locked the entry and it can be read, or somebody has. -/
def Readable (entry : Entry β) : Prop :=
  entry.locked = false → ∃ event, parse entry.contents = .ok event

variable {parse}

theorem decode_eq_none_iff {entry : Entry β} :
    decode parse entry = none ↔ entry.locked = true ∨ ∀ event, parse entry.contents ≠ .ok event := by
  unfold decode
  cases entry.locked with
  | true => simp
  | false => cases parse entry.contents <;> simp

theorem parseFromIstream_eq {entry : Entry β} {message : μ} (h : decode parse entry = some message) (event : μ) :
    parseFromIstream parse event entry.contents = message := by
  unfold decode at h
  unfold parseFromIstream
  split at h
  · cases h
  · cases hparse : parse entry.contents with
    | ok event => simpa [hparse] using h
    | malformed left => simp [hparse] at h
    | thrown => simp [hparse] at h

theorem length_filterMap_decode_le (limit : Nat) (event : μ) (queue : List (Entry β)) :
    ((queue.take limit).filterMap (decode parse)).length ≤ (consume parse limit event queue).1.length := by
  fun_induction consume parse limit event queue with
  | case1 => simp
  | case2 => simp
  | case3 limit event entry queue hlocked messages rest hconsume ih =>
      rw [hconsume] at ih
      simpa [decode, hlocked] using ih
  | case4 limit event entry queue hlocked event' messages rest hconsume ih =>
      rw [hconsume] at ih
      rw [List.take_succ_cons, List.filterMap_cons]
      cases decode parse entry with
      | none => exact Nat.le_succ_of_le ih
      | some message => exact Nat.succ_le_succ ih

/-- An entry that cannot be read has a message too. -/
theorem messages_consume_iff (limit : Nat) (event : μ) (queue : List (Entry β)) :
    (consume parse limit event queue).1 = (queue.take limit).filterMap (decode parse) ↔
      ∀ entry ∈ queue.take limit, Readable parse entry := by
  fun_induction consume parse limit event queue with
  | case1 => simp
  | case2 => simp
  | case3 limit event entry queue hlocked messages rest hconsume ih =>
      rw [hconsume] at ih
      have hnone : decode parse entry = none := decode_eq_none_iff.mpr (.inl hlocked)
      simp [hnone, ih, Readable, hlocked]
  | case4 limit event entry queue hlocked event' messages rest hconsume ih =>
      rw [hconsume] at ih
      rw [Bool.not_eq_true] at hlocked
      rw [List.take_succ_cons, List.filterMap_cons, List.forall_mem_cons, ← ih]
      cases hdecode : decode parse entry with
      | none =>
          have hnot : ¬ Readable parse entry := by
            intro hread
            obtain ⟨event, hevent⟩ := hread hlocked
            rcases decode_eq_none_iff.mp hdecode with hlocked' | hparse
            · rw [hlocked] at hlocked'
              cases hlocked'
            · exact hparse event hevent
          have hlength : ((queue.take limit).filterMap (decode parse)).length ≤ (consume parse limit event' queue).1.length :=
            length_filterMap_decode_le limit event' queue
          rw [hconsume] at hlength
          simp only [hnot, false_and, iff_false]
          intro heq
          rw [← heq] at hlength
          exact absurd hlength (Nat.not_succ_le_self _)
      | some message =>
          have hread : Readable parse entry := by
            intro _
            by_contra hparse
            have hnone : decode parse entry = none :=
              decode_eq_none_iff.mpr (.inr fun event hevent => hparse ⟨event, hevent⟩)
            rw [hdecode] at hnone
            cases hnone
          have hevent : event' = message := parseFromIstream_eq hdecode event
          simp [hevent, hread]

theorem isNone_decode {entry : Entry β} (h : Readable parse entry) : (decode parse entry).isNone = entry.locked := by
  cases hlocked : entry.locked with
  | true => simp [decode, hlocked]
  | false =>
      obtain ⟨event, hevent⟩ := h hlocked
      simp [decode, hlocked, hevent]

theorem length_remaining_le (limit : Nat) (event : μ) (queue : List (Entry β))
    (h : ∀ entry ∈ queue.take limit, Readable parse entry) :
    (remaining parse limit queue).length ≤ (consume parse limit event queue).2.length := by
  fun_induction consume parse limit event queue with
  | case1 => simp [remaining]
  | case2 => simp [remaining]
  | case3 limit event entry queue hlocked messages rest hconsume ih =>
      rw [List.take_succ_cons, List.forall_mem_cons] at h
      have hrest := ih h.2
      rw [hconsume, remaining] at hrest
      simpa [remaining, isNone_decode h.1, hlocked] using hrest
  | case4 limit event entry queue hlocked event' messages rest hconsume ih =>
      rw [List.take_succ_cons, List.forall_mem_cons] at h
      have hrest := ih h.2
      rw [hconsume, remaining] at hrest
      have hle : (remaining parse (limit + 1) (entry :: queue)).length ≤ rest.length := by
        simpa [remaining, isNone_decode h.1, hlocked] using hrest
      dsimp only
      split
      · exact Nat.le_succ_of_le hle
      · exact hle

theorem queue_consume_iff (limit : Nat) (event : μ) (queue : List (Entry β))
    (h : ∀ entry ∈ queue.take limit, Readable parse entry) :
    (consume parse limit event queue).2 = remaining parse limit queue ↔
      ∀ entry ∈ queue.take limit, entry.locked = false → entry.stuck = false := by
  fun_induction consume parse limit event queue with
  | case1 => simp [remaining]
  | case2 => simp [remaining]
  | case3 limit event entry queue hlocked messages rest hconsume ih =>
      rw [List.take_succ_cons, List.forall_mem_cons] at h
      have hrest := ih h.2
      rw [hconsume] at hrest
      have hremaining : remaining parse (limit + 1) (entry :: queue) = entry :: remaining parse limit queue := by
        simp [remaining, isNone_decode h.1, hlocked]
      rw [List.take_succ_cons, List.forall_mem_cons, hremaining, List.cons.injEq, ← hrest]
      simp [hlocked]
  | case4 limit event entry queue hlocked event' messages rest hconsume ih =>
      rw [List.take_succ_cons, List.forall_mem_cons] at h
      have hrest := ih h.2
      have hlength := length_remaining_le limit event' queue h.2
      rw [hconsume] at hrest hlength
      rw [Bool.not_eq_true] at hlocked
      have hremaining : remaining parse (limit + 1) (entry :: queue) = remaining parse limit queue := by
        simp [remaining, isNone_decode h.1, hlocked]
      rw [List.take_succ_cons, List.forall_mem_cons, hremaining, ← hrest]
      cases hstuck : entry.stuck with
      | false => simp
      | true =>
          simp only [if_true, hlocked, Bool.true_eq_false, imp_false, not_true_eq_false, false_and, iff_false]
          intro heq
          rw [← heq] at hlength
          exact absurd hlength (Nat.not_succ_le_self _)

/-- The consumer takes exactly the valid messages if and only if every entry that it can lock can be read and removed. -/
theorem consumer_takes_valid_messages (parse : β → Parsed μ) (initial : μ) (limit : Nat) (queue : List (Entry β))
    (messages : List μ) :
    Exact parse limit queue messages (genericConsumer parse initial limit queue messages) ↔
      ∀ entry ∈ queue.take limit, entry.locked = false →
        (∃ event, parse entry.contents = .ok event) ∧ entry.stuck = false := by
  have hresult : genericConsumer parse initial limit queue messages =
      (messages ++ (consume parse limit initial queue).1, (consume parse limit initial queue).2) := rfl
  rw [hresult]
  constructor
  · rintro ⟨hmessages, hqueue⟩
    have hread := (messages_consume_iff limit initial queue).mp (List.append_cancel_left hmessages)
    have hstuck := (queue_consume_iff limit initial queue hread).mp hqueue
    exact fun entry hentry hlocked => ⟨hread entry hentry hlocked, hstuck entry hentry hlocked⟩
  · intro h
    have hread : ∀ entry ∈ queue.take limit, Readable parse entry := fun entry hentry hlocked => (h entry hentry hlocked).1
    constructor
    · rw [(messages_consume_iff limit initial queue).mpr hread]
    · exact (queue_consume_iff limit initial queue hread).mpr fun entry hentry hlocked => (h entry hentry hlocked).2

end consumer

/-! ## A file that is cut off -/

/-- The fields of a status message that the database looks at first. -/
structure StatusFields where
  jobId : String := ""
  fileId : Nat := 0
  processId : Nat := 0
  deriving Repr, DecidableEq

/-- The message of a file is there or not. -/
def parseStatus : Option StatusFields → Parsed StatusFields
  | some event => .ok event
  | none => .malformed {}

/-- The file that cannot be read comes as a message without a job and a file. -/
theorem consumer_takes_broken_message :
    ¬ Exact parseStatus 10 [{ contents := some ⟨"a", 1, 7⟩ }, { contents := none }] []
      (genericConsumer parseStatus {} 10 [{ contents := some ⟨"a", 1, 7⟩ }, { contents := none }] []) ∧
    (genericConsumer parseStatus {} 10 [{ contents := some ⟨"a", 1, 7⟩ }, { contents := none }] []).1 =
      [⟨"a", 1, 7⟩, {}] := by
  refine ⟨fun h => ?_, by decide⟩
  have hmessages := h.messages
  revert hmessages
  decide

end Fts3.MsgBus
