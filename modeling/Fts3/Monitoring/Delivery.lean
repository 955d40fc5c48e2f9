import Fts3.Monitoring.MsgPipe

/-!
# What becomes of the monitoring messages
-/

namespace Fts3.Monitoring

open Fts3.Machine Fts3.MsgBus

variable {lib : JsonLibrary} {config : BrokerConfig} {limit : Nat} {s : MsgDaemon}

/-! ## The directory -/

theorem waiting_append (queue queue' : List (Entry Text)) :
    waiting (queue ++ queue') = waiting queue ++ waiting queue' := by
  simp [waiting]

@[simp] theorem waiting_new (serialized : Text) (stuck : Bool) :
    waiting [{ contents := serialized, stuck }] = [serialized] := rfl

theorem waiting_cons (entry : Entry Text) (queue : List (Entry Text)) :
    waiting (entry :: queue) = if entry.locked then waiting queue else entry.contents :: waiting queue := by
  cases hlocked : entry.locked <;> simp [waiting, hlocked]

/-- The purge brings the locked messages back. -/
theorem count_waiting_purge (queue : List (Entry Text)) (m : Text) :
    (waiting (queue.map fun entry => { entry with locked := false })).count m
      = (waiting queue).count m + ((queue.filter (·.locked)).map (·.contents)).count m := by
  induction queue with
  | nil => rfl
  | cons entry queue ih =>
      rw [List.map_cons, waiting_cons, waiting_cons, List.filter_cons]
      cases hlocked : entry.locked with
      | true =>
          simp only [Bool.false_eq_true, if_false, if_true, List.map_cons, List.count_cons]
          omega
      | false =>
          simp only [Bool.false_eq_true, if_false, List.count_cons]
          omega

/-- What the loop takes is gone from the directory. -/
theorem count_consumeMonitoring (limit : Nat) (readings : List Reading) (queue : List (Entry Text)) (m : Text) :
    ((consumeMonitoring limit readings queue).1.map Prod.fst).count m
        + (waiting (consumeMonitoring limit readings queue).2).count m
      = (waiting queue).count m := by
  fun_induction consumeMonitoring limit readings queue with
  | case1 => simp
  | case2 => simp
  | case3 limit readings entry queue hlocked taken rest hconsume ih =>
      rw [hconsume] at ih
      rw [waiting_cons, waiting_cons, if_pos hlocked, if_pos hlocked]
      exact ih
  | case4 limit readings entry queue hlocked taken rest hconsume ih =>
      have hrest : waiting (if entry.stuck then { entry with locked := true } :: rest else rest) = waiting rest := by
        split
        · rw [waiting_cons, if_pos rfl]
        · rfl
      rw [hconsume] at ih
      rw [waiting_cons, if_neg hlocked]
      dsimp only at ih ⊢
      rw [hrest, List.map_cons, List.count_cons, List.count_cons]
      dsimp only
      omega

/-- A file that has been taken gives its message, or is lost, with an empty text in its place if it could not be opened. -/
theorem count_messagesOf (taken : List (Text × Reading)) (m : Text) :
    (messagesOf taken).count m + (unread taken).count m = (taken.map Prod.fst).count m + (emptied taken).count m := by
  induction taken with
  | nil => rfl
  | cons e taken ih =>
      obtain ⟨contents, reading⟩ := e
      unfold messagesOf unread emptied at ih ⊢
      cases reading with
      | read =>
          simp only [Reading.message, List.filterMap_cons, List.filter_cons, List.map_cons, List.count_cons,
            decide_not, decide_true, Bool.not_true, Bool.false_eq_true, if_false, reduceCtorEq, decide_false] at ih ⊢
          omega
      | unopened =>
          simp only [Reading.message, List.filterMap_cons, List.filter_cons, List.map_cons, List.count_cons,
            decide_not, decide_true, Bool.not_false, if_true, reduceCtorEq, decide_false] at ih ⊢
          omega
      | thrown =>
          simp only [Reading.message, List.filterMap_cons, List.filter_cons, List.map_cons, List.count_cons,
            decide_not, Bool.not_false, if_true, Bool.false_eq_true, if_false, reduceCtorEq, decide_false] at ih ⊢
          omega

theorem messagesOf_of_read {taken : List (Text × Reading)} (h : ∀ e ∈ taken, e.2 = .read) :
    messagesOf taken = taken.map Prod.fst ∧ unread taken = [] ∧ emptied taken = [] := by
  refine ⟨?_, ?_, ?_⟩
  · rw [messagesOf, ← List.filterMap_eq_map]
    exact List.filterMap_congr fun e he => by rw [h e he]; rfl
  · rw [unread, List.map_eq_nil_iff, List.filter_eq_nil_iff]
    exact fun e he => by simp [h e he]
  · rw [emptied, List.map_eq_nil_iff, List.filter_eq_nil_iff]
    exact fun e he => by simp [h e he]

theorem readings_consumeMonitoring {limit : Nat} {readings : List Reading} {queue : List (Entry Text)}
    (h : ∀ reading ∈ readings, reading = .read) : ∀ e ∈ (consumeMonitoring limit readings queue).1, e.2 = .read := by
  fun_induction consumeMonitoring limit readings queue with
  | case1 => simp
  | case2 => simp
  | case3 limit readings entry queue hlocked taken rest hconsume ih =>
      rw [hconsume] at ih
      exact ih h
  | case4 limit readings entry queue hlocked taken rest hconsume ih =>
      rw [hconsume] at ih
      have hhead : readings.headD .read = .read := by
        cases readings with
        | nil => rfl
        | cons reading readings => exact h reading List.mem_cons_self
      intro e he
      rcases List.mem_cons.mp he with rfl | he
      · exact hhead
      · exact ih (fun reading hreading => h reading (List.mem_of_mem_tail hreading)) e he

/-- Without locks the messages are read in the order in which they have been written. -/
theorem consumeMonitoring_in_order (limit : Nat) (readings : List Reading) (queue : List (Entry Text))
    (hqueue : ∀ entry ∈ queue, entry.locked = false ∧ entry.stuck = false) :
    (consumeMonitoring limit readings queue).1.map Prod.fst ++ waiting (consumeMonitoring limit readings queue).2
        = waiting queue ∧
      ∀ entry ∈ (consumeMonitoring limit readings queue).2, entry ∈ queue := by
  fun_induction consumeMonitoring limit readings queue with
  | case1 => exact ⟨rfl, fun entry h => h⟩
  | case2 => exact ⟨rfl, fun entry h => h⟩
  | case3 limit readings entry queue hlocked => simp [(hqueue entry List.mem_cons_self).1] at hlocked
  | case4 limit readings entry queue hlocked taken rest hconsume ih =>
      obtain ⟨hread, hmem⟩ := ih fun entry' h => hqueue entry' (List.mem_cons_of_mem entry h)
      rw [hconsume] at hread hmem
      have hstuck := (hqueue entry List.mem_cons_self).2
      dsimp only at hread hmem ⊢
      rw [if_neg (by simp [hstuck]), waiting_cons, if_neg hlocked, List.map_cons, List.cons_append, hread]
      exact ⟨rfl, fun entry' h => List.mem_cons_of_mem entry (hmem entry' h)⟩

/-! ## The accounts -/

/-- Each message that has been written or copied is somewhere, as often as that has happened. -/
def Accounted (s : MsgDaemon) : Prop :=
  ∀ m, (s.broker.map Prod.fst).count m + s.memory.count m + (waiting s.monitoringQueue).count m + s.dropped.count m
    + s.lost.count m = s.written.count m + s.copied.count m

theorem push_cases (theQueue : List Text) (msg : Text) :
    theQueue.length < ConcurrentQueue.MaxElements ∧ ConcurrentQueue.push theQueue msg = theQueue ++ [msg] ∨
      ¬ theQueue.length < ConcurrentQueue.MaxElements ∧ ConcurrentQueue.push theQueue msg = theQueue := by
  unfold ConcurrentQueue.push
  by_cases h : theQueue.length < ConcurrentQueue.MaxElements
  · exact .inl ⟨h, if_pos h⟩
  · exact .inr ⟨h, if_neg h⟩

theorem Accounted.consume (h : Accounted s) (thrown : Option Nat) (readings : List Reading) :
    Accounted (s.consume limit thrown readings) := by
  intro m
  have hm := h m
  have hread : ∀ n, (messagesOf (consumeMonitoring n readings s.monitoringQueue).1).count m
      + (unread (consumeMonitoring n readings s.monitoringQueue).1).count m
      + (waiting (consumeMonitoring n readings s.monitoringQueue).2).count m =
        (waiting s.monitoringQueue).count m + (emptied (consumeMonitoring n readings s.monitoringQueue).1).count m := by
    intro n
    have htaken := count_consumeMonitoring n readings s.monitoringQueue m
    have hmessages := count_messagesOf (consumeMonitoring n readings s.monitoringQueue).1 m
    omega
  unfold MsgDaemon.consume
  split
  · case h_1 hpipe hstop =>
      simpa [MsgDaemon.memory, hpipe, PipeStatus.memory] using hm
  · case h_2 hpipe hstop =>
      have hall := hread limit
      simp only [MsgDaemon.memory, hpipe, PipeStatus.memory, List.count_append, List.count_nil,
        MsgDaemon.runConsumerMonitoring] at hm ⊢
      omega
  · case h_3 n hpipe hstop =>
      have hall := hread (min n limit)
      simp only [MsgDaemon.memory, hpipe, PipeStatus.memory, List.count_append, List.count_nil,
        MsgDaemon.runConsumerMonitoring] at hm ⊢
      omega
  · exact hm

theorem Accounted.push (h : Accounted s) : Accounted s.push := by
  intro m
  have hm := h m
  unfold MsgDaemon.push
  split
  · case h_1 hpipe hmessages => simpa [MsgDaemon.memory, hpipe, PipeStatus.memory] using hm
  · case h_2 msg messages hpipe hmessages =>
      simp only [MsgDaemon.memory, hmessages, hpipe, PipeStatus.memory, List.count_append, List.count_nil,
        List.count_cons] at hm ⊢
      obtain ⟨hroom, hpush⟩ | ⟨hroom, hpush⟩ := push_cases s.theQueue msg
      · simp only [hpush, if_pos hroom, List.count_append, List.count_cons, List.count_nil]
        omega
      · simp only [hpush, if_neg hroom, List.count_append, List.count_cons, List.count_nil]
        omega
  · exact hm

theorem Accounted.clean (h : Accounted s) (added : Bool) : Accounted (s.clean added) := by
  intro m
  have hm := h m
  unfold MsgDaemon.clean
  split
  · case h_1 hpipe => simpa [MsgDaemon.memory, hpipe, PipeStatus.memory] using hm
  · case h_2 msg myQueue hpipe =>
      cases added <;>
        simp only [MsgDaemon.memory, hpipe, PipeStatus.memory, MsgDaemon.runProducerMonitoring, Bool.false_eq_true,
          if_true, if_false, waiting_append, waiting_new, List.count_append, List.count_cons, List.count_nil] at hm ⊢ <;>
        omega
  · case h_3 msg myQueue hpipe =>
      cases added <;>
        simp only [MsgDaemon.memory, hpipe, PipeStatus.memory, MsgDaemon.runProducerMonitoring, Bool.false_eq_true,
          if_true, if_false, waiting_append, waiting_new, List.count_append, List.count_cons, List.count_nil] at hm ⊢ <;>
        omega
  · exact hm

theorem Accounted.pop (h : Accounted s) : Accounted s.pop := by
  intro m
  have hm := h m
  unfold MsgDaemon.pop
  split
  · case h_1 msg theQueue hproducer hstop hconnected hqueue =>
      simp only [MsgDaemon.memory, hproducer, ProducerStatus.memory, hqueue, List.count_append, List.count_nil,
        List.count_cons] at hm
      split <;>
        simp only [MsgDaemon.memory, hproducer, ProducerStatus.memory, List.count_append, List.count_nil,
          List.count_cons] <;>
        omega
  · exact hm

theorem Accounted.send (h : Accounted s) (answer : Answer) : Accounted (s.send lib config answer) := by
  intro m
  have hm := h m
  unfold MsgDaemon.send
  split
  · case h_1 msg hproducer =>
      simp only [MsgDaemon.memory, hproducer, ProducerStatus.memory, List.count_append, List.count_nil,
        List.count_cons] at hm
      split <;>
        simp only [MsgDaemon.memory, ProducerStatus.memory, List.map_append, List.map_cons, List.map_nil,
          List.count_append, List.count_nil, List.count_cons] <;>
        omega
  · exact hm

theorem Accounted.putBack (h : Accounted s) (added : Bool) : Accounted (s.putBack added) := by
  intro m
  have hm := h m
  unfold MsgDaemon.putBack
  split
  · case h_1 msg hproducer =>
      cases added <;>
        simp only [MsgDaemon.memory, hproducer, ProducerStatus.memory, MsgDaemon.runProducerMonitoring,
          Bool.false_eq_true, if_true, if_false, waiting_append, waiting_new, List.count_append, List.count_cons,
          List.count_nil] at hm ⊢ <;>
        omega
  · exact hm

theorem Accounted.step (h : Accounted s) (e : Event) : Accounted (step lib config limit s e) := by
  cases e with
  | write serialized stuck =>
      intro m
      have hm := h m
      simp only [Monitoring.step, MsgDaemon.memory, waiting_append, waiting_new, List.count_append] at hm ⊢
      omega
  | purge =>
      intro m
      have hm := h m
      have hpurge := count_waiting_purge s.monitoringQueue m
      simp only [Monitoring.step, MsgDaemon.memory, List.count_append] at hm ⊢
      omega
  | consume thrown readings => exact h.consume thrown readings
  | push => exact h.push
  | clean added => exact h.clean added
  | connect connected =>
      intro m
      have hm := h m
      unfold Monitoring.step MsgDaemon.connect
      dsimp only
      split
      · case h_1 hproducer hstop => simpa [MsgDaemon.memory, hproducer, ProducerStatus.memory] using hm
      · exact hm
      · exact hm
  | pop => exact h.pop
  | send answer => exact h.send answer
  | putBack added => exact h.putBack added
  | stop => exact h
  | join =>
      intro m
      have hm := h m
      unfold Monitoring.step
      dsimp only
      split
      · case isTrue hexited =>
          simp only [MsgDaemon.memory, hexited.1, hexited.2, PipeStatus.memory, ProducerStatus.memory, List.count_append,
            List.count_nil] at hm ⊢
          omega
      · exact hm
  | restart =>
      intro m
      have hm := h m
      simp only [Monitoring.step, MsgDaemon.memory, PipeStatus.memory, ProducerStatus.memory, List.count_append,
        List.count_nil] at hm ⊢
      omega

/-! ## What is sent and what is thrown away -/

variable (lib config) in
/-- The message that the broker has from one of the directory. -/
def SentAs (rawMsg : Text) (message : TextMessage) : Prop :=
  ∃ msg vo d, prepare lib config rawMsg = some (msg, vo) ∧ destination (rawMsg.take 2) = some d ∧
    message = ⟨d, lib.print msg ++ [EOT], vo⟩

variable (lib config) in
/-- An empty message, or one that can be read and whose type is unknown. -/
def Unroutable (rawMsg : Text) : Prop :=
  rawMsg = [] ∨ (prepare lib config rawMsg).isSome ∧ destination (rawMsg.take 2) = none

variable (lib config) in
structure Routed (s : MsgDaemon) : Prop where
  sent : ∀ e ∈ s.broker, SentAs lib config e.1 e.2
  dropped : ∀ m ∈ s.dropped, Unroutable lib config m

theorem sentAs_of_sendMessage {rawMsg : Text} {answer : Answer} {message : TextMessage} {thrown : Bool}
    (h : sendMessage lib config rawMsg answer = ⟨some message, thrown⟩) : SentAs lib config rawMsg message := by
  unfold sendMessage at h
  cases hprepare : prepare lib config rawMsg with
  | none => simp [hprepare] at h
  | some e =>
      obtain ⟨msg, vo⟩ := e
      cases hd : destination (rawMsg.take 2) with
      | none => cases answer <;> simp [hprepare, hd] at h
      | some d => cases answer <;> simp [hprepare, hd] at h <;> exact ⟨msg, vo, d, hprepare, hd, h.1.symm⟩

theorem unroutable_of_sendMessage {rawMsg : Text} {answer : Answer}
    (h : sendMessage lib config rawMsg answer = ⟨none, false⟩) : Unroutable lib config rawMsg := by
  unfold sendMessage at h
  cases hprepare : prepare lib config rawMsg with
  | none => simp [hprepare] at h
  | some e =>
      obtain ⟨msg, vo⟩ := e
      cases hd : destination (rawMsg.take 2) with
      | none => exact .inr ⟨by rw [hprepare]; rfl, hd⟩
      | some d => cases answer <;> simp [hprepare, hd] at h

theorem Routed.step (h : Routed lib config s) (e : Event) : Routed lib config (step lib config limit s e) := by
  cases e with
  | write | purge | stop | restart => exact ⟨h.sent, h.dropped⟩
  | consume thrown readings =>
      unfold Monitoring.step MsgDaemon.consume
      dsimp only
      split <;> exact ⟨h.sent, h.dropped⟩
  | push =>
      unfold Monitoring.step MsgDaemon.push
      dsimp only
      split <;> exact ⟨h.sent, h.dropped⟩
  | clean added =>
      unfold Monitoring.step MsgDaemon.clean
      dsimp only
      split
      · exact ⟨h.sent, h.dropped⟩
      · split <;> exact ⟨h.sent, h.dropped⟩
      · split <;> exact ⟨h.sent, h.dropped⟩
      · exact h
  | connect connected =>
      unfold Monitoring.step MsgDaemon.connect
      dsimp only
      split <;> exact ⟨h.sent, h.dropped⟩
  | pop =>
      unfold Monitoring.step MsgDaemon.pop
      dsimp only
      split
      · case h_1 msg theQueue hproducer hstop hconnected hqueue =>
          by_cases hempty : msg.isEmpty = true
          · rw [if_pos hempty]
            refine ⟨h.sent, fun m hm => ?_⟩
            obtain hm | hm := List.mem_append.mp hm
            · exact h.dropped m hm
            · rw [List.mem_singleton.mp hm]
              exact .inl (by simpa using hempty)
          · rw [if_neg hempty]
            exact ⟨h.sent, h.dropped⟩
      · exact h
  | send answer =>
      unfold Monitoring.step MsgDaemon.send
      dsimp only
      split
      · case h_1 msg hproducer =>
          cases hsend : sendMessage lib config msg answer with
          | mk message thrown =>
              cases message with
              | some message =>
                  have hsent : ∀ e ∈ s.broker ++ [(msg, message)], SentAs lib config e.1 e.2 := by
                    intro e he
                    obtain he | he := List.mem_append.mp he
                    · exact h.sent e he
                    · rw [List.mem_singleton.mp he]
                      exact sentAs_of_sendMessage hsend
                  cases thrown with
                  | true => exact ⟨hsent, h.dropped⟩
                  | false => exact ⟨hsent, h.dropped⟩
              | none =>
                  cases thrown with
                  | true => exact ⟨h.sent, h.dropped⟩
                  | false =>
                      refine ⟨h.sent, fun m hm => ?_⟩
                      obtain hm | hm := List.mem_append.mp hm
                      · exact h.dropped m hm
                      · rw [List.mem_singleton.mp hm]
                        exact unroutable_of_sendMessage hsend
      · exact h
  | putBack added =>
      unfold Monitoring.step MsgDaemon.putBack
      dsimp only
      split
      · split <;> exact ⟨h.sent, h.dropped⟩
      · exact h
  | join =>
      unfold Monitoring.step
      dsimp only
      split <;> exact ⟨h.sent, h.dropped⟩

/-! ## At least once -/

/-- The files can be read, the queue in memory has room, the directory takes what is put back, and the process ends with an
empty memory. -/
def Keeps (s : MsgDaemon) : Event → Prop
  | .consume _ readings => ∀ reading ∈ readings, reading = .read
  | .push => s.pipe = .pushing → s.theQueue.length < ConcurrentQueue.MaxElements
  | .clean added => (∃ myQueue, s.pipe = .finishing myQueue) → added = true
  | .putBack added => added = true
  | .restart => s.memory = []
  | _ => True

theorem lost_step {e : Event} (hkeeps : Keeps s e) (h : s.lost = []) : (step lib config limit s e).lost = [] := by
  cases e with
  | write | purge | stop => exact h
  | consume thrown readings =>
      have hread : ∀ n, (s.runConsumerMonitoring n readings).lost = [] := fun n => by
        have hlost : (s.runConsumerMonitoring n readings).lost =
            s.lost ++ unread (consumeMonitoring n readings s.monitoringQueue).1 := rfl
        rw [hlost, (messagesOf_of_read (readings_consumeMonitoring hkeeps)).2.1, h, List.append_nil]
      unfold step MsgDaemon.consume
      dsimp only
      split
      · exact h
      · exact hread limit
      · exact hread _
      · exact h
  | push =>
      unfold step MsgDaemon.push
      dsimp only
      split
      · exact h
      · case h_2 hpipe hmessages =>
          dsimp only
          rw [if_pos (hkeeps hpipe)]
          exact h
      · exact h
  | clean added =>
      unfold step MsgDaemon.clean
      dsimp only
      split
      · exact h
      · split <;> exact h
      · case h_3 msg myQueue hpipe =>
          rw [if_pos (hkeeps ⟨_, hpipe⟩)]
          exact h
      · exact h
  | connect connected =>
      unfold step MsgDaemon.connect
      dsimp only
      split <;> exact h
  | pop =>
      unfold step MsgDaemon.pop
      dsimp only
      split
      · split <;> exact h
      · exact h
  | send answer =>
      unfold step MsgDaemon.send
      dsimp only
      split
      · split <;> exact h
      · exact h
  | putBack added =>
      obtain rfl : added = true := hkeeps
      unfold step MsgDaemon.putBack
      dsimp only
      split
      · exact h
      · exact h
  | join =>
      unfold step
      dsimp only
      split <;> exact h
  | restart =>
      have hmemory : s.memory = [] := hkeeps
      simp [step, h, hmemory]

/-- Each message is at the broker, in memory or in the directory as often at least as it has been written, unless it is
one that has no place to go. What cannot be read stays, and comes around again and again. -/
theorem messages_delivered_at_least_once {es : List Event} (hes : Meets (step lib config limit) Keeps {} es) :
    let s := run (step lib config limit) {} es
    (∀ m, s.written.count m ≤ (s.broker.map Prod.fst).count m + s.memory.count m + (waiting s.monitoringQueue).count m
      + s.dropped.count m) ∧
      (∀ e ∈ s.broker, SentAs lib config e.1 e.2) ∧ (∀ m ∈ s.dropped, Unroutable lib config m) := by
  intro s
  have hlost : s.lost = [] := hes.invariant (I := fun s => s.lost = []) (fun s e he hs => lost_step he hs) rfl
  have haccounted : Accounted s := hes.invariant (fun s e _ hs => hs.step e) fun m => rfl
  have hrouted : Routed lib config s := hes.invariant (fun s e _ hs => hs.step e) ⟨by simp, by simp⟩
  refine ⟨fun m => ?_, hrouted.sent, hrouted.dropped⟩
  have hm := haccounted m
  rw [hlost, List.count_nil] at hm
  omega

/-- What the library answers for an object without members. -/
def emptyObject : JsonLibrary where
  load _ := some (.object .nil)
  print _ := "\x7b\n\t\"endpnt\" : \"fts\"\n\x7d".toList
  asString _ := none
  asUInt64 _ := false

def emptyMessage : Text := "OP \x7b\x7d".toList

/-- The broker is gone before it takes the message, which is back in the directory. -/
theorem messages_delivered_at_least_once_gone :
    ∃ es, .send .gone ∈ es ∧ (run (step emptyObject ⟨"fts".toList, [], false⟩ 10) {} es).broker = [] ∧
      1 ≤ (waiting (run (step emptyObject ⟨"fts".toList, [], false⟩ 10) {} es).monitoringQueue).count emptyMessage := by
  let es : List Event :=
    [.write emptyMessage false, .consume none [], .push, .push, .connect true, .pop, .send .gone, .putBack true]
  have hes : Meets (step emptyObject ⟨"fts".toList, [], false⟩ 10) Keeps {} es :=
    ⟨trivial, by simp [Keeps], fun _ => by decide, fun _ => by decide, trivial, trivial, trivial, rfl, trivial⟩
  have hcount := (messages_delivered_at_least_once hes).1 emptyMessage
  have hplaces : (run (step emptyObject ⟨"fts".toList, [], false⟩ 10) {} es).written = [emptyMessage] ∧
      (run (step emptyObject ⟨"fts".toList, [], false⟩ 10) {} es).broker = [] ∧
      (run (step emptyObject ⟨"fts".toList, [], false⟩ 10) {} es).memory = [] ∧
      (run (step emptyObject ⟨"fts".toList, [], false⟩ 10) {} es).dropped = [] := by
    decide
  obtain ⟨hwritten, hbroker, hmemory, hdropped⟩ := hplaces
  rw [hwritten, hbroker, hmemory, hdropped, List.count_singleton_self] at hcount
  exact ⟨es, by decide, hbroker, by simpa using hcount⟩

/-! ## Once and in order -/

variable (lib config) in
/-- A message that goes to the broker without an exception. -/
def Sendable (rawMsg : Text) : Prop :=
  ∃ message, sendMessage lib config rawMsg .taken = ⟨some message, false⟩

variable (lib config) in
/-- Nothing throws, the files can be read and removed, the queue in memory has room, and the threads end when it is empty. -/
def Undisturbed (s : MsgDaemon) : Event → Prop
  | .write serialized stuck => stuck = false ∧ Sendable lib config serialized
  | .consume thrown readings => thrown = none ∧ ∀ reading ∈ readings, reading = .read
  | .push => s.pipe = .pushing → s.theQueue.length < ConcurrentQueue.MaxElements
  | .send answer => answer = .taken
  | .join => s.theQueue = []
  | .restart => s.memory = []
  | _ => True

variable (lib config) in
structure InOrder (s : MsgDaemon) : Prop where
  order : s.broker.map Prod.fst ++ s.memory ++ waiting s.monitoringQueue = s.written
  sendable : ∀ m ∈ s.written, Sendable lib config m
  free : ∀ entry ∈ s.monitoringQueue, entry.locked = false ∧ entry.stuck = false
  pipe : s.pipe = .looping ∨ s.pipe = .pushing ∨ s.pipe = .exited ∨ s.pipe = .finishing []
  producer : s.producer = .looping ∨ (∃ msg, s.producer = .sending msg) ∨ s.producer = .exited

theorem sendable_ne_nil {m : Text} (h : Sendable lib config m) : m ≠ [] := by
  rintro rfl
  obtain ⟨message, hmessage⟩ := h
  have hprepare : prepare lib config [] = none := rfl
  rw [sendMessage, hprepare] at hmessage
  cases hmessage

theorem InOrder.consume (h : InOrder lib config s) {readings : List Reading}
    (hreadings : ∀ reading ∈ readings, reading = .read) : InOrder lib config (s.consume limit none readings) := by
  have horder := h.order
  unfold MsgDaemon.consume
  obtain hpipe | hpipe | hpipe | hpipe := h.pipe
  · simp only [MsgDaemon.memory, hpipe, PipeStatus.memory] at horder
    rw [hpipe]
    cases hstop : s.stopThreads with
    | true => exact ⟨horder, h.sendable, h.free, .inr (.inr (.inl rfl)), h.producer⟩
    | false =>
        obtain ⟨hread, hmem⟩ := consumeMonitoring_in_order limit readings s.monitoringQueue h.free
        have hmessages : messagesOf (consumeMonitoring limit readings s.monitoringQueue).1 = _ :=
          (messagesOf_of_read (readings_consumeMonitoring hreadings)).1
        refine ⟨?_, h.sendable, fun entry hentry => h.free entry (hmem entry hentry), .inr (.inl rfl), h.producer⟩
        simp only [MsgDaemon.memory, PipeStatus.memory, MsgDaemon.runConsumerMonitoring, hmessages, List.append_nil,
          List.append_assoc, hread] at horder ⊢
        exact horder
  · rw [hpipe]
    exact h
  · rw [hpipe]
    exact h
  · rw [hpipe]
    exact h

theorem InOrder.push (h : InOrder lib config s)
    (hroom : s.pipe = .pushing → s.theQueue.length < ConcurrentQueue.MaxElements) : InOrder lib config s.push := by
  have horder := h.order
  unfold MsgDaemon.push
  split
  · case h_1 hpipe hmessages =>
      simp only [MsgDaemon.memory, hpipe, PipeStatus.memory] at horder
      exact ⟨horder, h.sendable, h.free, .inl rfl, h.producer⟩
  · case h_2 msg messages hpipe hmessages =>
      have hpush : ConcurrentQueue.push s.theQueue msg = s.theQueue ++ [msg] := if_pos (hroom hpipe)
      refine ⟨?_, h.sendable, h.free, h.pipe, h.producer⟩
      simp only [MsgDaemon.memory, hmessages, List.append_assoc] at horder
      simp only [MsgDaemon.memory, hpush, List.append_assoc, List.cons_append, List.nil_append]
      exact horder
  · exact h

theorem InOrder.pop (h : InOrder lib config s) : InOrder lib config s.pop := by
  have horder := h.order
  unfold MsgDaemon.pop
  split
  · case h_1 msg theQueue hproducer hstop hconnected hqueue =>
      simp only [MsgDaemon.memory, hproducer, ProducerStatus.memory, hqueue, List.nil_append] at horder
      have hmem : msg ∈ s.written := by
        rw [← horder]
        simp
      have hempty : msg.isEmpty = false := by
        have := sendable_ne_nil (h.sendable msg hmem)
        cases msg <;> simp_all
      rw [hempty, if_neg (by decide)]
      refine ⟨?_, h.sendable, h.free, h.pipe, .inr (.inl ⟨msg, rfl⟩)⟩
      simpa [MsgDaemon.memory, ProducerStatus.memory] using horder
  · exact h

theorem InOrder.send (h : InOrder lib config s) : InOrder lib config (s.send lib config .taken) := by
  have horder := h.order
  unfold MsgDaemon.send
  split
  · case h_1 msg hproducer =>
      simp only [MsgDaemon.memory, hproducer, ProducerStatus.memory] at horder
      have hmem : msg ∈ s.written := by
        rw [← horder]
        simp
      obtain ⟨message, hmessage⟩ := h.sendable msg hmem
      rw [hmessage]
      refine ⟨?_, h.sendable, h.free, h.pipe, .inl rfl⟩
      simpa [MsgDaemon.memory, ProducerStatus.memory] using horder
  · exact h

theorem InOrder.step {e : Event} (h : InOrder lib config s) (he : Undisturbed lib config s e) :
    InOrder lib config (step lib config limit s e) := by
  have horder := h.order
  cases e with
  | write serialized stuck =>
      obtain ⟨rfl, hsendable⟩ := he
      refine ⟨?_, ?_, ?_, h.pipe, h.producer⟩
      · simp only [Monitoring.step, MsgDaemon.memory, waiting_append, waiting_new] at horder ⊢
        rw [← horder, ← List.append_assoc]
      · intro m hm
        obtain hm | hm := List.mem_append.mp hm
        · exact h.sendable m hm
        · rw [List.mem_singleton.mp hm]
          exact hsendable
      · intro entry hentry
        obtain hentry | hentry := List.mem_append.mp hentry
        · exact h.free entry hentry
        · rw [List.mem_singleton.mp hentry]
          exact ⟨rfl, rfl⟩
  | purge =>
      have hsame : (s.monitoringQueue.map fun entry => { entry with locked := false }) = s.monitoringQueue := by
        refine (List.map_congr_left fun entry hentry => ?_).trans (List.map_id _)
        obtain ⟨contents, locked, stuck⟩ := entry
        obtain rfl : locked = false := (h.free _ hentry).1
        rfl
      unfold Monitoring.step
      dsimp only
      rw [hsame]
      exact ⟨horder, h.sendable, h.free, h.pipe, h.producer⟩
  | consume thrown readings =>
      obtain ⟨rfl, hreadings⟩ := he
      exact h.consume hreadings
  | push => exact h.push he
  | clean added =>
      unfold Monitoring.step MsgDaemon.clean
      dsimp only
      obtain hpipe | hpipe | hpipe | hpipe := h.pipe <;> simpa only [hpipe] using h
  | connect connected =>
      unfold Monitoring.step MsgDaemon.connect
      dsimp only
      split
      · case h_1 hproducer hstop =>
          simp only [MsgDaemon.memory, hproducer, ProducerStatus.memory] at horder
          exact ⟨horder, h.sendable, h.free, h.pipe, .inr (.inr rfl)⟩
      · exact ⟨horder, h.sendable, h.free, h.pipe, h.producer⟩
      · exact h
  | pop => exact h.pop
  | send answer =>
      obtain rfl : answer = .taken := he
      exact h.send
  | putBack added =>
      unfold Monitoring.step MsgDaemon.putBack
      dsimp only
      obtain hproducer | ⟨msg, hproducer⟩ | hproducer := h.producer <;> simpa only [hproducer] using h
  | stop => exact ⟨horder, h.sendable, h.free, h.pipe, h.producer⟩
  | join =>
      have hempty : s.theQueue = [] := he
      unfold Monitoring.step
      dsimp only
      split
      · case isTrue hexited =>
          rw [hempty]
          refine ⟨?_, h.sendable, h.free, .inr (.inr (.inr rfl)), h.producer⟩
          simpa [MsgDaemon.memory, hexited.1, PipeStatus.memory, hempty] using horder
      · exact h
  | restart =>
      have hmemory : s.memory = [] := he
      refine ⟨?_, h.sendable, h.free, .inl rfl, .inl rfl⟩
      rw [hmemory, List.append_nil] at horder
      simpa [Monitoring.step, MsgDaemon.memory, ProducerStatus.memory, PipeStatus.memory] using horder

/-- As long as nothing disturbs the daemon, the broker has the first messages, once each and in the order in which they
have been written. -/
theorem messages_published_in_order {es : List Event}
    (hes : Meets (step lib config limit) (Undisturbed lib config) {} es) :
    let s := run (step lib config limit) {} es
    s.broker.map Prod.fst ++ s.memory ++ waiting s.monitoringQueue = s.written := by
  have h : InOrder lib config (run (step lib config limit) {} es) :=
    hes.invariant (fun s e he hs => hs.step he) ⟨rfl, by simp, by simp, .inl rfl, .inl rfl⟩
  exact h.order

/-- Two messages, of which the first one has been sent. -/
theorem messages_published_in_order_sent :
    ∃ es, (run (step emptyObject ⟨"fts".toList, [], false⟩ 10) {} es).broker ≠ [] ∧
      (run (step emptyObject ⟨"fts".toList, [], false⟩ 10) {} es).broker.map Prod.fst ++
          (run (step emptyObject ⟨"fts".toList, [], false⟩ 10) {} es).memory ++
          waiting (run (step emptyObject ⟨"fts".toList, [], false⟩ 10) {} es).monitoringQueue =
        [emptyMessage, emptyMessage] := by
  let es : List Event :=
    [.write emptyMessage false, .write emptyMessage false, .consume none [], .push, .connect true, .pop, .send .taken]
  have hsendable : Sendable emptyObject ⟨"fts".toList, [], false⟩ emptyMessage := ⟨_, by rfl⟩
  have hes : Meets (step emptyObject ⟨"fts".toList, [], false⟩ 10)
      (Undisturbed emptyObject ⟨"fts".toList, [], false⟩) {} es :=
    ⟨⟨rfl, hsendable⟩, ⟨rfl, hsendable⟩, ⟨rfl, by simp⟩, fun _ => by decide, trivial, trivial, rfl, trivial⟩
  have horder := messages_published_in_order hes
  have hwritten : (run (step emptyObject ⟨"fts".toList, [], false⟩ 10) {} es).written = [emptyMessage, emptyMessage] := by
    decide
  exact ⟨es, by decide, horder.trans hwritten⟩

end Fts3.Monitoring
