import Fts3.Common.Json
import Fts3.Machine.Run
import Fts3.MsgBus.Consumer

/-!
# The monitoring daemon

`MsgPipe.cpp`, `MsgProducer.cpp` and `ConcurrentQueue.cpp`: one thread takes the messages from the directory into a queue
in memory, another one sends them to the broker and puts back what it could not send. That the directory lists its files
in the order in which they have been added is an assumption on the library that keeps it.
-/

namespace Fts3.Monitoring

open Fts3.Machine Fts3.MsgBus

/-! ## What is sent -/

/-- The library for JSON. `load` and `asString` throw with `none`, and `asUInt64` tells whether there is a number. -/
structure JsonLibrary where
  load : Text → Option Json
  print : Json → Text
  asString : Json → Option Text
  asUInt64 : Json → Bool

structure BrokerConfig where
  FTSEndpoint : Text
  FQDN : Text
  publishFQDN : Bool

inductive Destination where
  | transferStarted
  | transferCompleted
  | transferState
  | optimizer
  deriving DecidableEq

structure TextMessage where
  destination : Destination
  text : Text
  /-- The property `vo`. -/
  vo : Option Text
  deriving DecidableEq

/-- What the broker does with a message: it can be gone before, and after it has taken the message. -/
inductive Answer where
  | taken
  | takenAndGone
  | gone
  deriving DecidableEq

/-- What `sendMessage` has given to the broker, and whether it throws. -/
structure Sent where
  message : Option TextMessage
  thrown : Bool
  deriving DecidableEq

section send

variable (lib : JsonLibrary) (config : BrokerConfig)

/-- `msg.get(key, "").asString()` -/
def JsonLibrary.member (msg : Json) (key : String) : Option Text :=
  match msg.get key.toList with
  | none => some []
  | some v => lib.asString v

def destination (type : Text) : Option Destination :=
  if type = "ST".toList then some .transferStarted
  else if type = "CO".toList then some .transferCompleted
  else if type = "SS".toList then some .transferState
  else if type = "OP".toList then some .optimizer
  else none

/-- Whether the conversions for the log go through, after the message has been sent. -/
def JsonLibrary.logs (msg : Json) : Destination → Bool
  | .transferStarted => (lib.member msg "transfer_id").isSome
  | .transferCompleted => (lib.member msg "tr_id").isSome
  | .transferState =>
      match lib.member msg "file_state", lib.member msg "job_id" with
      | some _, some jobId =>
          match msg.get "file_id".toList with
          | some fileId => if jobId.isEmpty then true else lib.asUInt64 fileId
          | none => true
      | _, _ => false
  | .optimizer => (lib.member msg "source_se").isSome && (lib.member msg "dest_se").isSome

/-- The message with the endpoint, and its VO. -/
def prepare (rawMsg : Text) : Option (Json × Option Text) := do
  if rawMsg.length < 2 then none
  let msg ← lib.load (rawMsg.drop 2)
  let msg ← msg.set "endpnt".toList (.string config.FTSEndpoint)
  let msg ← if config.publishFQDN then msg.set "fqdn".toList (.string config.FQDN) else some msg
  match msg.get "vo_name".toList with
  | none => some (msg, none)
  | some v => (lib.asString v).map fun vo => (msg, some vo)

def EOT : Char := ' '

def sendMessage (rawMsg : Text) (answer : Answer) : Sent :=
  match prepare lib config rawMsg with
  | none => ⟨none, true⟩
  | some (msg, vo) =>
      match answer, destination (rawMsg.take 2) with
      | .gone, _ => ⟨none, true⟩
      | _, none => ⟨none, false⟩
      | .takenAndGone, some d => ⟨some ⟨d, lib.print msg ++ [EOT], vo⟩, true⟩
      | .taken, some d => ⟨some ⟨d, lib.print msg ++ [EOT], vo⟩, !lib.logs msg d⟩

end send

/-! ## The queue in memory -/

namespace ConcurrentQueue

def MaxElements : Nat := 20000

def push (theQueue : List Text) (val : Text) : List Text :=
  if theQueue.length < MaxElements then theQueue ++ [val] else theQueue

/-- The time to wait is negative, so that an empty queue answers at once. -/
def pop : List Text → Text × List Text
  | [] => ([], [])
  | val :: theQueue => (val, theQueue)

end ConcurrentQueue

/-! ## The threads -/

inductive PipeStatus where
  | looping
  | pushing
  /-- In `cleanup`, with what is left of the copy. -/
  | cleaning (myQueue : List Text)
  | exited
  /-- The threads have ended, and `cleanup` runs in the main thread. -/
  | finishing (myQueue : List Text)
  deriving DecidableEq

inductive ProducerStatus where
  | looping
  | sending (msg : Text)
  /-- In the handler of an exception. -/
  | puttingBack (msg : Text)
  | exited
  deriving DecidableEq

structure MsgDaemon where
  /-- The directory, the oldest file first. -/
  monitoringQueue : List (Entry Text) := []
  /-- What `run` has read and not yet pushed. -/
  messages : List Text := []
  theQueue : List Text := []
  pipe : PipeStatus := .looping
  producer : ProducerStatus := .looping
  connected : Bool := false
  stopThreads : Bool := false
  /-- What the broker has taken, with the message that it comes from. -/
  broker : List (Text × TextMessage) := []
  written : List Text := []
  /-- The messages that have been written once more, or taken and put back, and the texts that nobody has written. -/
  copied : List Text := []
  /-- What has been thrown away as empty or of no known type. -/
  dropped : List Text := []
  lost : List Text := []
  deriving DecidableEq

/-- How a file of the directory is read. -/
inductive Reading where
  | read
  /-- It cannot be opened, which gives an empty text. -/
  | unopened
  | thrown
  deriving DecidableEq

def Reading.message (contents : Text) : Reading → Option Text
  | .read => some contents
  | .unopened => some []
  | .thrown => none

inductive Event where
  /-- A process of the server writes a message. -/
  | write (serialized : Text) (stuck : Bool)
  /-- The locks of the directory are purged. -/
  | purge
  /-- `runConsumerMonitoring`, with the number of messages after which it throws and how it reads the files; those that
  are not listed can be read. -/
  | consume (thrown : Option Nat) (readings : List Reading)
  | push
  /-- One message of `cleanup`, and whether the directory takes it. -/
  | clean (added : Bool)
  | connect (connected : Bool)
  | pop
  | send (answer : Answer)
  | putBack (added : Bool)
  /-- A signal. -/
  | stop
  | join
  /-- The process ends, and another one is started. -/
  | restart
  deriving DecidableEq

/-- The loop of `runConsumerMonitoring`: the contents of the files that it locks, with how they are read, and what is left
of the queue. A file is removed however it has been read. -/
def consumeMonitoring : Nat → List Reading → List (Entry Text) → List (Text × Reading) × List (Entry Text)
  | 0, _, queue => ([], queue)
  | _ + 1, _, [] => ([], [])
  | limit + 1, readings, entry :: queue =>
      if entry.locked then
        let (taken, rest) := consumeMonitoring limit readings queue
        (taken, entry :: rest)
      else
        let (taken, rest) := consumeMonitoring limit readings.tail queue
        ((entry.contents, readings.headD .read) :: taken, if entry.stuck then { entry with locked := true } :: rest else rest)

def messagesOf (taken : List (Text × Reading)) : List Text := taken.filterMap fun e => e.2.message e.1

/-- What has been removed without having been read. -/
def unread (taken : List (Text × Reading)) : List Text := (taken.filter fun e => e.2 ≠ .read).map Prod.fst

/-- The empty texts in place of files that could not be opened. -/
def emptied (taken : List (Text × Reading)) : List Text := (taken.filter fun e => e.2 = .unopened).map fun _ => []

/-- `runConsumerMonitoring`, which appends to the messages. -/
def MsgDaemon.runConsumerMonitoring (s : MsgDaemon) (limit : Nat) (readings : List Reading) : MsgDaemon :=
  let (taken, queue) := consumeMonitoring limit readings s.monitoringQueue
  { s with
    monitoringQueue := queue
    messages := s.messages ++ messagesOf taken
    copied := s.copied ++ emptied taken
    lost := s.lost ++ unread taken }

/-- `runProducerMonitoring` for a message that has been taken before. -/
def MsgDaemon.runProducerMonitoring (s : MsgDaemon) (serialized : Text) : MsgDaemon :=
  { s with monitoringQueue := s.monitoringQueue ++ [{ contents := serialized }] }

/-- The messages of the entries that nobody has locked. -/
def waiting (queue : List (Entry Text)) : List Text :=
  (queue.filter fun entry => !entry.locked).map (·.contents)

/-- What is in the memory of the process. -/
def PipeStatus.memory : PipeStatus → List Text
  | finishing myQueue => myQueue
  | _ => []

def ProducerStatus.memory : ProducerStatus → List Text
  | sending msg | puttingBack msg => [msg]
  | _ => []

def MsgDaemon.memory (s : MsgDaemon) : List Text :=
  s.producer.memory ++ s.theQueue ++ s.messages ++ s.pipe.memory

section step

variable (lib : JsonLibrary) (config : BrokerConfig) (limit : Nat)

def MsgDaemon.consume (s : MsgDaemon) (thrown : Option Nat) (readings : List Reading) : MsgDaemon :=
  match s.pipe, s.stopThreads, thrown with
  | .looping, true, _ => { s with pipe := .exited }
  | .looping, false, none => { s.runConsumerMonitoring limit readings with pipe := .pushing }
  | .looping, false, some n => { s.runConsumerMonitoring (min n limit) readings with pipe := .cleaning s.theQueue }
  | _, _, _ => s

def MsgDaemon.push (s : MsgDaemon) : MsgDaemon :=
  match s.pipe, s.messages with
  | .pushing, [] => { s with pipe := .looping }
  | .pushing, msg :: messages =>
      { s with
        messages := messages
        theQueue := ConcurrentQueue.push s.theQueue msg
        lost := if s.theQueue.length < ConcurrentQueue.MaxElements then s.lost else s.lost ++ [msg] }
  | _, _ => s

def MsgDaemon.clean (s : MsgDaemon) (added : Bool) : MsgDaemon :=
  match s.pipe with
  | .cleaning [] => { s with pipe := .looping }
  | .cleaning (msg :: myQueue) =>
      if added then { s.runProducerMonitoring msg with copied := s.copied ++ [msg], pipe := .cleaning myQueue }
      else { s with pipe := .cleaning myQueue }
  | .finishing (msg :: myQueue) =>
      if added then { s.runProducerMonitoring msg with pipe := .finishing myQueue }
      else { s with lost := s.lost ++ [msg], pipe := .finishing myQueue }
  | _ => s

def MsgDaemon.connect (s : MsgDaemon) (connected : Bool) : MsgDaemon :=
  match s.producer, s.stopThreads with
  | .looping, true => { s with producer := .exited }
  | .looping, false => { s with connected := s.connected || connected }
  | _, _ => s

def MsgDaemon.pop (s : MsgDaemon) : MsgDaemon :=
  match s.producer, s.stopThreads, s.connected, s.theQueue with
  | .looping, false, true, msg :: theQueue =>
      if msg.isEmpty then { s with theQueue := theQueue, dropped := s.dropped ++ [msg] }
      else { s with theQueue := theQueue, producer := .sending msg }
  | _, _, _, _ => s

def MsgDaemon.send (s : MsgDaemon) (answer : Answer) : MsgDaemon :=
  match s.producer with
  | .sending msg =>
      match sendMessage lib config msg answer with
      | ⟨some message, false⟩ => { s with producer := .looping, broker := s.broker ++ [(msg, message)] }
      | ⟨some message, true⟩ =>
          { s with producer := .puttingBack msg, broker := s.broker ++ [(msg, message)], copied := s.copied ++ [msg] }
      | ⟨none, true⟩ => { s with producer := .puttingBack msg }
      | ⟨none, false⟩ => { s with producer := .looping, dropped := s.dropped ++ [msg] }
  | _ => s

def MsgDaemon.putBack (s : MsgDaemon) (added : Bool) : MsgDaemon :=
  match s.producer with
  | .puttingBack msg =>
      if added then { s.runProducerMonitoring msg with producer := .looping, connected := false }
      else { s with lost := s.lost ++ [msg], producer := .looping, connected := false }
  | _ => s

def step (s : MsgDaemon) : Event → MsgDaemon
  | .write serialized stuck =>
      { s with
        monitoringQueue := s.monitoringQueue ++ [{ contents := serialized, stuck }]
        written := s.written ++ [serialized] }
  | .purge =>
      { s with
        monitoringQueue := s.monitoringQueue.map fun entry => { entry with locked := false }
        copied := s.copied ++ (s.monitoringQueue.filter (·.locked)).map (·.contents) }
  | .consume thrown readings => s.consume limit thrown readings
  | .push => s.push
  | .clean added => s.clean added
  | .connect connected => s.connect connected
  | .pop => s.pop
  | .send answer => s.send lib config answer
  | .putBack added => s.putBack added
  | .stop => { s with stopThreads := true }
  | .join =>
      if s.pipe = .exited ∧ s.producer = .exited then { s with pipe := .finishing s.theQueue, theQueue := [] } else s
  | .restart =>
      { monitoringQueue := s.monitoringQueue
        broker := s.broker
        written := s.written
        copied := s.copied
        dropped := s.dropped
        lost := s.lost ++ s.memory }

end step

end Fts3.Monitoring
