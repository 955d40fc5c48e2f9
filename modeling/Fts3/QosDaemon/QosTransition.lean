import Fts3.Common.Grouping
import Fts3.Common.Uri
import Fts3.Machine.Run
import Fts3.MySql.Staging

/-!
# QoS transitions

`CDMIFetchQosTransition`, `QoSTransitionTask` and `CDMIPollTask` on any number of hosts that share the database. A task asks
the storage for the transitions, and once one request has been accepted a task polls all that the host has submitted.
-/

namespace Fts3.QosDaemon

open Fts3.Sql Fts3.MySql

structure QosTransitionOperation where
  jobId : String
  fileId : Nat
  surl : String
  targetQos : String
  token : String
  deriving Repr, DecidableEq

def QosTransitionOperation.valid (op : QosTransitionOperation) : Bool :=
  op.surl ≠ "" && op.jobId ≠ "" && op.targetQos ≠ "" && op.token ≠ ""

/-! ## The database -/

/-- The database, with the column `target_qos` of `t_job` by `job_id`, and `dlg_id` and `proxy` of `t_credential`. -/
structure QosDb where
  db : Db
  targetQos : String → Option String
  credentials : List (String × String)

/-- The part of the proxy before the colon. -/
def tokenOf (proxy : String) : String :=
  String.ofList (proxy.toList.takeWhile (· ≠ ':'))

namespace QosDb

/-- The proxies of the job of the file, each once. -/
def proxies (q : QosDb) (r : FileRow) : List String :=
  match q.db.jobs.find? r.jobId with
  | none => []
  | some j => distinct ((q.credentials.filter fun c => c.1 = j.credId).map (·.2))

/-- `get` throws an exception when the column is null. -/
def operation (q : QosDb) (r : FileRow) (proxy : String) : Option QosTransitionOperation := do
  let surl ← r.destSurl
  let targetQos ← q.targetQos r.jobId
  pure ⟨r.jobId, r.fileId, surl, targetQos, tokenOf proxy⟩

end QosDb

/-- The condition of `getFilesForQosTransition` on the file. -/
def qosSelects (node : Node) (qosOp : FileState) (matchHost : Bool) (r : FileRow) : Bool :=
  r.fileState = qosOp && node.hashStart ≤ r.hashedId && r.hashedId ≤ node.hashEnd &&
    (!matchHost || r.transferHost = some node.hostname)

def getFilesForQosTransition (node : Node) (qosOp : FileState) (matchHost : Bool) (q : QosDb) :
    Option (List QosTransitionOperation) :=
  ((q.db.files.rows.filter (qosSelects node qosOp matchHost)).flatMap fun r => (q.proxies r).map fun p => (r, p)).mapM
    fun e => q.operation e.1 e.2

/-! ## Contexts -/

structure CDMIQosTransitionContext where
  filesToTransition : StdMap String (List QosTransitionOperation) := .empty
  errorCount : StdMap String Nat := .empty

namespace CDMIQosTransitionContext

def add (ctx : CDMIQosTransitionContext) (op : QosTransitionOperation) : CDMIQosTransitionContext :=
  if op.valid then
    { ctx with
      filesToTransition :=
        ctx.filesToTransition.insert op.jobId ((ctx.filesToTransition.find? op.jobId).getD [] ++ [op]) }
  else ctx

def incrementErrorCountForSurl (ctx : CDMIQosTransitionContext) (surl : String) : Nat × CDMIQosTransitionContext :=
  let count := (ctx.errorCount.find? surl).getD 0 + 1
  (count, { ctx with errorCount := ctx.errorCount.insert surl count })

/-- A set of operations, which are compared by their URLs: the first one of a URL stays. -/
def getSurls (ctx : CDMIQosTransitionContext) : List QosTransitionOperation :=
  let ops := ctx.filesToTransition.entries.flatMap (·.2)
  let set : StdMap String QosTransitionOperation :=
    ops.foldl (fun m op => if (m.find? op.surl).isSome then m else m.insert op.surl op) .empty
  set.entries.map (·.2)

end CDMIQosTransitionContext

/-- The contexts of a turn of `fetch`, one for each storage. -/
def CDMIFetchQosTransition.contexts (files : List QosTransitionOperation) : StdMap String CDMIQosTransitionContext :=
  .group (fun op => String.ofList (Uri.parse op.surl.toList).host) (CDMIQosTransitionContext.add {})
    CDMIQosTransitionContext.add files

/-! ## Tasks -/

/-- Where `QoSTransitionTask::run` is with the first of its operations. -/
inductive TransitionPosition where
  /-- before the call of gfal2 -/
  | change
  /-- before the `SELECT` of `updateFileStateToQosRequestSubmitted` -/
  | read
  /-- before its `UPDATE` -/
  | write
  deriving Repr, DecidableEq

structure QoSTransitionTask where
  ctx : CDMIQosTransitionContext
  rest : List QosTransitionOperation
  position : TransitionPosition := .change
  anySuccessful : Bool := false

structure CDMIPollTask where
  ctx : CDMIQosTransitionContext
  nPolls : Nat := 0
  waitUntil : Int := 0

/-- `CDMIPollTask::run`, with the operations that it has still to check. -/
structure CDMIPoll where
  task : CDMIPollTask
  maxPollRetries : Int
  rest : List QosTransitionOperation
  anyPending : Bool := false
  /-- the files that a failed check has left as they are -/
  left : List Nat := []

def getPollInterval (nPolls : Nat) : Int :=
  if 9 < nPolls then 600 else 2 <<< nPolls

/-- What gfal2 answers: the QoS of the file, its target QoS, and its QoS once more. An exception is `none`. -/
structure QosAnswers where
  fileQoS : Option String
  targetQoS : Option String
  fileQoSAgain : Option String

inductive QosVerdict where
  | finished
  | pending
  | failed (reason : String)
  | exception
  deriving Repr, DecidableEq

/-- The body of the loop of `CDMIPollTask::run`. -/
def QosAnswers.verdict (a : QosAnswers) (op : QosTransitionOperation) : QosVerdict :=
  match a.fileQoS with
  | none => .exception
  | some fileQoS =>
      if fileQoS = op.targetQos then .finished
      else
        match a.targetQoS with
        | none => .exception
        | some targetQoS =>
            if targetQoS = op.targetQos then .pending
            else if targetQoS = "" then
              -- the transition might have finished
              match a.fileQoSAgain with
              | none => .exception
              | some fileQoS =>
                  if fileQoS = op.targetQos then .finished
                  else .failed "Transition has finished but did not reach target QoS"
            else .failed "Target QoS has changed to a different value"

/-! ## The daemons -/

structure CDMIDaemon where
  node : Node
  /-- the tasks that wait for the pool, and those that run -/
  queue : List CDMIQosTransitionContext := []
  transitions : List QoSTransitionTask := []
  waitingRoom : List CDMIPollTask := []
  /-- the polls that wait for the pool, and those that run -/
  pollQueue : List CDMIPollTask := []
  polls : List CDMIPoll := []

/-- What a daemon does. A task is given by its place among those that wait or run. -/
inductive CDMIEvent where
  | fetch
  | begin (k : Nat)
  /-- `changeFileQoS`, with the text of the exception -/
  | change (k : Nat) (error : Option String)
  | read (k : Nat)
  | write (k : Nat)
  | submitted (k : Nat)
  /-- a turn of the waiting room -/
  | wake (now : Int)
  | beginPoll (k : Nat) (maxPollRetries : Int)
  | check (k : Nat) (answers : QosAnswers)
  | endPoll (k : Nat) (now : Int)
  | heartBeat (hashStart hashEnd : Nat)
  /-- The process ends and starts again. An exception that a task does not catch ends it. -/
  | restart

namespace CDMIDaemon

def setTransition (d : CDMIDaemon) (k : Nat) (t : QoSTransitionTask) : CDMIDaemon :=
  { d with transitions := d.transitions.set k t }

def setPoll (d : CDMIDaemon) (k : Nat) (p : CDMIPoll) : CDMIDaemon :=
  { d with polls := d.polls.set k p }

/-- The daemon without anything that it has in memory. -/
def restarted (d : CDMIDaemon) : CDMIDaemon :=
  { node := d.node }

end CDMIDaemon

/-- `cdmiUpdateFileStateToFinished` and `cdmiUpdateFileStateToFailed`. -/
def QosDb.terminate (q : QosDb) (node : Node) (op : QosTransitionOperation) (st : FileState) (reason : String) : QosDb :=
  { q with db := (updateFileStateToQosTerminal node op.jobId op.fileId st reason).alone q.db }

/-- The task goes on with the next operation. -/
def QoSTransitionTask.next (t : QoSTransitionTask) : QoSTransitionTask :=
  { t with rest := t.rest.tail, position := .change }

def QoSTransitionTask.change (t : QoSTransitionTask) (node : Node) (error : Option String) (q : QosDb) :
    QosDb × QoSTransitionTask :=
  match t.position, t.rest with
  | .change, op :: _ =>
      match error with
      | none => (q, { t with position := .read })
      | some what => (q.terminate node op .failed what, t.next)
  | _, _ => (q, t)

/-- The state of the file, when it belongs to the job. -/
def QosDb.storedState (q : QosDb) (op : QosTransitionOperation) : Option FileState :=
  ((q.db.files.find? op.fileId).filter fun r => r.jobId = op.jobId).map (·.fileState)

def QoSTransitionTask.read (t : QoSTransitionTask) (q : QosDb) : QoSTransitionTask :=
  match t.position, t.rest with
  | .read, op :: _ => if q.storedState op = some .qosTransition then { t with position := .write } else t.next
  | _, _ => t

def QoSTransitionTask.write (t : QoSTransitionTask) (node : Node) (q : QosDb) : QosDb × QoSTransitionTask :=
  match t.position, t.rest with
  | .write, op :: _ =>
      ({ q with
          db := ((Stmt.file (.updateFileStateToQosRequestSubmitted op.jobId op.fileId node.hostname)).exec q.db).2 },
        { t.next with anySuccessful := true })
  | _, _ => (q, t)

/-- A turn of the loop of `CDMIPollTask::run`. -/
def CDMIPoll.check (p : CDMIPoll) (node : Node) (answers : QosAnswers) (q : QosDb) : QosDb × CDMIPoll :=
  match p.rest with
  | [] => (q, p)
  | op :: rest =>
      match answers.verdict op with
      | .finished => (q.terminate node op .finished "", { p with rest })
      | .pending => (q, { p with rest, anyPending := true })
      | .failed reason => (q.terminate node op .failed reason, { p with rest })
      | .exception =>
          let (count, ctx) := p.task.ctx.incrementErrorCountForSurl op.surl
          let p := { p with task := { p.task with ctx } }
          if (count : Int) = p.maxPollRetries then
            (q.terminate node op .failed "Poll check exceeded the maximum retry limit", { p with rest })
          else (q, { p with rest, left := op.fileId :: p.left })

namespace CDMIDaemon

def step (q : QosDb) (d : CDMIDaemon) : CDMIEvent → QosDb × CDMIDaemon
  | .fetch =>
      match getFilesForQosTransition d.node .qosTransition false q with
      | none => (q, d)
      | some files =>
          (q, { d with queue := d.queue ++ (CDMIFetchQosTransition.contexts files).entries.map (·.2) })
  | .begin k =>
      match d.queue[k]? with
      | none => (q, d)
      | some ctx =>
          (q, { d with queue := d.queue.eraseIdx k, transitions := d.transitions ++ [{ ctx, rest := ctx.getSurls }] })
  | .change k error =>
      match d.transitions[k]? with
      | none => (q, d)
      | some t => ((t.change d.node error q).1, d.setTransition k (t.change d.node error q).2)
  | .read k =>
      match d.transitions[k]? with
      | none => (q, d)
      | some t => (q, d.setTransition k (t.read q))
  | .write k =>
      match d.transitions[k]? with
      | none => (q, d)
      | some t => ((t.write d.node q).1, d.setTransition k (t.write d.node q).2)
  | .submitted k =>
      match d.transitions[k]? with
      | none => (q, d)
      | some t =>
          if t.rest.isEmpty then
            (q,
              { d with
                transitions := d.transitions.eraseIdx k
                waitingRoom := d.waitingRoom ++ if t.anySuccessful then [{ ctx := t.ctx }] else [] })
          else (q, d)
  | .wake now =>
      (q,
        { d with
          waitingRoom := d.waitingRoom.filter fun p => now < p.waitUntil
          pollQueue := d.pollQueue ++ d.waitingRoom.filter fun p => !decide (now < p.waitUntil) })
  | .beginPoll k maxPollRetries =>
      match d.pollQueue[k]? with
      | none => (q, d)
      | some task =>
          match getFilesForQosTransition d.node .qosRequestSubmitted true q with
          | none => (q, d.restarted)
          | some rest =>
              (q, { d with pollQueue := d.pollQueue.eraseIdx k, polls := d.polls ++ [{ task, maxPollRetries, rest }] })
  | .check k answers =>
      match d.polls[k]? with
      | none => (q, d)
      | some p => ((p.check d.node answers q).1, d.setPoll k (p.check d.node answers q).2)
  | .endPoll k now =>
      match d.polls[k]? with
      | none => (q, d)
      | some p =>
          if p.rest.isEmpty then
            let nPolls := p.task.nPolls + 1
            (q,
              { d with
                polls := d.polls.eraseIdx k
                waitingRoom := d.waitingRoom ++
                  if p.anyPending then [{ p.task with nPolls, waitUntil := now + getPollInterval nPolls }] else [] })
          else (q, d)
  | .heartBeat hashStart hashEnd => (q, { d with node := { d.node with hashStart, hashEnd } })
  | .restart => (q, d.restarted)

end CDMIDaemon

/-- The daemons of all hosts. -/
structure CDMIService where
  q : QosDb
  daemons : List CDMIDaemon

inductive CDMIServiceEvent where
  | daemon (i : Nat) (e : CDMIEvent)
  /-- what the users, the server and other daemons do to the database -/
  | others (q : QosDb)

def CDMIService.step (s : CDMIService) : CDMIServiceEvent → CDMIService
  | .daemon i e =>
      match s.daemons[i]? with
      | none => s
      | some d => { q := (d.step s.q e).1, daemons := s.daemons.set i (d.step s.q e).2 }
  | .others q => { s with q }

end Fts3.QosDaemon
