import Mathlib.Data.List.Count
import EvQueue.Base.Runs
import EvQueue.QueuePool

/-!
# Engine — clients, the forker and the gatherer around the queue pool

The state is the pool, the cancel flags of the instances, where the forker stands in its loop and the
task monitors that were forked and whose exit message has not been gathered.  Each action is one
critical section of one thread, so a run is any interleaving of them.
-/

namespace EvQueue

open Cells Runs

/-- A forked task monitor: its `pid`, the `tid` it was given and the queue its task came from. -/
structure Process where
  pid : Nat
  tid : Nat
  queue : Nat
deriving DecidableEq, Repr

/-- Where the forker stands in the loop of `ProcessManager::Fork`.  The index of the queue is kept
beside its name for the statements only. -/
inductive Forker (WI DOMNode : Type) where
  | idle
  | waiting
  | dequeued (i : Nat) (queueName : String) (t : Task WI DOMNode)
  | registered (i : Nat) (t : Task WI DOMNode) (tid : Nat)
  | releasing (i tid : Nat)
  | exited

structure Engine (WI DOMNode : Type) where
  pool : QueuePool WI DOMNode
  isCancelling : UInt32 → Bool
  forker : Forker WI DOMNode
  processes : List Process

inductive EngineAction (WI DOMNode : Type) where
  | enqueueTask (queueName : String) (workflowInstance : WI) (task : DOMNode)
  /-- `WorkflowInstances::Cancel`, the first half of a cancel request. -/
  | cancel (workflowInstanceId : UInt32)
  /-- `QueuePool::CancelTasks`, the second half. -/
  | cancelTasks (workflowInstanceId : UInt32)
  | dequeueTask
  /-- The forker returns from `pthread_cond_wait`, signalled or not. -/
  | wakeUp
  | executeTask
  /-- `known`: the task has a definition; `fork`: what `fork()` returns to the engine. -/
  | taskExecute (known : Bool) (fork : Option Nat)
  | terminateFailed
  /-- The gatherer receives an exit message. -/
  | gather (pid tid : Nat)

/-- What `TaskExecute` returns to the forker; `none` is -1. -/
def taskExecuteResult (isCancelling known : Bool) (fork : Option Nat) : Option Nat :=
  if isCancelling then none else if !known then none else fork

namespace Engine

variable {WI DOMNode : Type}

/-- The rest of `DequeueTask` once the forker may look at the queues. -/
def finishDequeue (e : Engine WI DOMNode) (pool : QueuePool WI DOMNode) :
    Option (Engine WI DOMNode) :=
  pool.dequeueBody.map fun (found, pool') ↦
    match found with
    | none => { e with pool := pool', forker := .exited }
    | some (i, t) => { e with pool := pool', forker := .dequeued i (pool'.name[i]?.getD "") t }

def step (A : Allocator (Task WI DOMNode)) (getInstanceID : WI → UInt32) (e : Engine WI DOMNode) :
    EngineAction WI DOMNode → Option (Engine WI DOMNode)
  | .enqueueTask queueName wi task =>
      (e.pool.enqueueTask A queueName wi task).map fun (_, pool) ↦ { e with pool }
  | .cancel id => some { e with isCancelling := Function.update e.isCancelling id true }
  | .cancelTasks id =>
      if e.isCancelling id then
        (e.pool.cancelTasks getInstanceID id).map fun pool ↦ { e with pool }
      else none
  | .dequeueTask =>
      match e.forker with
      | .idle =>
          match e.pool.dequeueEnter with
          | (some false, pool) => some { e with pool, forker := .exited }
          | (none, pool) => some { e with pool, forker := .waiting }
          | (some true, pool) => e.finishDequeue pool
      | _ => none
  | .wakeUp =>
      match e.forker with
      | .waiting => e.finishDequeue e.pool
      | _ => none
  | .executeTask =>
      match e.forker with
      | .dequeued i queueName t =>
          let (tid, pool) := e.pool.executeTask t.workflowInstance t.task queueName 0
          some { e with pool, forker := .registered i t tid }
      | _ => none
  | .taskExecute known fork =>
      match e.forker with
      | .registered i t tid =>
          match taskExecuteResult (e.isCancelling (getInstanceID t.workflowInstance)) known fork with
          | none => some { e with forker := .releasing i tid }
          | some pid => some { e with forker := .idle, processes := ⟨pid, tid, i⟩ :: e.processes }
      | _ => none
  | .terminateFailed =>
      match e.forker with
      | .releasing _ tid => some { e with pool := (e.pool.terminateTask tid).2, forker := .idle }
      | _ => none
  | .gather pid tid =>
      some { e with
        pool := (e.pool.terminateTask tid).2
        processes := e.processes.eraseP fun x ↦ x.pid == pid && x.tid == tid }

/-- The engine after start, with nothing to resume. -/
def start (pool : QueuePool WI DOMNode) : Engine WI DOMNode :=
  { pool, isCancelling := fun _ ↦ false, forker := .idle, processes := [] }

/-- The tasks of queue `i` that run: forked, and their exit not gathered yet. -/
def forked (e : Engine WI DOMNode) (i : Nat) : Nat := e.processes.countP fun x ↦ x.queue == i

/-- No queue runs more tasks than its concurrency allows. -/
def WithinLimits (e : Engine WI DOMNode) : Prop :=
  ∀ i q, e.pool.queue[i]? = some q → e.forked i ≤ q.concurrency.toNat

/-- The condition on a step, in the state before it: an enqueue finds `lastTask` on the last pending
cell, an identifier is free for a task that is registered, and an exit message comes from a monitor of
this run or carries an identifier that is not registered. -/
def Guarded (e : Engine WI DOMNode) : EngineAction WI DOMNode → Prop
  | .enqueueTask queueName _ _ => ∀ i q ps cs, e.pool.lookup queueName = some i →
      e.pool.queue[i]? = some q → q.Lists ps cs → q.Tracks ps
  | .executeTask => e.pool.freeTid ≠ none
  | .gather pid tid => (∃ x ∈ e.processes, x.pid = pid ∧ x.tid = tid) ∨ e.pool.tid tid = none
  | _ => True

end Engine

end EvQueue
