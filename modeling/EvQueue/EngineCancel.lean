import EvQueue.EngineLimit
import EvQueue.SchedulerRuns
import EvQueue.WorkflowInstanceResume

/-!
# EngineCancel — cancel requests beside everything that moves the tasks of an instance

The instances, the queue pool with the forker, the `Retrier` with its threads and the cancel requests of
the clients.  Every action is one critical section.  A call of an instance holds its mutex until the
tasks that it queues and retries have been handed to the pool and to the `Retrier`, which have mutexes of
their own: in between the other threads go on, but not with this instance.
-/

namespace EvQueue

open Cells Runs

/-- The payload of `Retrier::TimedTask`. -/
structure TimedTask where
  workflowInstance : UInt32
  task : Nat
deriving DecidableEq, Repr

structure ActiveInstance (Node : Type) where
  workflow : WorkflowInstance Node
  started : Bool
  /-- In `WorkflowInstances`. -/
  registered : Bool
  /-- The tasks that the call holding the mutex has still to hand to `EnqueueTask`. -/
  enqueuing : List Nat
  /-- The tasks that it has still to hand to `InsertTask`. -/
  inserting : List Nat

inductive CancelStage where
  | cancelled
  | flushed
  | completed
deriving DecidableEq, Repr

/-- A request of a client that found the instance, and how far it has come. -/
structure CancelRequest where
  workflowInstanceId : UInt32
  stage : CancelStage
deriving DecidableEq, Repr

structure CancellingEngine (Node : Type) where
  engine : Engine UInt32 Nat
  instances : UInt32 → Option (ActiveInstance Node)
  retrier : Scheduling TimedTask
  /-- Taken by `shift_event`; `event_removed` was not called for them yet. -/
  shifted : List TimedTask
  /-- The `Flush` that holds the mutex of the `Retrier`: the request it is made for, if there is one, and
  the events that `event_removed` was not called for yet. -/
  flush : Option (Option Nat × List TimedTask)
  requests : List CancelRequest

inductive CancelAction (Node : Type) where
  /-- `new WorkflowInstance`, from a workflow. -/
  | construct (id : UInt32) (doc : Document Node)
  | start (id : UInt32) (env : Environment Node)
  /-- `new WorkflowInstance` from a savepoint, and `Resume`, before any client is served; `tid` holds the
  attributes of this name. -/
  | resume (id : UInt32) (saved : WorkflowInstance Node) (env : Environment Node) (order : List Nat)
      (tid : Nat → Nat)
  /-- The call that holds the mutex of the instance goes on. -/
  | enqueueTask (id : UInt32)
  | insertTask (id : UInt32) (retryAt : Int)
  /-- What the forker and the gatherer do with the pool alone. -/
  | pool (action : EngineAction UInt32 Nat)
  | taskExecute (env : Environment Node) (pid : Nat)
  | taskStop (id : UInt32) (task : Nat) (env : Environment Node) (retval : Int) (output : String)
  | shiftEvent (currTime : Int)
  /-- `event_removed` in a retry thread. -/
  | alarm (t : TimedTask) (env : Environment Node)
  /-- `WorkflowInstances::Cancel`, for a client. -/
  | cancel (id : UInt32)
  /-- `FlushWorkflowInstance` for a cancel request, or `Flush` without a filter. -/
  | flush (request : Option Nat)
  /-- `event_removed` in `Flush`. -/
  | removed (env : Environment Node)
  | flushEnd
  | cancelTasks (request : Nat)
  /-- `delete`, of an instance that has ended. -/
  | remove (id : UInt32)

namespace ActiveInstance

variable {Node : Type}

/-- Nobody holds the mutex of the instance. -/
def idle (i : ActiveInstance Node) : Bool := i.enqueuing.isEmpty && i.inserting.isEmpty

/-- The body of a call has been run: what it added to the queues and to the retrier is to be handed over. -/
def handOver (i : ActiveInstance Node) (after : WorkflowInstance Node) : ActiveInstance Node :=
  { i with
    workflow := after
    enqueuing := after.queued.drop i.workflow.queued.length
    inserting := after.retrier.drop i.workflow.retrier.length }

/-- The attribute `queue` of a task. -/
def queueName (doc : Document Node) (task : Nat) : String :=
  ((doc.task? task).map TaskNode.queue).getD ""

end ActiveInstance

namespace CancellingEngine

variable {Node : Type}

/-- An instance is looked up by its id, and pointed to by it here. -/
def getInstanceID (workflowInstance : UInt32) : UInt32 := workflowInstance

def setInstance (e : CancellingEngine Node) (id : UInt32) (i : ActiveInstance Node) :
    CancellingEngine Node :=
  { e with instances := Function.update e.instances id (some i) }

/-- `EnqueueTask` answers what the pool answers. -/
def environment (e : CancellingEngine Node) (env : Environment Node) : Environment Node :=
  { env with enqueueTask := fun queueName ↦ (e.engine.pool.lookup queueName).isSome }

/-- A call of an instance whose mutex is free. -/
def call (e : CancellingEngine Node) (id : UInt32)
    (body : WorkflowInstance Node → WorkflowInstance Node × Bool) : Option (CancellingEngine Node) :=
  (e.instances id).bind fun i ↦
    if i.idle then some (e.setInstance id (i.handOver (body i.workflow).1)) else none

/-- The entry of the task was taken from its queue. -/
def unqueue (e : CancellingEngine Node) (id : UInt32) (task : Nat) : CancellingEngine Node :=
  { e with
    instances := Function.update e.instances id <| (e.instances id).map fun i ↦
      { i with workflow := { i.workflow with queued := i.workflow.queued.erase task } } }

/-- The event of the task was taken from the retrier. -/
def unretry (e : CancellingEngine Node) (id : UInt32) (task : Nat) : CancellingEngine Node :=
  { e with
    instances := Function.update e.instances id <| (e.instances id).map fun i ↦
      { i with workflow := { i.workflow with retrier := i.workflow.retrier.erase task } } }

/-- The pointer is to an instance that has not ended.  The thread that is told of the end deletes the
instance; to call it then would be a use after free. -/
def alive (e : CancellingEngine Node) (id : UInt32) : Bool :=
  (e.instances id).any fun i ↦ !i.workflow.workflowEnded

/-- `event_removed`. -/
def eventRemoved (e : CancellingEngine Node) (t : TimedTask) (env : Environment Node) :
    Option (CancellingEngine Node) :=
  if e.alive t.workflowInstance then
    (e.unretry t.workflowInstance t.task).call t.workflowInstance fun s ↦
      s.taskRestart (e.environment env) t.task
  else none

/-- What a call of the `Retrier` has handed out. -/
def handedOut (s s' : Scheduling TimedTask) : List TimedTask :=
  (s'.handed.drop s.handed.length).map TimedEvent.content

/-- The tasks of a savepoint that are executing get their identifiers back. -/
def registerTasks (pool : QueuePool UInt32 Nat) (id : UInt32) (doc : Document Node) (order : List Nat)
    (tid : Nat → Nat) : QueuePool UInt32 Nat :=
  (order.filter fun x ↦ (doc.task? x).any fun t ↦ t.status = some .executing).foldl
    (fun pool x ↦ (pool.executeTask id x (ActiveInstance.queueName doc x) (tid x)).2) pool

/-- The events that `FlushWorkflowInstance` removes. -/
def ofInstance (id : UInt32) (x : TimedEvent TimedTask) : Bool := x.content.workflowInstance = id

/-- The actions of the forker and the gatherer that call no instance. -/
def onPool : EngineAction UInt32 Nat → Bool
  | .dequeueTask | .wakeUp | .executeTask | .terminateFailed | .gather _ _ => true
  | _ => false

/-- The name of the task that the forker is to execute has a definition. -/
def isKnown (env : Environment Node) (i : ActiveInstance Node) (task : Nat) : Bool :=
  (((i.workflow.doc.task? task).map TaskNode.name).bind env.getTask).isSome

def advance (e : CancellingEngine Node) (request : Nat) (stage : CancelStage) : List CancelRequest :=
  e.requests.modify request fun r ↦ { r with stage }

variable (A : Allocator (Task UInt32 Nat)) (B : Allocator (TimedEvent TimedTask))

def step (e : CancellingEngine Node) : CancelAction Node → Option (CancellingEngine Node)
  | .construct id doc =>
      match e.instances id with
      | some _ => none
      | none => some (e.setInstance id ⟨.create doc, false, true, [], []⟩)
  | .start id env =>
      (e.instances id).bind fun i ↦
        if i.started then none
        else (e.setInstance id { i with started := true }).call id fun s ↦ s.start (e.environment env)
  | .resume id saved env order tid =>
      match e.instances id with
      | some _ => none
      | none =>
          let s := WorkflowInstance.fromSavepoint saved.doc saved.trace
          let pool := registerTasks e.engine.pool id saved.doc order tid
          let i : ActiveInstance Node := ⟨s, true, true, [], []⟩
          some ({ e with engine := { e.engine with pool } }.setInstance id
            (i.handOver (s.resume (e.environment env) order).1))
  | .enqueueTask id =>
      (e.instances id).bind fun i ↦
        match i.enqueuing with
        | [] => none
        | task :: enqueuing =>
            (e.engine.step A getInstanceID (.enqueueTask
              (ActiveInstance.queueName i.workflow.doc task) id task)).map fun engine ↦
                { e.setInstance id { i with enqueuing } with engine }
  | .insertTask id retryAt =>
      if e.flush.isSome then none
      else
        (e.instances id).bind fun i ↦
          match i.inserting with
          | [] => none
          | task :: inserting =>
              (e.retrier.step B (.insertEvent retryAt ⟨id, task⟩)).map fun retrier ↦
                { e.setInstance id { i with inserting } with retrier }
  | .pool action =>
      if onPool action then (e.engine.step A getInstanceID action).map fun engine ↦ { e with engine }
      else none
  | .taskExecute env pid =>
      match e.engine.forker with
      | .registered _ t _ =>
          (e.instances t.workflowInstance).bind fun i ↦
            if e.alive t.workflowInstance then
              (e.engine.step A getInstanceID (.taskExecute (isKnown env i t.task)
                (if env.fork then some pid else none))).bind fun engine ↦
                  call { e.unqueue t.workflowInstance t.task with engine } t.workflowInstance fun s ↦
                    s.taskExecute (e.environment env) t.task
            else none
      | _ => none
  | .taskStop id task env retval output =>
      (e.instances id).bind fun i ↦
        match i.workflow.doc.task? task with
        | none => none
        | some t =>
            -- an exit message comes from the monitor of a task that is executing
            if e.alive id ∧ t.status = some .executing then
              e.call id fun s ↦ s.taskStop (e.environment env) task retval output
            else none
  | .shiftEvent currTime =>
      if e.flush.isSome then none
      else
        (e.retrier.step B (.shiftEvent currTime)).map fun retrier ↦
          { e with
            retrier
            shifted := e.shifted ++ handedOut e.retrier retrier }
  | .alarm t env =>
      if t ∈ e.shifted then eventRemoved { e with shifted := e.shifted.erase t } t env else none
  | .cancel id =>
      (e.instances id).bind fun i ↦
        if i.registered && i.idle then
          some { e.setInstance id { i with workflow := i.workflow.cancel } with
            engine := { e.engine with isCancelling := Function.update e.engine.isCancelling id true }
            requests := e.requests ++ [⟨id, .cancelled⟩] }
        else none
  | .flush request =>
      if e.flush.isSome then none
      else
        match request with
        | none =>
            (e.retrier.step B (.flush none)).map fun retrier ↦
              { e with
                retrier
                flush := some (none, handedOut e.retrier retrier) }
        | some k =>
            match e.requests[k]? with
            | some ⟨id, .cancelled⟩ =>
                (e.retrier.step B (.flush (some (ofInstance id)))).map fun retrier ↦
                  { e with
                    retrier
                    flush := some (some k, handedOut e.retrier retrier) }
            | _ => none
  | .removed env =>
      match e.flush with
      | some (request, t :: rest) => eventRemoved { e with flush := some (request, rest) } t env
      | _ => none
  | .flushEnd =>
      match e.flush with
      | some (none, []) => some { e with flush := none }
      | some (some k, []) =>
          some { e with
            flush := none
            requests := e.advance k .flushed }
      | _ => none
  | .cancelTasks k =>
      match e.requests[k]? with
      | some ⟨id, .flushed⟩ =>
          (e.engine.step A getInstanceID (.cancelTasks id)).map fun engine ↦
            { e with
              engine
              requests := e.advance k .completed }
      | _ => none
  | .remove id =>
      (e.instances id).bind fun i ↦
        if i.registered && i.started && i.idle && i.workflow.workflowEnded then
          some (e.setInstance id { i with registered := false })
        else none

/-- The engine behind its start, with nothing resumed. -/
def start (Node : Type) (pool : QueuePool UInt32 Nat) : CancellingEngine Node :=
  { engine := .start pool
    instances := fun _ ↦ none
    retrier := .start TimedTask
    shifted := []
    flush := none
    requests := [] }

/-- A workflow is well formed, and a savepoint is that of an instance whose counters are right. -/
def Proper : CancelAction Node → Prop
  | .construct _ doc => doc.WellFormed
  | .resume _ saved _ order _ => saved.view.Inv 0 0 ∧ order.Perm saved.doc.found
  | _ => True

/-- The condition on a step, in the state before it: when the counter of the `Retrier` is 0, it is empty. -/
def Guarded (e : CancellingEngine Node) : CancelAction Node → Prop
  | .flush _ => e.retrier.scheduler.numberOfEvents = 0 → e.retrier.scheduler.firstEvent = none
  | _ => True

/-! ## What a step does -/

variable {e e₁ e' : CancellingEngine Node} {id : UInt32}
variable {body : WorkflowInstance Node → WorkflowInstance Node × Bool}

theorem call_cases (hcall : e.call id body = some e') : ∃ i, e.instances id = some i ∧
    i.idle = true ∧ e' = e.setInstance id (i.handOver (body i.workflow).1) := by
  rcases Option.bind_eq_some_iff.mp hcall with ⟨i, hi, hcall⟩
  by_cases hidle : i.idle = true
  · rw [if_pos hidle, Option.some.injEq] at hcall
    exact ⟨i, hi, hidle, hcall.symm⟩
  · rw [if_neg hidle] at hcall
    cases hcall

theorem alive_cases (halive : e.alive id = true) :
    ∃ i, e.instances id = some i ∧ i.workflow.workflowEnded = false := by
  unfold alive at halive
  cases hi : e.instances id with
  | none => simp [hi] at halive
  | some i =>
    rw [hi, Option.any_some, Bool.not_eq_true'] at halive
    exact ⟨i, rfl, halive⟩

/-- A call is made to the instance `id`, of which what it is made for was taken before: `i` is what the
instance was, and `i₁` what the call finds. -/
structure Calls (e e₁ : CancellingEngine Node) (id : UInt32)
    (body : WorkflowInstance Node → WorkflowInstance Node × Bool) (i i₁ : ActiveInstance Node)
    (e' : CancellingEngine Node) : Prop where
  found : e.instances id = some i
  taken : e₁.instances = Function.update e.instances id (some i₁)
  call : e₁.call id body = some e'

/-- The instance behind the call. -/
theorem Calls.instances {i i₁ : ActiveInstance Node} (h : Calls e e₁ id body i i₁ e') :
    e'.instances = Function.update e.instances id (some (i₁.handOver (body i₁.workflow).1)) ∧
      e'.engine = e₁.engine := by
  rcases call_cases h.call with ⟨j, hj, -, heq⟩
  rw [h.taken, Function.update_self, Option.some.injEq] at hj
  subst hj heq
  refine ⟨?_, rfl⟩
  show Function.update e₁.instances id _ = _
  rw [h.taken, Function.update_idem]

/-- The actions, with what each of them needs. -/
inductive Steps (e : CancellingEngine Node) : CancelAction Node → CancellingEngine Node → Prop where
  | construct {id : UInt32} {doc : Document Node} (hnone : e.instances id = none) :
      Steps e (.construct id doc) (e.setInstance id ⟨.create doc, false, true, [], []⟩)
  | start {id : UInt32} {env : Environment Node} {i : ActiveInstance Node} {e' : CancellingEngine Node}
      (hnot : i.started = false)
      (hcalls : Calls e (e.setInstance id { i with started := true }) id
        (fun s ↦ s.start (e.environment env)) i { i with started := true } e') :
      Steps e (.start id env) e'
  | resume {id : UInt32} {saved : WorkflowInstance Node} {env : Environment Node} {order : List Nat}
      {tid : Nat → Nat} (hnone : e.instances id = none) :
      Steps e (.resume id saved env order tid)
        ({ e with engine := { e.engine with
            pool := registerTasks e.engine.pool id saved.doc order tid } }.setInstance id
          (ActiveInstance.handOver ⟨.fromSavepoint saved.doc saved.trace, true, true, [], []⟩
            ((WorkflowInstance.fromSavepoint saved.doc saved.trace).resume (e.environment env) order).1))
  | enqueueTask {id : UInt32} {i : ActiveInstance Node} {task : Nat} {enqueuing : List Nat}
      {engine : Engine UInt32 Nat} (hi : e.instances id = some i)
      (henqueuing : i.enqueuing = task :: enqueuing)
      (hengine : e.engine.step A getInstanceID (.enqueueTask
        (ActiveInstance.queueName i.workflow.doc task) id task) = some engine) :
      Steps e (.enqueueTask id) { e.setInstance id { i with enqueuing } with engine }
  | insertTask {id : UInt32} {retryAt : Int} {i : ActiveInstance Node} {task : Nat}
      {inserting : List Nat} {retrier : Scheduling TimedTask} (hflush : e.flush = none)
      (hi : e.instances id = some i) (hinserting : i.inserting = task :: inserting)
      (hretrier : e.retrier.step B (.insertEvent retryAt ⟨id, task⟩) = some retrier) :
      Steps e (.insertTask id retryAt) { e.setInstance id { i with inserting } with retrier }
  | pool {action : EngineAction UInt32 Nat} {engine : Engine UInt32 Nat} (hpool : onPool action = true)
      (hengine : e.engine.step A getInstanceID action = some engine) :
      Steps e (.pool action) { e with engine }
  | taskExecute {env : Environment Node} {pid j tid : Nat} {t : Task UInt32 Nat}
      {i : ActiveInstance Node} {engine : Engine UInt32 Nat} {e' : CancellingEngine Node}
      (hforker : e.engine.forker = .registered j t tid) (hbusy : i.workflow.workflowEnded = false)
      (hengine : e.engine.step A getInstanceID (.taskExecute (isKnown env i t.task)
        (if env.fork then some pid else none)) = some engine)
      (hcalls : Calls e { e.unqueue t.workflowInstance t.task with engine } t.workflowInstance
        (fun s ↦ s.taskExecute (e.environment env) t.task) i
        { i with workflow := { i.workflow with queued := i.workflow.queued.erase t.task } } e') :
      Steps e (.taskExecute env pid) e'
  | taskStop {id : UInt32} {task : Nat} {env : Environment Node} {retval : Int} {output : String}
      {i : ActiveInstance Node} {t : TaskNode Node} {e' : CancellingEngine Node}
      (hbusy : i.workflow.workflowEnded = false) (hfind : i.workflow.doc.task? task = some t)
      (hstatus : t.status = some .executing)
      (hcalls : Calls e e id (fun s ↦ s.taskStop (e.environment env) task retval output) i i e') :
      Steps e (.taskStop id task env retval output) e'
  | shiftEvent {currTime : Int} {retrier : Scheduling TimedTask} (hflush : e.flush = none)
      (hretrier : e.retrier.step B (.shiftEvent currTime) = some retrier) :
      Steps e (.shiftEvent currTime)
        { e with
          retrier
          shifted := e.shifted ++ handedOut e.retrier retrier }
  | alarm {t : TimedTask} {env : Environment Node} {i : ActiveInstance Node} {e' : CancellingEngine Node}
      (hin : t ∈ e.shifted) (hbusy : i.workflow.workflowEnded = false)
      (hcalls : Calls e (unretry { e with shifted := e.shifted.erase t } t.workflowInstance t.task)
        t.workflowInstance (fun s ↦ s.taskRestart (e.environment env) t.task) i
        { i with workflow := { i.workflow with retrier := i.workflow.retrier.erase t.task } } e') :
      Steps e (.alarm t env) e'
  | cancel {id : UInt32} {i : ActiveInstance Node} (hi : e.instances id = some i)
      (hregistered : i.registered = true) (hidle : i.idle = true) :
      Steps e (.cancel id)
        { e.setInstance id { i with workflow := i.workflow.cancel } with
          engine := { e.engine with isCancelling := Function.update e.engine.isCancelling id true }
          requests := e.requests ++ [⟨id, .cancelled⟩] }
  | flushAll {retrier : Scheduling TimedTask} (hflush : e.flush = none)
      (hretrier : e.retrier.step B (.flush none) = some retrier) :
      Steps e (.flush none)
        { e with
          retrier
          flush := some (none, handedOut e.retrier retrier) }
  | flush {k : Nat} {id : UInt32} {retrier : Scheduling TimedTask} (hflush : e.flush = none)
      (hrequest : e.requests[k]? = some ⟨id, .cancelled⟩)
      (hretrier : e.retrier.step B (.flush (some (ofInstance id))) = some retrier) :
      Steps e (.flush (some k))
        { e with
          retrier
          flush := some (some k, handedOut e.retrier retrier) }
  | removed {env : Environment Node} {request : Option Nat} {t : TimedTask} {rest : List TimedTask}
      {i : ActiveInstance Node} {e' : CancellingEngine Node} (hflush : e.flush = some (request, t :: rest))
      (hbusy : i.workflow.workflowEnded = false)
      (hcalls : Calls e (unretry { e with flush := some (request, rest) } t.workflowInstance t.task)
        t.workflowInstance (fun s ↦ s.taskRestart (e.environment env) t.task) i
        { i with workflow := { i.workflow with retrier := i.workflow.retrier.erase t.task } } e') :
      Steps e (.removed env) e'
  | flushAllEnd (hflush : e.flush = some (none, [])) : Steps e .flushEnd { e with flush := none }
  | flushEnd {k : Nat} (hflush : e.flush = some (some k, [])) :
      Steps e .flushEnd
        { e with
          flush := none
          requests := e.advance k .flushed }
  | cancelTasks {k : Nat} {id : UInt32} {engine : Engine UInt32 Nat}
      (hrequest : e.requests[k]? = some ⟨id, .flushed⟩)
      (hengine : e.engine.step A getInstanceID (.cancelTasks id) = some engine) :
      Steps e (.cancelTasks k)
        { e with
          engine
          requests := e.advance k .completed }
  | remove {id : UInt32} {i : ActiveInstance Node} (hi : e.instances id = some i)
      (hregistered : i.registered = true) (hstarted : i.started = true) (hidle : i.idle = true)
      (hended : i.workflow.workflowEnded = true) :
      Steps e (.remove id) (e.setInstance id { i with registered := false })

/-- A call of `event_removed`, from a retry thread or from `Flush`. -/
theorem eventRemoved_calls {t : TimedTask} {env : Environment Node}
    (hstep : e₁.eventRemoved t env = some e')
    (hsame : e₁.instances = e.instances ∧ e₁.engine = e.engine) :
    ∃ i, i.workflow.workflowEnded = false ∧
      Calls e (e₁.unretry t.workflowInstance t.task) t.workflowInstance
        (fun s ↦ s.taskRestart (e.environment env) t.task) i
        { i with workflow := { i.workflow with retrier := i.workflow.retrier.erase t.task } } e' := by
  unfold eventRemoved at hstep
  by_cases halive : e₁.alive t.workflowInstance = true
  · rw [if_pos halive] at hstep
    rcases alive_cases halive with ⟨i, hi, hbusy⟩
    rw [hsame.1] at hi
    refine ⟨i, hbusy, hi, ?_, ?_⟩
    · unfold unretry
      rw [hsame.1, hi]
      rfl
    · have henv : e₁.environment env = e.environment env := by
        unfold environment
        rw [hsame.2]
      rw [henv] at hstep
      exact hstep
  · rw [if_neg halive] at hstep
    cases hstep

variable {A B}

theorem insertTask_steps {id : UInt32} {retryAt : Int}
    (hstep : e.step A B (.insertTask id retryAt) = some e') :
    Steps A B e (.insertTask id retryAt) e' := by
  unfold step at hstep
  cases hflush : e.flush with
  | some found => simp [hflush] at hstep
  | none =>
    simp only [hflush, Option.isSome_none, Bool.false_eq_true, if_false] at hstep
    rcases Option.bind_eq_some_iff.mp hstep with ⟨i, hi, hstep⟩
    cases hinserting : i.inserting with
    | nil => simp [hinserting] at hstep
    | cons task inserting =>
      simp only [hinserting] at hstep
      rcases Option.map_eq_some_iff.mp hstep with ⟨retrier, hretrier, heq⟩
      rw [← heq]
      exact .insertTask hflush hi hinserting hretrier

/-- The forker hands over a task whose instance still runs. -/
theorem taskExecute_steps {env : Environment Node} {pid : Nat}
    (hstep : e.step A B (.taskExecute env pid) = some e') :
    Steps A B e (.taskExecute env pid) e' := by
  unfold step at hstep
  cases hforker : e.engine.forker with
  | registered j t tid =>
    simp only [hforker] at hstep
    rcases Option.bind_eq_some_iff.mp hstep with ⟨i, hi, hstep⟩
    by_cases halive : e.alive t.workflowInstance = true
    · rw [if_pos halive] at hstep
      rcases Option.bind_eq_some_iff.mp hstep with ⟨engine, hengine, hcall⟩
      rcases alive_cases halive with ⟨i', hi', hbusy⟩
      rw [hi, Option.some.injEq] at hi'
      subst hi'
      refine .taskExecute hforker hbusy hengine ⟨hi, ?_, hcall⟩
      unfold unqueue
      rw [hi]
      rfl
    · rw [if_neg halive] at hstep
      cases hstep
  | _ => simp [hforker] at hstep

theorem taskStop_steps {id : UInt32} {task : Nat} {env : Environment Node}
    {retval : Int} {output : String}
    (hstep : e.step A B (.taskStop id task env retval output) = some e') :
    Steps A B e (.taskStop id task env retval output) e' := by
  rcases Option.bind_eq_some_iff.mp hstep with ⟨i, hi, hstep⟩
  cases hfind : i.workflow.doc.task? task with
  | none => simp [hfind] at hstep
  | some t =>
    simp only [hfind] at hstep
    by_cases hgoes : e.alive id = true ∧ t.status = some .executing
    · rw [if_pos hgoes] at hstep
      rcases alive_cases hgoes.1 with ⟨i', hi', hbusy⟩
      rw [hi, Option.some.injEq] at hi'
      subst hi'
      exact .taskStop hbusy hfind hgoes.2
        ⟨hi, (Function.update_eq_self_iff.mpr hi.symm).symm, hstep⟩
    · rw [if_neg hgoes] at hstep
      cases hstep

/-- `Flush` of all events, or of those of one instance. -/
theorem flush_steps {request : Option Nat}
    (hstep : e.step A B (.flush request) = some e') :
    Steps A B e (.flush request) e' := by
  unfold step at hstep
  cases hflush : e.flush with
  | some found => simp [hflush] at hstep
  | none =>
    simp only [hflush, Option.isSome_none, Bool.false_eq_true, if_false] at hstep
    cases request with
    | none =>
      rcases Option.map_eq_some_iff.mp hstep with ⟨retrier, hretrier, heq⟩
      rw [← heq]
      exact .flushAll hflush hretrier
    | some k =>
      dsimp only at hstep
      split at hstep
      · rename_i id hrequest
        rcases Option.map_eq_some_iff.mp hstep with ⟨retrier, hretrier, heq⟩
        rw [← heq]
        exact .flush hflush hrequest hretrier
      · cases hstep

/-- **What a step does**, and what it needs. -/
theorem steps_of_step {action : CancelAction Node} (hstep : e.step A B action = some e') :
    Steps A B e action e' := by
  cases action with
  | construct id doc =>
    unfold step at hstep
    cases hi : e.instances id with
    | some i => simp [hi] at hstep
    | none =>
      simp only [hi, Option.some.injEq] at hstep
      rw [← hstep]
      exact .construct hi
  | start id env =>
    rcases Option.bind_eq_some_iff.mp hstep with ⟨i, hi, hstep⟩
    -- an instance is started once
    by_cases hstarted : i.started = true
    · rw [if_pos hstarted] at hstep
      cases hstep
    · rw [if_neg hstarted] at hstep
      exact .start (Bool.eq_false_iff.mpr hstarted) ⟨hi, rfl, hstep⟩
  | resume id saved env order tid =>
    unfold step at hstep
    cases hi : e.instances id with
    | some i => simp [hi] at hstep
    | none =>
      simp only [hi, Option.some.injEq] at hstep
      rw [← hstep]
      exact .resume hi
  | enqueueTask id =>
    rcases Option.bind_eq_some_iff.mp hstep with ⟨i, hi, hstep⟩
    cases henqueuing : i.enqueuing with
    | nil => simp [henqueuing] at hstep
    | cons task enqueuing =>
      simp only [henqueuing] at hstep
      rcases Option.map_eq_some_iff.mp hstep with ⟨engine, hengine, heq⟩
      rw [← heq]
      exact .enqueueTask hi henqueuing hengine
  | insertTask id retryAt => exact insertTask_steps hstep
  | pool action =>
    unfold step at hstep
    by_cases hpool : onPool action = true
    · simp only [hpool, if_true] at hstep
      rcases Option.map_eq_some_iff.mp hstep with ⟨engine, hengine, heq⟩
      rw [← heq]
      exact .pool hpool hengine
    · simp [hpool] at hstep
  | taskExecute env pid => exact taskExecute_steps hstep
  | taskStop id task env retval output => exact taskStop_steps hstep
  | shiftEvent currTime =>
    unfold step at hstep
    dsimp only at hstep
    split at hstep
    · cases hstep
    · rename_i hflush
      rw [Bool.not_eq_true, Option.isSome_eq_false_iff, Option.isNone_iff_eq_none] at hflush
      rcases Option.map_eq_some_iff.mp hstep with ⟨retrier, hretrier, heq⟩
      rw [← heq]
      exact .shiftEvent hflush hretrier
  | alarm t env =>
    unfold step at hstep
    by_cases hin : t ∈ e.shifted
    · simp only [hin, if_true] at hstep
      rcases eventRemoved_calls (e := e) hstep ⟨rfl, rfl⟩ with ⟨i, hbusy, hcalls⟩
      exact .alarm hin hbusy hcalls
    · simp [hin] at hstep
  | cancel id =>
    rcases Option.bind_eq_some_iff.mp hstep with ⟨i, hi, hstep⟩
    -- the clients hold the mutex of the map, so no call of the instance is under way
    by_cases hfree : (i.registered && i.idle) = true
    · rw [if_pos hfree, Option.some.injEq] at hstep
      rw [Bool.and_eq_true] at hfree
      rw [← hstep]
      exact .cancel hi hfree.1 hfree.2
    · rw [if_neg hfree] at hstep
      cases hstep
  | flush request => exact flush_steps hstep
  | removed env =>
    unfold step at hstep
    cases hflush : e.flush with
    | none => simp [hflush] at hstep
    | some found =>
      rcases found with ⟨request, _ | ⟨t, rest⟩⟩
      · simp [hflush] at hstep
      · simp only [hflush] at hstep
        rcases eventRemoved_calls (e := e) hstep ⟨rfl, rfl⟩ with ⟨i, hbusy, hcalls⟩
        exact .removed hflush hbusy hcalls
  | flushEnd =>
    unfold step at hstep
    dsimp only at hstep
    split at hstep
    · rename_i hflush
      rw [← Option.some.inj hstep]
      exact .flushAllEnd hflush
    · rename_i k hflush
      rw [← Option.some.inj hstep]
      exact .flushEnd hflush
    · cases hstep
  | cancelTasks k =>
    unfold step at hstep
    dsimp only at hstep
    split at hstep
    · -- the flush of the `Retrier` is behind this request
      rename_i id hrequest
      rcases Option.map_eq_some_iff.mp hstep with ⟨engine, hengine, heq⟩
      rw [← heq]
      exact .cancelTasks hrequest hengine
    · cases hstep
  | remove id =>
    rcases Option.bind_eq_some_iff.mp hstep with ⟨i, hi, hstep⟩
    by_cases hfree : (i.registered && i.started && i.idle && i.workflow.workflowEnded) = true
    · rw [if_pos hfree, Option.some.injEq] at hstep
      rw [← hstep]
      simp only [Bool.and_eq_true] at hfree
      exact .remove hi hfree.1.1.1 hfree.1.1.2 hfree.1.2 hfree.2
    · rw [if_neg hfree] at hstep
      cases hstep

end CancellingEngine

end EvQueue
